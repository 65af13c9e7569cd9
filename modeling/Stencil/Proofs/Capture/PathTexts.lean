import Stencil.Proofs.Capture.Openings

/-!
# The path of a capture

The path of a capture is what stands behind the first equals sign of its line, without the blanks
around it. There is one exception: if nothing but blanks stand there, one of them is the path, and
the capture takes the whole body (`path_of_ofLine?`).
-/

namespace Stencil.Capture

variable {behind path : List Char}

/-! ## Blanks behind the equals sign -/

theorem pathText?_of_isBlankText (h : Text.isBlankText behind = true) :
    pathText? behind = (behind.filter (· ≠ '\n')).getLast?.map fun b => [b] := by
  rw [pathText?, if_pos (Text.trim_of_isBlankText h)]

/-- Among blanks one that is no line feed is a path. -/
theorem exists_of_pathText?_blank (h : Text.isBlankText behind = true)
    (hpath : pathText? behind = some path) :
    ∃ b ∈ behind, Text.isBlank b = true ∧ b ≠ '\n' ∧ path = [b] := by
  rw [pathText?_of_isBlankText h] at hpath
  obtain ⟨b, hb, rfl⟩ := Option.map_eq_some_iff.1 hpath
  obtain ⟨hmem, hne⟩ := List.mem_filter.1 (List.mem_of_getLast? hb)
  exact ⟨b, hmem, List.all_eq_true.1 h b hmem, of_decide_eq_true hne, rfl⟩

theorem exists_pathText?_iff (h : Text.isBlankText behind = true) :
    (∃ path, pathText? behind = some path) ↔ ∃ b ∈ behind, b ≠ '\n' := by
  constructor
  · rintro ⟨path, hpath⟩
    obtain ⟨b, hmem, -, hne, -⟩ := exists_of_pathText?_blank h hpath
    exact ⟨b, hmem, hne⟩
  · rintro ⟨b, hmem, hne⟩
    have hfilter : b ∈ behind.filter (· ≠ '\n') := List.mem_filter.2 ⟨hmem, by simpa using hne⟩
    rw [pathText?_of_isBlankText h]
    cases hlast : (behind.filter (· ≠ '\n')).getLast? with
    | none =>
      rw [List.getLast?_eq_none_iff.1 hlast] at hfilter
      cases hfilter
    | some d => exact ⟨[d], rfl⟩

/-- A blank path leads nowhere but to the root. -/
theorem extract_of_isBlankText {c : Capture} (h : Text.isBlankText c.path.toList = true)
    (body : Value) : c.extract body = .ok body := by
  have hsegments : c.segments = .ok [] := by
    rw [segments, Text.trim_of_isBlankText h]
    rfl
  rw [extract, hsegments]
  rfl

/-! ## Other text behind the equals sign -/

theorem eq_trim_of_pathText? (h : Text.isBlankText behind = false)
    (hpath : pathText? behind = some path) : path = Text.trim behind := by
  have hne : Text.trim behind ≠ [] := by
    rw [Ne, Text.trim_eq_nil_iff, h]
    exact Bool.false_ne_true
  rw [pathText?, if_neg hne] at hpath
  split at hpath
  · cases hpath
  · exact (Option.some.inj hpath).symm

/-! ## The equals sign -/

/-- The equals sign behind an opening is the first one of the line. -/
theorem Opening.equals_not_mem_text (o : Opening) : '=' ∉ o.text := by
  have hblanks {cs : List Char} (hcs : Text.isBlankText cs = true) : '=' ∉ cs := by
    intro hmem
    exact absurd (List.all_eq_true.1 hcs '=' hmem) (by decide)
  have hsign : '=' ∉ o.sign.text := by
    cases o.sign <;> decide
  have hname : '=' ∉ o.name.toList := fun hmem => o.identifier.ne hmem (by decide) rfl
  have hscope : '=' ∉ o.scope.elim [] fun written => written.1.name.toList ++ written.2 := by
    cases hscope : o.scope with
    | none => simp
    | some written =>
      obtain ⟨scope, blanks⟩ := written
      have hspace : '=' ∉ blanks := hblanks (o.scope_blank (scope, blanks) hscope).1
      cases scope <;> simp [Scope.name, hspace]
  simp only [Opening.text, Opening.target, List.mem_append, not_or]
  exact ⟨hblanks o.indent_blank, hsign, hblanks o.gap_blank, by decide, hblanks o.space_blank,
    hscope, hname, hblanks o.after_blank⟩

/-- A line has one part in front of its first equals sign, and one behind it. -/
theorem Opening.text_inj {o p : Opening} {rest : List Char}
    (h : o.text ++ '=' :: behind = p.text ++ '=' :: rest) : o.text = p.text ∧ behind = rest := by
  have hcut := Text.cutAt_append o.equals_not_mem_text behind
  rw [h, Text.cutAt_append p.equals_not_mem_text rest] at hcut
  obtain ⟨htext, hbehind⟩ := Prod.mk.inj (Option.some.inj hcut)
  exact ⟨htext.symm, hbehind.symm⟩

/-- The name of a capture is an identifier and its path is not empty. The path is what stands behind
the first equals sign, without the blanks around it, unless there are only blanks: then the path is
one of these and leads to the whole body. All blanks but line feeds make a capture so. -/
theorem path_of_ofLine? (line : String) :
    (∀ c, ofLine? line = some c → IsIdentifier c.name ∧ c.path ≠ "" ∧
      ∃ front behind, line.toList = front ++ '=' :: behind ∧ '=' ∉ front ∧
        (Text.isBlankText behind = false →
          c.path.toList = Text.trim behind ∧ Text.trim c.path.toList = c.path.toList) ∧
        (Text.isBlankText behind = true →
          (∃ b ∈ behind, Text.isBlank b = true ∧ b ≠ '\n' ∧ c.path = String.ofList [b]) ∧
          ∀ body, c.extract body = .ok body)) ∧
    (∀ (o : Opening) behind, line.toList = o.text ++ '=' :: behind →
      Text.isBlankText behind = true →
      ((∃ c, ofLine? line = some c) ↔ ∃ b ∈ behind, b ≠ '\n')) := by
  constructor
  · intro c h
    obtain ⟨o, behind, path, hline, hpath, rfl⟩ := ofChars?_eq_some_iff.1 h
    have htext : (o.capture path).path.toList = path := String.toList_ofList
    have hempty (hne : path ≠ []) : (o.capture path).path ≠ "" := by
      rw [Ne, ← String.toList_eq_nil_iff, htext]
      exact hne
    cases hblank : Text.isBlankText behind with
    | false =>
      have htrim : path = Text.trim behind := eq_trim_of_pathText? hblank hpath
      have hne : path ≠ [] := by
        rw [htrim, Ne, Text.trim_eq_nil_iff, hblank]
        exact Bool.false_ne_true
      refine ⟨o.identifier, hempty hne, o.text, behind, hline, o.equals_not_mem_text, ?_, ?_⟩
      · intro _
        rw [htext, htrim]
        exact ⟨rfl, Text.trim_trim behind⟩
      · intro hother
        rw [hblank] at hother
        cases hother
    | true =>
      obtain ⟨b, hmem, hb, hne, rfl⟩ := exists_of_pathText?_blank hblank hpath
      have hroot : Text.isBlankText (o.capture [b]).path.toList = true := by
        rw [htext]
        simpa [Text.isBlankText] using hb
      refine ⟨o.identifier, hempty (List.cons_ne_nil b []), o.text, behind, hline,
        o.equals_not_mem_text, ?_, ?_⟩
      · intro hother
        rw [hblank] at hother
        cases hother
      · intro _
        exact ⟨⟨b, hmem, hb, hne, rfl⟩, extract_of_isBlankText hroot⟩
  · intro o behind hline hblank
    rw [← exists_pathText?_iff hblank]
    constructor
    · rintro ⟨c, h⟩
      obtain ⟨p, rest, path, hother, hpath, -⟩ := ofChars?_eq_some_iff.1 h
      obtain ⟨-, rfl⟩ := Opening.text_inj (hline.symm.trans hother)
      exact ⟨path, hpath⟩
    · rintro ⟨path, hpath⟩
      exact ⟨o.capture path, ofChars?_eq_some_iff.2 ⟨o, behind, path, hline, hpath, rfl⟩⟩

/-- A tab behind the equals sign, and a name like a scope with a path between blanks. -/
theorem path_of_ofLine?_of_layouts :
    let o : Opening :=
      { indent := [], sign := .hash, gap := [], space := ['\t'], scope := none, name := "a_1"
        after := [], indent_blank := rfl, gap_blank := rfl, space_blank := by decide
        space_ne_nil := by decide, scope_blank := by simp
        identifier := ⟨⟨'a', rfl, by decide⟩, List.all_eq_true.1 (by decide)⟩, after_blank := rfl }
    let line := "  // @capture local\tglobal = $.a = b \t"
    let c : Capture := { name := "global", scope := .locals, path := "$.a = b" }
    "#@capture\ta_1=\t".toList = o.text ++ '=' :: ['\t'] ∧
      (∃ blank, ofLine? "#@capture\ta_1=\t" = some blank) ∧
      ofLine? line = some c ∧ IsIdentifier c.name ∧ c.path ≠ "" := by
  intro o line c
  have htext : "#@capture\ta_1=\t".toList = o.text ++ '=' :: ['\t'] := by decide
  have hread : ofLine? line = some c := by decide
  have hblank := ((path_of_ofLine? "#@capture\ta_1=\t").2 o ['\t'] htext (by decide)).2
    ⟨'\t', by simp, by decide⟩
  obtain ⟨hname, hpath, -⟩ := (path_of_ofLine? line).1 c hread
  exact ⟨htext, hblank, hread, hname, hpath⟩

/-- A line without a path is no capture, but with a blank at its end it is one: the blank is the
path, and the whole body is captured. -/
theorem ofLine?_of_missing_path :
    let c : Capture := { name := "name", scope := .locals, path := " " }
    ofLine? "# @capture name =" = none ∧ ofLine? "# @capture name = " = some c ∧
      Text.trim c.path.toList ≠ c.path.toList ∧ ∀ body, c.extract body = .ok body := by
  intro c
  refine ⟨by decide, by decide, by decide, ?_⟩
  exact extract_of_isBlankText (by decide)

end Stencil.Capture
