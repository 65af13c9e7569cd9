import Stencil.Proofs.Path.Writing

/-!
# Rules of paths

The reader of a path accepts a text by ten rules, of which each says what stands at a place and what
is read behind it (`Reads`, `scan_eq_ok_iff`). What is true of all paths that can be read is shown
once for each rule.
-/

namespace Stencil.Path

variable {place : Place} {cs : List Char} {keys : List String}

/-- A result with a segment in front comes from a result without it. -/
theorem map_cons_eq_ok_iff {result : Except Malformation (List String)} {key : String} :
    result.map (key :: ·) = .ok keys ↔ ∃ back, result = .ok back ∧ keys = key :: back := by
  cases result with
  | ok back => simp [Except.map, eq_comm]
  | error fault => simp [Except.map]

/-- The segments that a text is read into from a place. -/
inductive Reads : Place → List Char → List String → Prop where
  | nothing : Reads (.name []) [] []
  | lastName {current : List Char} (hcurrent : current ≠ []) :
      Reads (.name current) [] [String.ofList current]
  | dotBehindName {current rest : List Char} {back : List String} (hcurrent : current ≠ [])
      (hrest : rest ≠ []) (hback : Reads (.name []) rest back) :
      Reads (.name current) ('.' :: rest) (String.ofList current :: back)
  | openBehindName {current rest : List Char} {back : List String} (hcurrent : current ≠ [])
      (hback : Reads (.index []) rest back) :
      Reads (.name current) ('[' :: rest) (String.ofList current :: back)
  | nameChar {c : Char} {current rest : List Char} {keys : List String} (hdot : c ≠ '.')
      (hopen : c ≠ '[') (hclose : c ≠ ']') (hkeys : Reads (.name (current ++ [c])) rest keys) :
      Reads (.name current) (c :: rest) keys
  | closeIndex {inner rest : List Char} {back : List String}
      (hsegment : Text.unquote (Text.trim inner) ≠ []) (hback : Reads .behindIndex rest back) :
      Reads (.index inner) (']' :: rest) (String.ofList (Text.unquote (Text.trim inner)) :: back)
  | indexChar {c : Char} {inner rest : List Char} {keys : List String} (hclose : c ≠ ']')
      (hkeys : Reads (.index (inner ++ [c])) rest keys) : Reads (.index inner) (c :: rest) keys
  | lastIndex : Reads .behindIndex [] []
  | dotBehindIndex {rest : List Char} {keys : List String} (hrest : rest ≠ [])
      (hkeys : Reads (.name []) rest keys) : Reads .behindIndex ('.' :: rest) keys
  | openBehindIndex {rest : List Char} {keys : List String} (hkeys : Reads (.index []) rest keys) :
      Reads .behindIndex ('[' :: rest) keys

theorem reads_of_scan (h : scan place cs = .ok keys) : Reads place cs keys := by
  fun_induction scan place cs generalizing keys with
  | case1 current =>
    cases h
    split
    · rename_i hcurrent
      rw [hcurrent]
      exact .nothing
    · rename_i hcurrent
      exact .lastName hcurrent
  | case4 current rest hcurrent hrest ih =>
    rcases map_cons_eq_ok_iff.1 h with ⟨back, hback, rfl⟩
    exact .dotBehindName hcurrent hrest (ih hback)
  | case6 current rest hcurrent _ ih =>
    rcases map_cons_eq_ok_iff.1 h with ⟨back, hback, rfl⟩
    exact .openBehindName hcurrent (ih hback)
  | case8 current c rest hdot hopen hclose ih => exact .nameChar hdot hopen hclose (ih h)
  | case11 inner rest _ hsegment =>
    rename_i ih
    rcases map_cons_eq_ok_iff.1 h with ⟨back, hback, rfl⟩
    exact .closeIndex hsegment (ih hback)
  | case12 inner c rest hclose ih => exact .indexChar hclose (ih h)
  | case13 =>
    cases h
    exact .lastIndex
  | case15 rest hrest ih => exact .dotBehindIndex hrest (ih h)
  | case16 rest _ ih => exact .openBehindIndex (ih h)
  -- all other rules refuse the text
  | case2 | case3 | case5 | case7 | case9 | case10 | case14 | case17 | case18 => cases h

theorem Reads.scan_eq (h : Reads place cs keys) : scan place cs = .ok keys := by
  induction h with
  | nothing => rfl
  | lastName hcurrent => rw [scan, if_neg hcurrent]
  | dotBehindName hcurrent hrest _ ih =>
    rw [scan, if_pos rfl, if_neg hcurrent, if_neg hrest, ih]
    rfl
  | openBehindName hcurrent _ ih =>
    rw [scan, if_neg (by decide), if_pos rfl, if_neg hcurrent, ih]
    rfl
  | nameChar hdot hopen hclose _ ih => rw [scan, if_neg hdot, if_neg hopen, if_neg hclose, ih]
  | closeIndex hsegment _ ih =>
    rw [scan, if_pos rfl]
    simp [hsegment, ih, Except.map]
  | indexChar hclose _ ih => rw [scan, if_neg hclose, ih]
  | lastIndex => rfl
  | dotBehindIndex hrest _ ih => rw [scan, if_pos rfl, if_neg hrest, ih]
  | openBehindIndex _ ih => rw [scan, if_neg (by decide), if_pos rfl, ih]

/-- A text is read if and only if the rules allow it, and into what they say. -/
theorem scan_eq_ok_iff : scan place cs = .ok keys ↔ Reads place cs keys :=
  ⟨reads_of_scan, Reads.scan_eq⟩

/-! ## Segments -/

/-- Some characters in a name make at least one segment. -/
theorem Reads.keys_ne_nil {current : List Char} (h : Reads (.name current) cs keys)
    (hstarted : current ≠ [] ∨ cs ≠ []) : keys ≠ [] := by
  generalize hplace : Place.name current = place at h
  induction h generalizing current with
  | nothing =>
    cases hplace
    simp at hstarted
  | lastName | dotBehindName | openBehindName => simp
  | nameChar _ _ _ _ ih =>
    cases hplace
    exact ih (Or.inl (by simp)) rfl
  | closeIndex | indexChar | lastIndex | dotBehindIndex | openBehindIndex => cases hplace

theorem scan_name_ne_ok_nil (h : cs ≠ []) : scan (.name []) cs ≠ .ok [] :=
  fun hscan => (reads_of_scan hscan).keys_ne_nil (Or.inr h) rfl

/-- A path that is not empty is read by its first segment. -/
theorem segments_eq_scan (h : cs ≠ []) : segments cs = scan (.name []) cs := by
  unfold segments
  split
  · rename_i hnil
    exact absurd hnil (scan_name_ne_ok_nil h)
  · rfl

theorem ne_nil_of_segments (h : segments cs = .ok keys) : cs ≠ [] := by
  rintro rfl
  cases h

theorem reads_of_segments (h : segments cs = .ok keys) : Reads (.name []) cs keys := by
  rwa [← scan_eq_ok_iff, ← segments_eq_scan (ne_nil_of_segments h)]

/-! ## Texts -/

theorem parse_eq_ok_iff {text : String} :
    parse text = .ok keys ↔ segments text.toList = .ok keys := by
  rw [parse]
  cases segments text.toList with
  | ok read => simp
  | error fault => simp

/-- What is wrong with a path is told together with the whole path. -/
theorem parse_eq_malformed_iff {text : String} {fault : Malformation} :
    parse text = .error (.malformedPlaceholder text fault) ↔
      segments text.toList = .error fault := by
  rw [parse]
  cases segments text.toList with
  | ok read => simp
  | error other => simp

/-- A text is read as a path, or it is malformed. -/
theorem parse_ok_or_malformed (text : String) :
    (∃ keys, parse text = .ok keys) ∨
      ∃ fault, parse text = .error (.malformedPlaceholder text fault) := by
  rw [parse]
  cases segments text.toList with
  | ok keys => exact Or.inl ⟨keys, rfl⟩
  | error fault => exact Or.inr ⟨fault, rfl⟩

end Stencil.Path
