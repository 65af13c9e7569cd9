import Stencil.Capture.Parser
import Stencil.Proofs.Path.Joining
import Stencil.Proofs.Placeholder.Calls
import Stencil.Proofs.Template.Evaluating

/-!
# Captured bodies

A body that is captured as a whole under a name has two ways to each of its places: a further
capture, whose path starts at the root, and a placeholder, whose path starts with the name. Both
find the same value, or both find none, or both refuse the path for the same reason
(`extract_iff_resolvePlaceholder`).
-/

namespace Stencil.Capture

/-- A name that a capture can be written with. -/
structure IsIdentifier (name : String) : Prop where
  head : ∃ c, name.toList.head? = some c ∧ isNameStart c = true
  chars : ∀ c ∈ name.toList, isNameChar c = true

theorem IsIdentifier.toList_ne_nil {name : String} (h : IsIdentifier name) :
    name.toList ≠ [] := by
  rcases h.head with ⟨c, hc, -⟩
  intro hnil
  rw [hnil] at hc
  cases hc

theorem IsIdentifier.ne {name : String} (h : IsIdentifier name) {c d : Char}
    (hc : c ∈ name.toList) (hd : isNameChar d = false) : c ≠ d :=
  Placeholder.ne_of_isNamespaceChar (h.chars c hc) hd

theorem IsIdentifier.not_blank {name : String} (h : IsIdentifier name) {c : Char}
    (hc : c ∈ name.toList) : Text.isBlank c = false :=
  Placeholder.isBlank_of_isNamespaceChar (h.chars c hc)

/-- A path can start with an identifier. -/
theorem IsIdentifier.isName {name : String} (h : IsIdentifier name) : Path.IsName name where
  ne_empty := by
    rintro rfl
    exact h.toList_ne_nil rfl
  plain c hc := ⟨h.ne hc (by decide), h.ne hc (by decide), h.ne hc (by decide)⟩
  head_ne_dollar hhead := h.ne (List.mem_of_mem_head? hhead) (by decide) rfl
  head_not_blank c hc := h.not_blank (List.mem_of_mem_head? hc)
  last_not_blank c hc := h.not_blank (List.mem_of_mem_getLast? hc)

/-! ## The two readers -/

variable {name path : String} {body : Value}

/-- A capture reads what follows the root in its path, up to the last character that is not
blank. -/
theorem segments_of_root {capture : Capture} (hcapture : capture.path = "$." ++ path)
    (hblank : Text.isBlankText path.toList = false) :
    capture.segments =
      match Path.segments (Text.trimEnd path.toList) with
      | .ok keys => .ok keys
      | .error fault =>
        .error (.invalidPath capture.path
          (.malformedPlaceholder (String.ofList (Text.trimEnd path.toList)) fault)) := by
  have htrim : Text.trim capture.path.toList = '$' :: '.' :: Text.trimEnd path.toList := by
    rw [hcapture, String.toList_append]
    exact Text.trim_cons_append (by decide) hblank ['.']
  unfold segments
  rw [htrim]
  simp only [relativePath, Text.trimEnd_ne_nil hblank, if_false, Path.parse, String.toList_ofList]
  cases Path.segments (Text.trimEnd path.toList) with
  | ok keys => rfl
  | error fault => rfl

/-- An identifier, a dot and a path end where the path ends. -/
theorem trim_behind_name (hname : IsIdentifier name)
    (hblank : Text.isBlankText path.toList = false) :
    Text.trim (name.toList ++ '.' :: path.toList) =
      name.toList ++ '.' :: Text.trimEnd path.toList := by
  rcases List.exists_cons_of_ne_nil hname.toList_ne_nil with ⟨c, rest, hcons⟩
  have hc : Text.isBlank c = false := by
    apply hname.not_blank
    rw [hcons]
    exact List.mem_cons_self
  have hcut := Text.trim_cons_append hc hblank (rest ++ ['.'])
  rw [hcons]
  simpa using hcut

/-- An expression that starts with an identifier is no call. -/
theorem expression_parse_of_identifier (hname : IsIdentifier name) (back : List Char) :
    Expression.parse (name.toList ++ back) =
      (Path.parse (String.ofList (name.toList ++ back))).map .variable := by
  rcases List.exists_cons_of_ne_nil hname.toList_ne_nil with ⟨c, rest, hcons⟩
  rw [hcons, Expression.parse.eq_2]
  intro behind heq
  have hdollar : c = '$' := (List.cons.inj heq).1
  apply hname.isName.head_ne_dollar
  rw [hcons, hdollar]
  rfl

/-- A placeholder reads the same text behind the name, and finds in it the same segments or the same
fault. -/
theorem parse_behind_name (hname : IsIdentifier name)
    (hblank : Text.isBlankText path.toList = false) (hbar : '|' ∉ path.toList) :
    ∃ source, Placeholder.parse (name ++ "." ++ path) =
      match Path.segments (Text.trimEnd path.toList) with
      | .ok keys =>
        .ok { expression := .variable (name :: keys), default := none, source }
      | .error fault => .error (.malformedPlaceholder source fault) := by
  -- without bars, the text is the escaped form of itself and has no default
  have hbars : '|' ∉ name.toList ++ '.' :: path.toList := by
    rw [List.mem_append, List.mem_cons]
    rintro (hin | hdot | hin)
    · exact hname.ne hin (by decide) rfl
    · exact absurd hdot (by decide)
    · exact hbar hin
  have htext : name ++ "." ++ path =
      String.ofList (Placeholder.escapeBars (name.toList ++ '.' :: path.toList)) := by
    rw [Placeholder.escapeBars_of_not_mem hbars, ← String.toList_inj]
    simp
  have htrim := trim_behind_name hname hblank
  have hsegments : Path.segments (name.toList ++ '.' :: Text.trimEnd path.toList) =
      (Path.segments (Text.trimEnd path.toList)).map (name :: ·) := by
    have hroot : Path.segments name.toList = .ok [name] := by
      have hkeys : ∀ key ∈ ([] : List String), Path.IsKey key := by simp
      simpa [Path.write] using Path.segments_write hname.isName.ne_empty hname.isName.plain hkeys
    exact Path.segments_append_dot hroot (Text.trimEnd_ne_nil hblank)
  refine ⟨String.ofList (name.toList ++ '.' :: Text.trimEnd path.toList), ?_⟩
  rw [htext, Placeholder.parse_escapeBars_of_trim (by simp [htrim]), htrim,
    expression_parse_of_identifier hname, Path.parse, String.toList_ofList, hsegments]
  cases Path.segments (Text.trimEnd path.toList) with
  | ok keys => rfl
  | error fault => rfl

/-! ## Agreement -/

/-- What an extraction and an evaluation have in common if the same path leads them. -/
inductive Agree : Except CaptureError Value → Eval Value → Prop where
  | value (v : Value) : Agree (.ok v) (pure v)
  | absent (name path source : String) :
      Agree (.error (.pathNotFound name path)) (Eval.fail (.unresolvedVariable source))
  | malformed (path text source : String) (fault : Malformation) :
      Agree (.error (.invalidPath path (.malformedPlaceholder text fault)))
        (Eval.fail (.malformedPlaceholder source fault))

theorem agree_of_captured {capture : Capture} {r : Resolver} (hname : IsIdentifier name)
    (hblank : Text.isBlankText path.toList = false) (hbar : '|' ∉ path.toList)
    (hcapture : capture.path = "$." ++ path) (hstored : r.store.get? name = some body) :
    Agree (capture.extract body) (r.resolvePlaceholder (name ++ "." ++ path)) := by
  have hsegments := segments_of_root hcapture hblank
  rcases parse_behind_name hname hblank hbar with ⟨source, hparse⟩
  cases hread : Path.segments (Text.trimEnd path.toList) with
  | error fault =>
    rw [hread] at hsegments hparse
    rw [extract, hsegments, Resolver.resolvePlaceholder_of_error hparse]
    exact .malformed _ _ source fault
  | ok keys =>
    rw [hread] at hsegments hparse
    have hlookup : r.lookup? (name :: keys) = Path.navigate keys body := by
      rw [Resolver.lookup?, hstored, Option.bind_some]
    rw [extract, hsegments, Resolver.resolvePlaceholder_of_variable hparse, hlookup,
      Option.or_none]
    cases hfound : Path.navigate keys body with
    | none => simpa [hfound] using Agree.absent capture.name capture.path source
    | some v => simpa [hfound] using Agree.value v

/-- A capture of the whole body stores it, and a lookup finds it unless a local variable hides
it. -/
theorem apply_root (name : String) (scope : Scope) (body : Value) (s : Store) :
    apply [{ name, scope, path := "$" }] body s = (s.set scope name body, .ok 1) ∧
      (scope = .locals ∨ s.getIn? .locals name = none →
        (s.set scope name body).get? name = some body) := by
  have hroot : segments { name, scope, path := "$" } = .ok [] := by
    have htrim : Text.trim "$".toList = ['$'] := by decide
    rw [segments, htrim]
    rfl
  constructor
  · rw [apply, applyAll, extract, hroot]
    rfl
  · intro hscope
    rw [Store.get?, Store.getIn?_set, Store.getIn?_set]
    cases scope with
    | locals => simp
    | globals =>
      have hnone : s.getIn? .locals name = none := by simpa using hscope
      simp [hnone]

/-- Capturing a place of a body and evaluating the placeholder of that place in the body as it was
captured as a whole: the one gives a value if and only if the other gives the same value, the one
finds nothing if and only if the other does, and the one refuses the path if and only if the other
does. -/
theorem extract_iff_resolvePlaceholder (body : Value) {name path : String}
    (hname : IsIdentifier name) (hblank : Text.isBlankText path.toList = false)
    (hbar : '|' ∉ path.toList) :
    (∀ scope s, apply [{ name, scope, path := "$" }] body s = (s.set scope name body, .ok 1) ∧
      (scope = .locals ∨ s.getIn? .locals name = none →
        (s.set scope name body).get? name = some body)) ∧
    ∀ (capture : Capture) (r : Resolver), capture.path = "$." ++ path →
      r.store.get? name = some body →
      (∀ v, capture.extract body = .ok v ↔
        r.resolvePlaceholder (name ++ "." ++ path) = pure v) ∧
      ((∃ name path, capture.extract body = .error (.pathNotFound name path)) ↔
        ∃ source, r.resolvePlaceholder (name ++ "." ++ path) =
          Eval.fail (.unresolvedVariable source)) ∧
      ((∃ path cause, capture.extract body = .error (.invalidPath path cause)) ↔
        ∃ text fault, r.resolvePlaceholder (name ++ "." ++ path) =
          Eval.fail (.malformedPlaceholder text fault)) := by
  refine ⟨fun scope s => apply_root name scope body s, ?_⟩
  intro capture r hcapture hstored
  have hagree := agree_of_captured hname hblank hbar hcapture hstored
  -- each way to agree is one value or one failure on both sides, and these all differ
  generalize capture.extract body = extracted at hagree ⊢
  generalize r.resolvePlaceholder (name ++ "." ++ path) = evaluated at hagree ⊢
  cases hagree with
  | value v => simp [Eval.pure_inj, Eval.pure_ne_fail]
  | absent n p source => simp [Eval.fail_inj, (Eval.pure_ne_fail _ _).symm]
  | malformed p text source fault => simp [Eval.fail_inj, (Eval.pure_ne_fail _ _).symm]

/-- A key that starts with a blank, a key with a dot in it, an index, and a blank at the end. -/
theorem extract_iff_resolvePlaceholder_of_blanks :
    let path := " x['a.b'][0]\t"
    let body : Value := .object [(" x", .object [("a.b", .array [.bool true])])]
    let capture : Capture := { name := "y", scope := .globals, path := "$." ++ path }
    let r : Resolver :=
      { store := ({} : Store).set .globals "_k1" body, functions := .ofList [], settings := {} }
    IsIdentifier "_k1" ∧ Text.isBlankText path.toList = false ∧ '|' ∉ path.toList ∧
      r.store.get? "_k1" = some body ∧ capture.extract body = .ok (.bool true) ∧
      r.resolvePlaceholder ("_k1" ++ "." ++ path) = pure (.bool true) := by
  intro path body capture r
  have hchars : "_k1".toList.all isNameChar = true := by decide
  have hname : IsIdentifier "_k1" := ⟨⟨'_', rfl, by decide⟩, List.all_eq_true.1 hchars⟩
  have hblank : Text.isBlankText path.toList = false := by decide
  have hbar : '|' ∉ path.toList := by decide
  have hextract : capture.extract body = .ok (.bool true) := by
    have hsegments : capture.segments = .ok [" x", "a.b", "0"] := by decide
    rw [extract, hsegments]
    rfl
  rcases extract_iff_resolvePlaceholder body hname hblank hbar with ⟨happly, hagree⟩
  have hstored : r.store.get? "_k1" = some body := (happly .globals {}).2 (Or.inr rfl)
  rcases hagree capture r rfl hstored with ⟨hvalue, -⟩
  exact ⟨hname, hblank, hbar, hstored, hextract, (hvalue (.bool true)).1 hextract⟩

end Stencil.Capture
