import Stencil.Capture.Directive
import Stencil.Proofs.Path.Joining
import Stencil.Proofs.Value.Insides

/-!
# Captures of the whole body

What the path of a capture says is what stands behind `$.` or `$` at its beginning, or all of it.
Where that is not empty it is read as a path, and it is refused where that one is. Where it is
empty there is no step to take, and so the path names the root. This holds of `$`, and of `$.` and a
blank path as well (`segments_eq_nil_iff`). A path with a segment never leads to the whole body, so
these three are the only ones that capture it (`extract_eq_body_iff`).
-/

namespace Stencil.Capture

variable {rest path : List Char}

/-- What a path says below the root: the text behind `$.`, or the text behind `$`, or all of it. -/
inductive Below : List Char → List Char → Prop where
  | dotted (rest : List Char) : Below rest ('$' :: '.' :: rest)
  | dollar {rest : List Char} (h : rest.head? ≠ some '.') : Below rest ('$' :: rest)
  | plain {path : List Char} (h : path.head? ≠ some '$') : Below path path

theorem below_iff : Below rest path ↔ relativePath path = rest := by
  constructor
  · intro h
    cases h with
    | dotted => rfl
    | dollar h =>
      unfold relativePath
      split
      · rename_i heq
        cases heq
        exact absurd rfl h
      · rename_i heq
        exact (List.cons.inj heq).2.symm
      · rename_i hno
        exact absurd rfl (hno _)
    | plain h =>
      unfold relativePath
      split
      · exact absurd rfl h
      · exact absurd rfl h
      · rfl
  · rintro rfl
    unfold relativePath
    split
    · exact .dotted _
    · rename_i tail hdot
      refine .dollar ?_
      intro hhead
      obtain ⟨back, rfl⟩ := List.head?_eq_some_iff.1 hhead
      exact hdot _ rfl
    · rename_i hdollar
      refine .plain ?_
      intro hhead
      obtain ⟨back, rfl⟩ := List.head?_eq_some_iff.1 hhead
      exact hdollar _ rfl

/-- The trimmed paths that say nothing below the root. -/
def IsRoot (path : List Char) : Prop :=
  path = [] ∨ path = ['$'] ∨ path = ['$', '.']

theorem below_nil_iff : Below [] path ↔ IsRoot path := by
  constructor
  · intro h
    cases h with
    | dotted => exact Or.inr (Or.inr rfl)
    | dollar => exact Or.inr (Or.inl rfl)
    | plain => exact Or.inl rfl
  · rintro (rfl | rfl | rfl)
    · exact .plain (by simp)
    · exact .dollar (by simp)
    · exact .dotted []

theorem exists_below_of_not_isRoot (h : ¬ IsRoot path) : ∃ rest ≠ [], Below rest path := by
  have hbelow : Below (relativePath path) path := below_iff.2 rfl
  refine ⟨relativePath path, ?_, hbelow⟩
  intro hnil
  rw [hnil] at hbelow
  exact h (below_nil_iff.1 hbelow)

/-- What a path says below the root ends where the path ends. -/
theorem Below.suffix (h : Below rest path) : rest <:+ path := by
  cases h with
  | dotted => exact ⟨['$', '.'], rfl⟩
  | dollar => exact ⟨['$'], rfl⟩
  | plain => exact List.suffix_rfl

variable {capture : Capture}

/-! ## Segments -/

/-- A capture has the segments of what its path says below the root, and it is refused with the
reason that this is no path. -/
theorem segments_of_below (h : Below rest (Text.trim capture.path.toList)) (hrest : rest ≠ []) :
    capture.segments =
      (Path.parse (String.ofList rest)).mapError (.invalidPath capture.path) := by
  have hrelative := below_iff.1 h
  cases hparse : Path.parse (String.ofList rest) with
  | ok keys => simp [segments, hrelative, hrest, hparse, Except.mapError]
  | error cause => simp [segments, hrelative, hrest, hparse, Except.mapError]

theorem segments_eq_ok_iff {keys : List String} (h : Below rest (Text.trim capture.path.toList))
    (hrest : rest ≠ []) :
    capture.segments = .ok keys ↔ Path.parse (String.ofList rest) = .ok keys := by
  rw [segments_of_below h hrest]
  cases Path.parse (String.ofList rest) with
  | ok read => simp [Except.mapError]
  | error cause => simp [Except.mapError]

theorem segments_eq_error_iff {cause : ResolveError}
    (h : Below rest (Text.trim capture.path.toList)) (hrest : rest ≠ []) :
    capture.segments = .error (.invalidPath capture.path cause) ↔
      Path.parse (String.ofList rest) = .error cause := by
  rw [segments_of_below h hrest]
  cases Path.parse (String.ofList rest) with
  | ok read => simp [Except.mapError]
  | error other => simp [Except.mapError]

/-- No segments are left to a path that names the root, and no path is read as no segments. -/
theorem segments_eq_nil_iff :
    capture.segments = .ok [] ↔ IsRoot (Text.trim capture.path.toList) := by
  by_cases hroot : IsRoot (Text.trim capture.path.toList)
  · have hnil : capture.segments = .ok [] := by
      rw [segments, below_iff.1 (below_nil_iff.2 hroot)]
      rfl
    exact ⟨fun _ => hroot, fun _ => hnil⟩
  · obtain ⟨rest, hrest, hbelow⟩ := exists_below_of_not_isRoot hroot
    rw [segments_eq_ok_iff hbelow hrest, Path.parse_eq_ok_iff, String.toList_ofList,
      Path.segments_eq_scan hrest]
    exact ⟨fun h => absurd h (Path.scan_name_ne_ok_nil hrest), fun h => absurd h hroot⟩

/-- What ends in a dot is no path. -/
theorem exists_invalidPath_of_last_dot (h : Below rest (Text.trim capture.path.toList))
    (hrest : rest ≠ []) (hdot : (Text.trim capture.path.toList).getLast? = some '.') :
    ∃ cause, capture.segments = .error (.invalidPath capture.path cause) := by
  have hlast : rest.getLast? = some '.' := by
    obtain ⟨front, htext⟩ := h.suffix
    rw [← htext, List.getLast?_append, List.getLast?_eq_some_getLast hrest] at hdot
    rw [List.getLast?_eq_some_getLast hrest]
    exact hdot
  rcases Path.parse_ok_or_malformed (String.ofList rest) with ⟨keys, hkeys⟩ | ⟨fault, hfault⟩
  · rw [Path.parse_eq_ok_iff, String.toList_ofList] at hkeys
    exact absurd hlast (Path.reads_of_segments hkeys).getLast?_ne_dot
  · exact ⟨_, (segments_eq_error_iff h hrest).2 hfault⟩

/-! ## Bodies -/

/-- The whole body is captured where there is no segment to follow: a step leads inside. -/
theorem extract_eq_body_iff {body : Value} :
    capture.extract body = .ok body ↔ IsRoot (Text.trim capture.path.toList) := by
  rw [← segments_eq_nil_iff, extract]
  cases hkeys : capture.segments with
  | error fault => simp
  | ok keys =>
    have hself : Path.navigate keys body = some body ↔ keys = [] := Value.navigate_eq_self_iff
    rw [Except.ok.injEq, ← hself]
    cases hfound : Path.navigate keys body with
    | none => simp [hfound]
    | some v => simp [hfound]

/-- A capture has no segments if its trimmed path is `$`, `$.` or empty, and for no other path. It
then captures the whole body, which no other capture does. Every other path has the segments of what
it says below the root, if this can be read as a path, and otherwise it is refused with the reason
that it can not; a path that ends in a dot never can. -/
theorem segments_root_or_below (capture : Capture) :
    (capture.segments = .ok [] ↔ IsRoot (Text.trim capture.path.toList)) ∧
    (∀ body, capture.extract body = .ok body ↔ IsRoot (Text.trim capture.path.toList)) ∧
    (¬ IsRoot (Text.trim capture.path.toList) →
      ∃ rest ≠ [], Below rest (Text.trim capture.path.toList) ∧
        (∀ keys, capture.segments = .ok keys ↔ Path.parse (String.ofList rest) = .ok keys) ∧
        ((∃ keys, capture.segments = .ok keys) ∨
          ∃ fault, Path.parse (String.ofList rest) =
              .error (.malformedPlaceholder (String.ofList rest) fault) ∧
            capture.segments = .error
              (.invalidPath capture.path (.malformedPlaceholder (String.ofList rest) fault))) ∧
        ((Text.trim capture.path.toList).getLast? = some '.' →
          ∃ cause, capture.segments = .error (.invalidPath capture.path cause))) := by
  refine ⟨segments_eq_nil_iff, fun body => extract_eq_body_iff, ?_⟩
  intro hroot
  obtain ⟨rest, hrest, hbelow⟩ := exists_below_of_not_isRoot hroot
  refine ⟨rest, hrest, hbelow, fun keys => segments_eq_ok_iff hbelow hrest, ?_,
    exists_invalidPath_of_last_dot hbelow hrest⟩
  rcases Path.parse_ok_or_malformed (String.ofList rest) with ⟨keys, hkeys⟩ | ⟨fault, hfault⟩
  · exact Or.inl ⟨keys, (segments_eq_ok_iff hbelow hrest).2 hkeys⟩
  · exact Or.inr ⟨fault, hfault, (segments_eq_error_iff hbelow hrest).2 hfault⟩

/-- Two dollar signs, of which one is a key, and a dot at the end. -/
theorem segments_root_or_below_of_dollars :
    let capture : Capture := { name := "v", scope := .locals, path := "\t$$.a[0] " }
    let dotted : Capture := { name := "v", scope := .locals, path := "$a." }
    ¬ IsRoot (Text.trim capture.path.toList) ∧ ¬ IsRoot (Text.trim dotted.path.toList) ∧
      capture.segments = .ok ["$", "a", "0"] ∧
      ∃ cause, dotted.segments = .error (.invalidPath "$a." cause) := by
  intro capture dotted
  have hcapture : ¬ IsRoot (Text.trim capture.path.toList) := by
    rw [IsRoot]
    decide
  have hdotted : ¬ IsRoot (Text.trim dotted.path.toList) := by
    rw [IsRoot]
    decide
  obtain ⟨rest, -, hbelow, hsegments, -⟩ := (segments_root_or_below capture).2.2 hcapture
  obtain ⟨-, -, -, -, -, hrefused⟩ := (segments_root_or_below dotted).2.2 hdotted
  have hrest : rest = "$.a[0]".toList := by
    rw [← below_iff.1 hbelow]
    decide
  refine ⟨hcapture, hdotted, (hsegments _).2 ?_, hrefused (by decide)⟩
  rw [hrest]
  decide

/-- A blank path and a dollar sign with a dot name nothing, but they capture the whole body as the
dollar sign alone does, although no path can be read from an empty text. -/
theorem extract_of_unnamed_root :
    let capture (path : String) : Capture := { name := "v", scope := .locals, path }
    (∀ path ∈ ["", " ", "$."], Text.trim path.toList ≠ ['$'] ∧
      ∀ body, (capture path).extract body = .ok body) ∧
      Path.parse "" = .error (.malformedPlaceholder "" .emptyPath) := by
  intro capture
  refine ⟨?_, by decide⟩
  intro path hpath
  have hroot : IsRoot (Text.trim path.toList) ∧ Text.trim path.toList ≠ ['$'] := by
    rw [IsRoot]
    revert path
    decide
  exact ⟨hroot.2, fun body => extract_eq_body_iff.2 hroot.1⟩

end Stencil.Capture
