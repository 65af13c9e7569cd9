import Stencil.Proofs.Path.Image
import Stencil.Proofs.Placeholder.Parentheses
import Stencil.Proofs.Template.Evaluating

/-!
# Variables of placeholders

A placeholder that is read as a variable has the segments of a path, so it has a first one, and that
is a name. A placeholder has an expression, so it is never refused for an empty path either
(`parse_ne_emptyPath`): whoever resolves a placeholder sees this failure only if a function fails
with it (`path_image_and_named_variables`).
-/

namespace Stencil

/-! ## What is wrong with a placeholder -/

namespace Placeholder

theorem splitArguments_ne_emptyPath (quote : Option Char) (cs : List Char) :
    splitArguments quote cs ≠ .error .emptyPath := by
  fun_induction splitArguments quote cs with
  | case1 | case2 | case4 => simp
  | case3 _ _ _ ih | case5 _ _ _ _ _ ih => rwa [Ne, map_eq_error_iff]

theorem readArguments_ne_emptyPath (texts : List (List Char)) :
    readArguments texts ≠ .error .emptyPath := by
  fun_induction readArguments texts with
  | case1 | case2 => simp
  | case3 _ _ _ ih => rwa [Ne, map_eq_error_iff]

theorem arguments_ne_emptyPath (cs : List Char) : arguments cs ≠ .error .emptyPath := by
  unfold arguments
  split
  · simp
  · split
    · exact readArguments_ne_emptyPath _
    · rename_i fault hfault
      rintro ⟨⟩
      exact splitArguments_ne_emptyPath none cs hfault

theorem splitCall_ne_emptyPath (cs : List Char) : splitCall cs ≠ .error .emptyPath := by
  unfold splitCall
  split
  · split
    · rw [Ne, map_eq_error_iff]
      exact arguments_ne_emptyPath _
    · simp
  · split <;> simp

/-- A call has no path that could be empty. -/
theorem call_ne_emptyPath (source : String) (cs : List Char) :
    call source cs ≠ .error .emptyPath := by
  unfold call
  split
  · rename_i fault hfault
    rintro ⟨⟩
    exact splitCall_ne_emptyPath cs hfault
  · split
    · simp
    · simp only
      split
      · simp
      · split <;> simp

/-- An expression is not empty, so its path is not. -/
theorem expression_parse_ne_emptyPath {cs : List Char} (h : cs ≠ []) (whole : String) :
    Expression.parse cs ≠ .error (.malformedPlaceholder whole .emptyPath) := by
  unfold Expression.parse
  simp only
  split
  · split
    · simp
    · rename_i fault hfault
      rintro ⟨⟩
      exact call_ne_emptyPath _ _ hfault
  · rw [Ne, map_eq_error_iff]
    intro hpath
    unfold Path.parse at hpath
    split at hpath
    · cases hpath
    · rename_i fault hfault
      cases hpath
      exact h (by simpa using Path.segments_eq_emptyPath_iff.1 hfault)

/-- No placeholder is refused for an empty path. -/
theorem parse_ne_emptyPath (text whole : String) :
    Placeholder.parse text ≠ .error (.malformedPlaceholder whole .emptyPath) := by
  rw [parse_eq]
  split
  · simp
  · rename_i hexpression
    rw [Ne, map_eq_error_iff]
    exact expression_parse_ne_emptyPath hexpression whole

/-- The segments of a variable start with a name. -/
theorem exists_name_of_parse {text source : String} {default : Option Value}
    {segments : List String}
    (h : Placeholder.parse text = .ok { expression := .variable segments, default, source }) :
    ∃ name rest, segments = name :: rest ∧ name ≠ "" := by
  have hpath : ∃ path, Path.parse path = .ok segments := ⟨source, path_of_parse h⟩
  rcases Path.exists_parse_eq_ok_iff.1 hpath with ⟨hne, hkeys, -⟩
  rcases List.exists_cons_of_ne_nil hne with ⟨name, rest, rfl⟩
  exact ⟨name, rest, rfl, (hkeys name List.mem_cons_self).1⟩

end Placeholder

/-! ## Evaluations -/

namespace Resolver

/-- A placeholder that fails for an empty path is a call whose function fails so. -/
theorem exists_call_of_emptyPath {r : Resolver} {text whole : String} {w : World}
    (h : ((r.resolvePlaceholder text).runIn w).1 =
      .error (.error (.malformedPlaceholder whole .emptyPath))) :
    ∃ call default source,
      Placeholder.parse text = .ok { expression := .function call, default, source } ∧
        ((r.functions.dispatch call).runIn w).1 =
          .error (.error (.malformedPlaceholder whole .emptyPath)) := by
  cases hparse : Placeholder.parse text with
  | error e =>
    rw [resolvePlaceholder_of_error hparse] at h
    cases h
    exact absurd hparse (Placeholder.parse_ne_emptyPath text whole)
  | ok placeholder =>
    rcases placeholder with ⟨segments | call, default, source⟩
    · rw [resolvePlaceholder_of_variable hparse] at h
      cases hvalue : (r.lookup? segments).or default with
      | none =>
        rw [hvalue] at h
        cases h
      | some v =>
        rw [hvalue] at h
        cases h
    · rw [resolvePlaceholder_of_call hparse] at h
      exact ⟨call, default, source, rfl, h⟩

/-- A list of segments is what some path is read into if and only if it is not empty, no segment is
empty or holds a closing bracket, and the first one holds no dot and no opening bracket. So a
placeholder that is read as a variable has a name; its value is the one that the segments lead to,
else the default, else the variable is absent. A failure for an empty path comes from a function. -/
theorem path_image_and_named_variables :
    (∀ keys, (∃ text, Path.parse text = .ok keys) ↔
      keys ≠ [] ∧ (∀ key ∈ keys, key ≠ "" ∧ ']' ∉ key.toList) ∧
        ∀ name ∈ keys.head?, '.' ∉ name.toList ∧ '[' ∉ name.toList) ∧
    (∀ text segments default source,
      Placeholder.parse text = .ok { expression := .variable segments, default, source } →
        (∃ name rest, segments = name :: rest ∧ name ≠ "") ∧
        ∀ r : Resolver, r.resolvePlaceholder text =
          ((r.lookup? segments).or default).elim (Eval.fail (.unresolvedVariable source)) pure) ∧
    ∀ (r : Resolver) (text whole : String) (w : World),
      ((r.resolvePlaceholder text).runIn w).1 =
          .error (.error (.malformedPlaceholder whole .emptyPath)) →
        ∃ call default source,
          Placeholder.parse text = .ok { expression := .function call, default, source } ∧
            ((r.functions.dispatch call).runIn w).1 =
              .error (.error (.malformedPlaceholder whole .emptyPath)) := by
  refine ⟨fun keys => Path.exists_parse_eq_ok_iff, ?_, ?_⟩
  · intro text segments default source hparse
    exact ⟨Placeholder.exists_name_of_parse hparse, fun r => resolvePlaceholder_of_variable hparse⟩
  · intro r text whole w hfail
    exact exists_call_of_emptyPath hfail

/-- Marks and blanks in further segments and a dot in the first one, a name behind an escaped bar,
and a function that fails as for an empty path. -/
theorem path_image_and_named_variables_of_marks :
    let r : Resolver :=
      { store := {}
        functions := .ofList
          [{ name := "x", call := fun _ => Eval.fail (.malformedPlaceholder "" .emptyPath) }]
        settings := {} }
    (∃ text, Path.parse text = .ok ["$ |", ".['\"", " "]) ∧
      (¬ ∃ text, Path.parse text = .ok ["a.b", "c"]) ∧
      Placeholder.parse " \\|a [ '.[' ].0 |x" =
        .ok { expression := .variable ["|a ", ".[", "0"], default := some (.string "x"),
              source := "|a [ '.[' ].0" } ∧
      r.resolvePlaceholder " \\|a [ '.[' ].0 |x" = pure (.string "x") ∧
      ((r.resolvePlaceholder "$x.y").runIn (World.ofSeed 0)).1 =
        .error (.error (.malformedPlaceholder "" .emptyPath)) ∧
      ∃ call default source,
        Placeholder.parse "$x.y" = .ok { expression := .function call, default, source } := by
  intro r
  rcases path_image_and_named_variables with ⟨himage, hvariable, hempty⟩
  have hread : ∃ text, Path.parse text = .ok ["$ |", ".['\"", " "] :=
    (himage _).2 ⟨by simp, by decide, by decide⟩
  have hdotted : ¬ ∃ text, Path.parse text = .ok ["a.b", "c"] := by
    intro h
    rcases (himage _).1 h with ⟨-, -, hfirst⟩
    exact (hfirst "a.b" rfl).1 (by decide)
  have hparse : Placeholder.parse " \\|a [ '.[' ].0 |x" =
      .ok { expression := .variable ["|a ", ".[", "0"], default := some (.string "x"),
            source := "|a [ '.[' ].0" } := rfl
  have hdefault : r.resolvePlaceholder " \\|a [ '.[' ].0 |x" = pure (.string "x") := by
    rcases hvariable _ _ _ _ hparse with ⟨-, hvalue⟩
    rw [hvalue r]
    rfl
  have hfail : ((r.resolvePlaceholder "$x.y").runIn (World.ofSeed 0)).1 =
      .error (.error (.malformedPlaceholder "" .emptyPath)) := rfl
  rcases hempty r "$x.y" "" (World.ofSeed 0) hfail with ⟨call, default, source, hcall, -⟩
  exact ⟨hread, hdotted, hparse, hdefault, hfail, call, default, source, hcall⟩

end Resolver

end Stencil
