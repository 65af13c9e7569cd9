import Stencil.Placeholder.Parser

/-!
# Escaped bars

A bar that belongs to an expression is written with a backslash before it. An expression whose bars
are all written so is read back as it was, whatever else it holds and whether or not its quotes are
closed, and has no default (`splitDefault_escapeBars`).
-/

namespace Stencil.Placeholder

/-- An expression with a backslash written before each bar. -/
def escapeBars (cs : List Char) : List Char :=
  cs.flatMap fun c => if c = '|' then ['\\', '|'] else [c]

theorem escapeBars_cons_bar (rest : List Char) :
    escapeBars ('|' :: rest) = '\\' :: '|' :: escapeBars rest := by
  simp [escapeBars]

theorem escapeBars_cons_of_ne {c : Char} (h : c ≠ '|') (rest : List Char) :
    escapeBars (c :: rest) = c :: escapeBars rest := by
  simp [escapeBars, h]

/-- An escaped expression does not start with a bar. -/
theorem escapeBars_ne_bar_cons (cs rest : List Char) : escapeBars cs ≠ '|' :: rest := by
  cases cs with
  | nil => simp [escapeBars]
  | cons c cs =>
    by_cases hc : c = '|'
    · subst hc
      simp [escapeBars_cons_bar]
    · simp [escapeBars_cons_of_ne hc, hc]

/-- A character that is no bar and starts no escape goes into the expression. -/
theorem splitDefault_cons {quote : Option Char} {c : Char} {rest : List Char} (hc : c ≠ '|')
    (hescape : c = '\\' → ∀ behind, rest ≠ '|' :: behind) :
    splitDefault quote (c :: rest) =
      (c :: (splitDefault (quoteAfter quote c) rest).1,
        (splitDefault (quoteAfter quote c) rest).2) := by
  rw [splitDefault.eq_3 _ _ _ fun behind hslash hbehind => hescape hslash behind hbehind]
  simp [hc]

/-- An escaped expression is read back, and has no default. -/
theorem splitDefault_escapeBars (quote : Option Char) (cs : List Char) :
    splitDefault quote (escapeBars cs) = (cs, none) := by
  -- a backslash before a bar counts inside quotes and outside, so the quote does not matter
  induction cs generalizing quote with
  | nil => rfl
  | cons c cs ih =>
    by_cases hc : c = '|'
    · subst hc
      rw [escapeBars_cons_bar, splitDefault, ih]
    · rw [escapeBars_cons_of_ne hc, splitDefault_cons hc fun _ => escapeBars_ne_bar_cons cs, ih]

/-- A written expression is read as what is left of it without the blanks around it. -/
theorem parse_escapeBars_of_trim {cs : List Char} (hne : Text.trim cs ≠ []) :
    Placeholder.parse (String.ofList (escapeBars cs)) =
      (Expression.parse (Text.trim cs)).map fun expression =>
        { expression, default := none, source := String.ofList (Text.trim cs) } := by
  simp [Placeholder.parse, splitDefault_escapeBars, hne]

/-- A written expression without blanks around it is read as it was. -/
theorem parse_escapeBars {cs : List Char} (hne : cs ≠ []) (htrim : Text.trim cs = cs) :
    Placeholder.parse (String.ofList (escapeBars cs)) =
      (Expression.parse cs).map fun expression =>
        { expression, default := none, source := String.ofList cs } := by
  have hrest : Text.trim cs ≠ [] := by rwa [htrim]
  have hparse := parse_escapeBars_of_trim hrest
  rwa [htrim] at hparse

/-- An expression without bars is written as it is. -/
theorem escapeBars_of_not_mem {cs : List Char} (h : '|' ∉ cs) : escapeBars cs = cs := by
  induction cs with
  | nil => rfl
  | cons c cs ih =>
    simp only [List.mem_cons, not_or] at h
    rw [escapeBars_cons_of_ne (Ne.symm h.1), ih h.2]

end Stencil.Placeholder
