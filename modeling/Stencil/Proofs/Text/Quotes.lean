import Stencil.Proofs.Text.Ends

/-!
# Texts in quotes

A text in single quotes is read back as it was, blanks at its ends included: the quotes are its
first and last characters, so trimming changes nothing. A text has quotes to take off if and only
if it starts and ends with the same one (`quoted?_eq_none_iff`).
-/

namespace Stencil.Text

/-- A text with single quotes around it. -/
def inQuotes (cs : List Char) : List Char :=
  '\'' :: cs ++ ['\'']

theorem trim_inQuotes (cs : List Char) : trim (inQuotes cs) = inQuotes cs :=
  trim_of_ends (by decide) (by decide)

theorem quoted?_inQuotes (cs : List Char) : quoted? (inQuotes cs) = some cs := by
  rw [inQuotes, List.cons_append, quoted?.eq_3 _ _ (by simp)]
  simp

/-- A text that starts and ends with the same quote. -/
def IsEnclosed (cs : List Char) : Prop :=
  ∃ quote inner, (quote = '\'' ∨ quote = '"') ∧ cs = quote :: inner ++ [quote]

theorem quoted?_eq_none_iff {cs : List Char} : quoted? cs = none ↔ ¬ IsEnclosed cs := by
  constructor
  · rintro hnone ⟨quote, inner, hquote, rfl⟩
    rw [List.cons_append, quoted?.eq_3 _ _ (by simp), List.getLast?_concat,
      if_pos ⟨hquote, rfl⟩] at hnone
    cases hnone
  · intro hopen
    unfold quoted?
    split
    · rfl
    · rfl
    · rename_i first rest hshort
      rw [if_neg]
      rintro ⟨hquote, hlast⟩
      obtain ⟨inner, rfl⟩ := List.getLast?_eq_some_iff.1 hlast
      exact hopen ⟨first, inner, hquote, rfl⟩

/-- Taking quotes off leaves a part of the text. -/
theorem unquote_infix (cs : List Char) : unquote cs <:+: cs := by
  rw [unquote]
  cases hquoted : quoted? cs with
  | none => exact List.infix_rfl
  | some inner =>
    unfold quoted? at hquoted
    split at hquoted
    · cases hquoted
    · cases hquoted
    · split at hquoted
      · cases hquoted
        exact (List.dropLast_prefix _).isInfix.trans (List.suffix_cons _ _).isInfix
      · cases hquoted

theorem unquote_trim_inQuotes (cs : List Char) : unquote (trim (inQuotes cs)) = cs := by
  simp [trim_inQuotes, unquote, quoted?_inQuotes]

end Stencil.Text
