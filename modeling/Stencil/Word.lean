/-!
# Words

Integers and counts are kept in words of 64 bits, with or without a sign. The bounds are
`9223372036854775808 = 2 ^ 63` and `18446744073709551616 = 2 ^ 64`.
-/

namespace Stencil

/-- A natural number that a word holds. -/
abbrev IsWord (n : Nat) : Prop :=
  n < 18446744073709551616

/-- An integer that a word with a sign holds. -/
abbrev IsSignedWord (n : Int) : Prop :=
  -9223372036854775808 ≤ n ∧ n < 9223372036854775808

/-- An integer that a word holds, with or without a sign. -/
abbrev IsWordSized (n : Int) : Prop :=
  -9223372036854775808 ≤ n ∧ n < 18446744073709551616

theorem IsSignedWord.isWordSized {n : Int} (h : IsSignedWord n) : IsWordSized n :=
  ⟨h.1, Int.lt_trans h.2 (by decide)⟩

end Stencil
