import Mathlib.Tactic.IntervalCases
import Stencil.Double.Shortest
import Stencil.Proofs.Numeral

/-!
# The decimals behind the texts of doubles

The text of a double that is not zero is the text of a proper decimal: digits, the first of which is
not a zero. No digits are lost to a coefficient of zero, because zero is the decimal of rank zero
only.
-/

namespace Stencil

namespace Numeral

/-- The decimal digits of a number that is not zero do not start with a zero. -/
theorem head_toDigits {n : Nat} (h : n ≠ 0) :
    ∃ c rest, Nat.toDigits 10 n = c :: rest ∧ c ≠ '0' := by
  induction n using Nat.strongRecOn with
  | ind n ih =>
    by_cases hlt : n < 10
    · refine ⟨n.digitChar, [], Nat.toDigits_of_lt_base hlt, ?_⟩
      interval_cases n <;> simp_all
    · obtain ⟨c, rest, hdigits, hc⟩ := ih (n / 10) (by omega) (by omega)
      refine ⟨c, rest ++ [(n % 10).digitChar], ?_, hc⟩
      rw [Nat.toDigits_of_base_le (by decide) (by omega), hdigits, List.cons_append]

/-- Nothing but a coefficient of zero has rank zero for every power of ten. -/
theorem decimalRank_zero (exponent : Int) : decimalRank 0 exponent = 0 := by
  simp [decimalRank, Double.nearestRank]

end Numeral

namespace Double

theorem unitsOfRank_ne_zero {rank : Nat} (h : rank ≠ 0) : unitsOfRank rank ≠ 0 := by
  unfold unitsOfRank
  split
  · exact h
  · have hpow : 0 < Nat.pow 2 (rank / blockSize - 1) := Nat.pow_pos (by decide)
    exact Nat.mul_ne_zero (by unfold blockSize; omega) hpow.ne'

/-- A decimal of digits that start with another digit than zero. -/
structure Decimal.IsProper (x : Decimal) : Prop where
  isDigit : ∀ c ∈ x.digits, Numeral.isDigit c = true
  first : ∃ c rest, x.digits = c :: rest ∧ c ≠ '0'

theorem Decimal.isProper_ofScaled {coefficient : Nat} (h : coefficient ≠ 0) (exponent : Int) :
    (ofScaled coefficient exponent).IsProper := by
  obtain ⟨c, rest, hdigits, hc⟩ := Numeral.head_toDigits h
  -- the first digit stops the search for zeros from the end
  have hstripped : ∃ front, (ofScaled coefficient exponent).digits = c :: front ∧
      c :: front <+: c :: rest := by
    simp only [ofScaled, hdigits, List.reverse_cons, List.dropWhile_append]
    split
    · exact ⟨[], by simp [hc], by simp⟩
    · refine ⟨(rest.reverse.dropWhile (· == '0')).reverse, by simp, ?_⟩
      have hsuffix := List.dropWhile_suffix (· == '0') (l := rest.reverse)
      simpa using List.reverse_prefix.2 hsuffix
  obtain ⟨front, hfront, hprefix⟩ := hstripped
  constructor
  · intro d hd
    rw [hfront] at hd
    exact Numeral.isDigit_of_mem_toDigits (hdigits ▸ hprefix.subset hd)
  · exact ⟨c, front, hfront, hc⟩

/-- A decimal that was found for a rank is made of a coefficient that reads back as that rank. -/
theorem exists_of_decimalOfLength? {rank : Nat} {leading : Int} {length : Nat} {x : Decimal}
    (h : decimalOfLength? rank leading length = some x) :
    ∃ coefficient exponent, Numeral.decimalRank coefficient exponent = rank ∧
      x = Decimal.ofScaled coefficient exponent := by
  have hcases {near far : Bool} {a b : Decimal}
      (hif : (if near then some a else if far then some b else none) = some x) :
      (near = true ∧ x = a) ∨ (far = true ∧ x = b) := by
    cases near <;> cases far <;> simp_all
  unfold decimalOfLength? at h
  rcases hcases h with ⟨hread, hx⟩ | ⟨hread, hx⟩
  · exact ⟨_, _, beq_iff_eq.1 hread, hx⟩
  · exact ⟨_, _, beq_iff_eq.1 hread, hx⟩

theorem isProper_of_decimalOfLength? {rank : Nat} (hrank : rank ≠ 0) {leading : Int} {length : Nat}
    {x : Decimal} (h : decimalOfLength? rank leading length = some x) : x.IsProper := by
  obtain ⟨coefficient, exponent, hread, rfl⟩ := exists_of_decimalOfLength? h
  refine Decimal.isProper_ofScaled ?_ exponent
  rintro rfl
  exact hrank (hread.symm.trans (Numeral.decimalRank_zero exponent))

theorem isProper_exactDecimal {rank : Nat} (h : rank ≠ 0) : (exactDecimal rank).IsProper := by
  -- said of every power, because the one in question is too large to be computed
  have hne (n : Nat) : unitsOfRank rank * Nat.pow 5 n ≠ 0 :=
    Nat.mul_ne_zero (unitsOfRank_ne_zero h) (Nat.pow_pos (by decide)).ne'
  unfold exactDecimal
  apply Decimal.isProper_ofScaled
  apply hne

/-- The digits of the text of a double that is not zero are those of a proper decimal. -/
theorem isProper_shortestDecimal {rank : Nat} (h : rank ≠ 0) : (shortestDecimal rank).IsProper := by
  have hgetD {found : Option Decimal} (hfound : ∀ x, found = some x → x.IsProper) :
      (found.getD (exactDecimal rank)).IsProper := by
    cases found with
    | none => exact isProper_exactDecimal h
    | some x => exact hfound x rfl
  unfold shortestDecimal
  dsimp only
  refine hgetD fun x hx => ?_
  obtain ⟨n, -, hn⟩ := List.exists_of_findSome?_eq_some hx
  exact isProper_of_decimalOfLength? h hn

end Double

end Stencil
