import Mathlib.Algebra.Order.Field.Power
import Stencil.Proofs.Double.Decimals
import Stencil.Proofs.Double.Nearest

/-!
# The doubles of numerals

A numeral stands for a rational number, and is read as the double nearest to it. The two shortcuts
of the reading, for numerals that are too large or too small for any double, give what the general
rule gives (`toDouble?_eq_ofRank?`). So a numeral has a double if and only if it is below the
bound of the finite ones, and this has the sign of the numeral and the nearest magnitude
(`exists_roundsTo_iff`, `toDouble?_eq_some_iff`).
-/

namespace Stencil.Numeral

open Double

/-! ## Values -/

/-- The number that a numeral stands for, without its sign. -/
def magnitude (n : Numeral) : ℚ :=
  let fraction := n.fraction.getD []
  (valueOfDigits n.whole + valueOfDigits fraction / 10 ^ fraction.length) * 10 ^ n.power.getD 0

theorem valueOfDigits_append (front back : List Char) :
    valueOfDigits (front ++ back) =
      10 ^ back.length * valueOfDigits front + valueOfDigits back := by
  have hfold (digits : List Char) : valueOfDigits digits = Nat.ofDigitChars 10 digits 0 :=
    Nat.ofDigitChars_eq_foldl.symm
  rw [hfold, hfold, hfold, Nat.ofDigitChars_append, Nat.ofDigitChars_eq_ofDigitChars_zero]

/-- All digits as one number, scaled by the power of ten that belongs to the last of them. -/
theorem magnitude_eq (n : Numeral) : n.magnitude = n.coefficient * 10 ^ n.exponent := by
  have hten : (10 : ℚ) ≠ 0 := by norm_num
  rw [magnitude, coefficient, exponent, valueOfDigits_append, zpow_sub₀ hten, zpow_natCast]
  push_cast
  field_simp

/-- A power of ten is the quotient of one that multiplies and one that divides. -/
theorem ten_zpow (e : Int) : (10 : ℚ) ^ e = 10 ^ e.toNat / 10 ^ (-e).toNat := by
  obtain ⟨n, rfl | rfl⟩ := e.eq_nat_or_neg
  · simp
  · simp

/-- The rank computed for a scaled number is the nearest one. -/
theorem isNearest_decimalRank (coefficient : Nat) (exponent : Int) :
    IsNearest (coefficient * 10 ^ exponent) (decimalRank coefficient exponent) := by
  have hpow (n : Nat) : ((Nat.pow 10 n : Nat) : ℚ) = 10 ^ n := Nat.cast_pow 10 n
  have hd : 0 < Nat.pow 10 (-exponent).toNat := Nat.pow_pos (by decide)
  have hnearest := isNearest_nearestRank (coefficient * Nat.pow 10 exponent.toNat * unitsInOne) hd
  rw [Nat.cast_mul, Nat.cast_mul, hpow, hpow, div_right_comm,
    mul_div_cancel_right₀ _ unitsInOne_pos.ne', mul_div_assoc, ← ten_zpow] at hnearest
  exact hnearest

/-! ## Shortcuts -/

/-- A scaled number is smaller than the power of ten behind its digits. -/
theorem lt_ten_zpow (coefficient : Nat) (exponent : Int) :
    (coefficient : ℚ) * 10 ^ exponent <
      10 ^ ((Nat.toDigits 10 coefficient).length + exponent) := by
  have hlt : coefficient < 10 ^ (Nat.toDigits 10 coefficient).length :=
    (Nat.length_toDigits_le_iff (by decide) Nat.length_toDigits_pos).1 (Nat.le_refl _)
  have hpos : (0 : ℚ) < 10 ^ exponent := by positivity
  rw [zpow_add₀ (by norm_num), zpow_natCast]
  refine mul_lt_mul_of_pos_right ?_ hpos
  exact_mod_cast hlt

/-- A scaled number is at least the power of ten of its first digit. -/
theorem ten_zpow_le {coefficient : Nat} (h : coefficient ≠ 0) (exponent : Int) :
    (10 : ℚ) ^ ((Nat.toDigits 10 coefficient).length + exponent - 1) ≤
      coefficient * 10 ^ exponent := by
  obtain ⟨k, hk⟩ : ∃ k, (Nat.toDigits 10 coefficient).length = k + 1 :=
    Nat.exists_eq_add_one.2 Nat.length_toDigits_pos
  have hle : 10 ^ k ≤ coefficient := by
    by_cases hzero : k = 0
    · rw [hzero]
      exact Nat.one_le_iff_ne_zero.2 h
    · by_contra hlt
      have hshort := (Nat.length_toDigits_le_iff (by decide) (Nat.pos_of_ne_zero hzero)).2
        (Nat.lt_of_not_le hlt)
      omega
  have hexponent : ((k + 1 : Nat) : Int) + exponent - 1 = k + exponent := by
    push_cast
    ring
  have hnonneg : (0 : ℚ) ≤ 10 ^ exponent := by positivity
  rw [hk, hexponent, zpow_add₀ (by norm_num), zpow_natCast]
  refine mul_le_mul_of_nonneg_right ?_ hnonneg
  exact_mod_cast hle

theorem midpoint_zero : midpoint 0 = 1 / (2 * unitsInOne) := by
  have hshift := @midpoint_shift 0 0 (Or.inl rfl) (by decide)
  rw [Nat.zero_mul, Nat.add_zero, Nat.cast_zero, zero_mul, zero_add, pow_zero, div_div] at hshift
  exact hshift

/-- What is below `10 ^ -329` is nearest to zero: the smallest magnitude is more than twice as
large. -/
theorem decimalRank_of_small {coefficient : Nat} {exponent : Int}
    (h : (Nat.toDigits 10 coefficient).length + exponent < -329) :
    decimalRank coefficient exponent = 0 := by
  have hbound : (10 : ℚ) ^ (-330 : Int) ≤ midpoint 0 := by
    have hpow : 2 * 2 ^ 1074 ≤ 10 ^ 330 := by decide +kernel
    rw [midpoint_zero, unitsInOne_eq, zpow_neg, ← one_div]
    refine one_div_le_one_div_of_le (by positivity) ?_
    exact_mod_cast hpow
  have hpower : (10 : ℚ) ^ ((Nat.toDigits 10 coefficient).length + exponent) ≤ 10 ^ (-330 : Int) :=
    zpow_le_zpow_right₀ (by norm_num) (by omega)
  have hbelow : IsBelow (coefficient * 10 ^ exponent) 0 :=
    Or.inl ((lt_ten_zpow coefficient exponent).trans_le (hpower.trans hbound))
  exact Nat.le_zero.1 ((isNearest_iff.1 (isNearest_decimalRank coefficient exponent) 0).2 hbelow)

/-- What is at least `10 ^ 309` is too large for a finite double. -/
theorem overflowBound_le_of_large {coefficient : Nat} {exponent : Int} (hne : coefficient ≠ 0)
    (h : 309 < (Nat.toDigits 10 coefficient).length + exponent) :
    overflowBound ≤ coefficient * 10 ^ exponent := by
  have hbound : overflowBound ≤ (10 : ℚ) ^ (309 : Int) := by
    have hpow : 2 ^ 1024 ≤ 10 ^ 309 := by decide +kernel
    have hle : (2 : ℚ) ^ 1024 ≤ 10 ^ (309 : Int) := by exact_mod_cast hpow
    have hnonneg : (0 : ℚ) ≤ 2 ^ 970 := by positivity
    rw [overflowBound]
    exact (sub_le_self _ hnonneg).trans hle
  have hpower : (10 : ℚ) ^ (309 : Int) ≤
      10 ^ ((Nat.toDigits 10 coefficient).length + exponent - 1) :=
    zpow_le_zpow_right₀ (by norm_num) (by omega)
  exact hbound.trans (hpower.trans (ten_zpow_le hne exponent))

/-- The shortcuts agree with the general rule. -/
theorem toDouble?_eq_ofRank? (n : Numeral) :
    n.toDouble? = ofRank? n.negative (decimalRank n.coefficient n.exponent) := by
  simp only [toDouble?]
  split
  · rename_i hsmall
    rcases hsmall with hzero | hsmall
    · rw [hzero, decimalRank_zero]
    · rw [decimalRank_of_small hsmall]
  · rename_i hsmall
    rw [not_or] at hsmall
    split
    · rename_i hlarge
      have hbound := overflowBound_le_of_large hsmall.1 hlarge
      have hnearest := isNearest_decimalRank n.coefficient n.exponent
      have hrank : ¬ decimalRank n.coefficient n.exponent < 2047 * blockSize := by
        rw [hnearest.rank_lt_iff]
        exact hbound.not_gt
      rw [ofRank?, dif_neg hrank]
    · rfl

/-- The double that a numeral is rounded to: the sign is kept, and the magnitude is the nearest
one. -/
structure RoundsTo (n : Numeral) (x : Double) : Prop where
  negative : x.negative = n.negative
  nearest : IsNearest n.magnitude x.rank

theorem isNearest_magnitude (n : Numeral) :
    IsNearest n.magnitude (decimalRank n.coefficient n.exponent) := by
  rw [magnitude_eq]
  exact isNearest_decimalRank n.coefficient n.exponent

/-- A numeral is read as the double that it is rounded to. -/
theorem toDouble?_eq_some_iff {n : Numeral} {x : Double} :
    n.toDouble? = some x ↔ n.RoundsTo x := by
  have hnearest := n.isNearest_magnitude
  rw [toDouble?_eq_ofRank?, ofRank?_eq_some_iff]
  constructor
  · rintro ⟨hnegative, hrank⟩
    rw [← hrank] at hnearest
    exact ⟨hnegative, hnearest⟩
  · intro hx
    exact ⟨hx.negative, hx.nearest.unique hnearest⟩

/-- The numerals below the bound are rounded to doubles, and no others. -/
theorem exists_roundsTo_iff {n : Numeral} : (∃ x, n.RoundsTo x) ↔ n.magnitude < overflowBound := by
  rw [← n.isNearest_magnitude.rank_lt_iff]
  constructor
  · rintro ⟨x, hx⟩
    rw [n.isNearest_magnitude.unique hx.nearest]
    exact x.rank_lt
  · intro hlt
    exact ⟨⟨n.negative, decimalRank n.coefficient n.exponent, hlt⟩, rfl, n.isNearest_magnitude⟩

/-- A numeral without point and power has the magnitude of its integer. -/
theorem magnitude_of_toInt? {n : Numeral} {k : Int} (h : n.toInt? = some k) :
    n.magnitude = k.natAbs := by
  obtain ⟨negative, whole, fraction, power⟩ := n
  unfold toInt? at h
  split at h
  · rename_i hfraction hpower
    obtain rfl : fraction = none := hfraction
    obtain rfl : power = none := hpower
    have hvalue : k.natAbs = valueOfDigits whole := by
      have hk := Option.some.inj h
      simp only at hk
      split at hk
      · omega
      · omega
    rw [hvalue]
    simp [magnitude, valueOfDigits]
  · cases h

/-- An integer of 64 bits is below the bound. -/
theorem magnitude_lt_of_isSignedWord {n : Numeral} {k : Int} (h : n.toInt? = some k)
    (hk : IsSignedWord k) : n.magnitude < overflowBound := by
  have hword : k.natAbs ≤ 2 ^ 63 := by
    have hlow := hk.1
    have hhigh := hk.2
    omega
  have hbound : 2 ^ 63 + 2 ^ 970 < 2 ^ 1024 := by decide +kernel
  have hle : (k.natAbs : ℚ) ≤ 2 ^ 63 := by exact_mod_cast hword
  have hlt : (2 ^ 63 + 2 ^ 970 : ℚ) < 2 ^ 1024 := by exact_mod_cast hbound
  rw [magnitude_of_toInt? h, overflowBound]
  exact hle.trans_lt (lt_sub_iff_add_lt.2 hlt)

end Stencil.Numeral
