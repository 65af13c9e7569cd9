import Stencil.Double.Rounding
import Stencil.Proofs.Double.Numerals

/-!
# Integers among the doubles

Every integer of at most 53 bits is a double (`isInteger_ofInt`), and floor, ceiling and the
magnitude of such a double are exact. Adding one half to it is exact below `2 ^ 52`. From there on
the doubles are whole numbers, the sum lies half way between two of them, and it is rounded to the
even one, so that an odd integer gives way to the next one (`floor_addHalf`).
-/

namespace Stencil.Double

/-! ## Magnitudes of few bits -/

/-- Units in one half. -/
def unitsInHalf : Nat := Nat.pow 2 1073

theorem unitsInOne_eq_two_mul : unitsInOne = 2 * unitsInHalf := by
  decide +kernel

-- the powers have no names in what follows, because they are too large to be computed

theorem unitsInOne_eq_pow : ∃ shift, unitsInOne = Nat.pow 2 shift := by
  have hpow (shift : Nat) : ∃ other, Nat.pow 2 shift = Nat.pow 2 other := ⟨shift, rfl⟩
  unfold unitsInOne
  apply hpow

theorem unitsInHalf_eq_pow : ∃ shift, unitsInHalf = Nat.pow 2 shift := by
  have hpow (shift : Nat) : ∃ other, Nat.pow 2 shift = Nat.pow 2 other := ⟨shift, rfl⟩
  unfold unitsInHalf
  apply hpow

theorem unitsInHalf_pos : 0 < unitsInHalf := by
  obtain ⟨shift, hhalf⟩ := unitsInHalf_eq_pow
  rw [hhalf]
  exact Nat.pow_pos (by decide)

/-- A number of at most 53 bits, scaled by a power of two, is a magnitude in units. -/
theorem exists_unitsOfRank {m : Nat} (h : m ≤ 2 * blockSize) (shift : Nat) :
    ∃ rank, unitsOfRank rank = m * Nat.pow 2 shift := by
  induction shift generalizing m with
  | zero => exact ⟨0 * blockSize + m, unitsOfRank_shift (.inl rfl) h⟩
  | succ shift ih =>
    by_cases hfull : blockSize ≤ m
    · exact ⟨(shift + 1) * blockSize + m, unitsOfRank_shift (.inr hfull) h⟩
    · -- a significand with room for one more bit is doubled
      obtain ⟨rank, hrank⟩ := ih (m := 2 * m) (by omega)
      refine ⟨rank, hrank.trans ?_⟩
      rw [Nat.pow_eq, Nat.pow_eq, Nat.pow_succ]
      ring

theorem exists_unitsOfRank_ones {m : Nat} (h : m ≤ 2 * blockSize) :
    ∃ rank, unitsOfRank rank = m * unitsInOne := by
  obtain ⟨shift, hone⟩ := unitsInOne_eq_pow
  rw [hone]
  exact exists_unitsOfRank h shift

theorem exists_unitsOfRank_halves {m : Nat} (h : m ≤ 2 * blockSize) :
    ∃ rank, unitsOfRank rank = m * unitsInHalf := by
  obtain ⟨shift, hhalf⟩ := unitsInHalf_eq_pow
  rw [hhalf]
  exact exists_unitsOfRank h shift

/-- What is a magnitude itself is not rounded. -/
theorem IsNearest.unitsOfRank_eq {units rank : Nat} (h : IsNearest (units / unitsInOne) rank)
    (hunits : ∃ exact, unitsOfRank exact = units) : unitsOfRank rank = units := by
  obtain ⟨exact, rfl⟩ := hunits
  rw [h.unique (isNearest_magnitude_self exact)]

/-- A number of 64 bits is below the bound of the finite doubles. -/
theorem natCast_lt_overflowBound {m : Nat} (h : m ≤ 2 ^ 64) : (m : ℚ) < overflowBound := by
  have hbound : 2 ^ 64 + 2 ^ 970 < 2 ^ 1024 := by decide +kernel
  have hle : (m : ℚ) ≤ 2 ^ 64 := by exact_mod_cast h
  have hlt : (2 ^ 64 + 2 ^ 970 : ℚ) < 2 ^ 1024 := by exact_mod_cast hbound
  rw [overflowBound]
  exact hle.trans_lt (lt_sub_iff_add_lt.2 hlt)

/-- A number of units below the bound is rounded to the nearest magnitude. -/
theorem isNearest_ofRank {units : Nat} (negative : Bool)
    (h : (units : ℚ) / unitsInOne < overflowBound) :
    IsNearest (units / unitsInOne) (ofRank negative (nearestRank units 1)).rank := by
  have hnearest := isNearest_nearestRank units Nat.one_pos
  rw [Nat.cast_one, div_one] at hnearest
  have hrank := hnearest.rank_lt_iff.2 h
  have hmin : (ofRank negative (nearestRank units 1)).rank = nearestRank units 1 :=
    Nat.min_eq_left (by omega)
  rwa [hmin]

/-- An integer below the bound is converted to the nearest double. -/
theorem isNearest_ofInt {n : Int} (h : (n.natAbs : ℚ) < overflowBound) :
    IsNearest n.natAbs (ofInt n).rank := by
  have hunits : ((n.natAbs * unitsInOne : Nat) : ℚ) / unitsInOne = n.natAbs := by
    rw [Nat.cast_mul, mul_div_cancel_right₀ _ unitsInOne_pos.ne']
  rw [← hunits] at h ⊢
  exact isNearest_ofRank _ h

/-! ## Integers -/

/-- A double that is an integer. -/
def IsInteger (x : Double) (n : Int) : Prop :=
  x.signedUnits = n * unitsInOne

variable {x : Double} {n : Int}

/-- The sign of a double goes to the number of its units. -/
theorem signedUnits_eq {m scale : Nat} (h : x.units = m * scale) :
    x.signedUnits = (if x.negative then -(m : Int) else m) * scale := by
  rw [signedUnits, h]
  split
  · rw [Int.neg_mul, Int.natCast_mul]
  · rw [Int.natCast_mul]

theorem signed_natAbs (k : Int) :
    (if decide (k < 0) = true then -(k.natAbs : Int) else k.natAbs) = k := by
  simp only [decide_eq_true_eq]
  split
  · omega
  · omega

/-- A whole number of ones with a sign is an integer. -/
theorem isInteger_of_units {m : Nat} (h : x.units = m * unitsInOne) :
    x.IsInteger (if x.negative then -(m : Int) else m) :=
  signedUnits_eq h

theorem unitsInOne_ne_zero : unitsInOne ≠ 0 := by
  exact_mod_cast unitsInOne_pos.ne'

theorem IsInteger.units_eq (h : x.IsInteger n) : x.units = n.natAbs * unitsInOne := by
  have habs : x.signedUnits.natAbs = x.units := by
    rw [signedUnits]
    split
    · rw [Int.natAbs_neg, Int.natAbs_natCast]
    · rw [Int.natAbs_natCast]
  rw [← habs, h, Int.natAbs_mul, Int.natAbs_natCast]

theorem IsInteger.floor (h : x.IsInteger n) : x.floor = n := by
  rw [Double.floor, h, Int.mul_fdiv_cancel _ (by exact_mod_cast unitsInOne_ne_zero)]

theorem IsInteger.ceil (h : x.IsInteger n) : x.ceil = n := by
  rw [Double.ceil, h, ← Int.neg_mul, Int.mul_fdiv_cancel _ (by exact_mod_cast unitsInOne_ne_zero),
    Int.neg_neg]

theorem IsInteger.toInt? (h : x.IsInteger n) : x.toInt? = some n := by
  rw [Double.toInt?, h.units_eq, Nat.mul_mod_left, if_pos rfl, h.floor]

theorem IsInteger.abs (h : x.IsInteger n) : x.abs.IsInteger n.natAbs :=
  isInteger_of_units (x := x.abs) h.units_eq

/-- A nearest magnitude of a number of at most 53 bits is that number. -/
theorem units_of_isNearest {m : Nat} (h : m ≤ 2 * blockSize) (hx : IsNearest m x.rank) :
    x.units = m * unitsInOne := by
  have hunits : ((m * unitsInOne : Nat) : ℚ) / unitsInOne = m := by
    rw [Nat.cast_mul, mul_div_cancel_right₀ _ unitsInOne_pos.ne']
  rw [← hunits] at hx
  exact hx.unitsOfRank_eq (exists_unitsOfRank_ones h)

/-- An integer of at most 53 bits is a double. -/
theorem isInteger_ofInt (h : n.natAbs ≤ 2 * blockSize) : (ofInt n).IsInteger n := by
  have hbound : (n.natAbs : ℚ) < overflowBound := natCast_lt_overflowBound (h.trans (by decide))
  have hinteger := isInteger_of_units (units_of_isNearest h (isNearest_ofInt hbound))
  have hnegative : (ofInt n).negative = decide (n < 0) := rfl
  rw [hnegative, signed_natAbs] at hinteger
  exact hinteger

/-! ## Halves -/

/-- The integers of just 53 bits are neighbours: their ranks follow one another. -/
theorem exists_shift_ones :
    ∃ shift, ∀ m, blockSize ≤ m → m ≤ 2 * blockSize → magnitude (shift * blockSize + m) = m := by
  obtain ⟨shift, hone⟩ := unitsInOne_eq_pow
  refine ⟨shift, fun m hlow hhigh => ?_⟩
  have hunits : unitsOfRank (shift * blockSize + m) = m * unitsInOne := by
    rw [hone]
    exact unitsOfRank_shift (.inr hlow) hhigh
  rw [magnitude, hunits, Nat.cast_mul, mul_div_cancel_right₀ _ unitsInOne_pos.ne']

/-- Half way between two neighbouring integers, the even one is nearest where there are no doubles
between them. -/
theorem magnitude_of_isNearest_half {m rank : Nat} (hlow : blockSize ≤ m)
    (hhigh : m < 2 * blockSize) (h : IsNearest (m + 1 / 2) rank) :
    magnitude rank = (m + m % 2 : Nat) := by
  obtain ⟨shift, hshift⟩ := exists_shift_ones
  have hthis := hshift m hlow hhigh.le
  have hnext := hshift (m + 1) (hlow.trans (Nat.le_succ m)) hhigh
  rw [← Nat.add_assoc, Nat.cast_add_one] at hnext
  have hmidpoint : midpoint (shift * blockSize + m) = m + 1 / 2 := by
    rw [midpoint, hthis, hnext]
    ring
  have hparity : (shift * blockSize + m) % 2 = m % 2 := by
    rw [Nat.add_mod, Nat.mul_mod, show blockSize % 2 = 0 from rfl, Nat.mul_zero, Nat.zero_mod,
      Nat.zero_add, Nat.mod_mod]
  have hup : m % 2 = 1 ↔ ¬ IsBelow (m + 1 / 2) (shift * blockSize + m) := by
    rw [IsBelow, hmidpoint, hparity]
    simp
  have hnearest : IsNearest (m + 1 / 2) (shift * blockSize + m + if m % 2 = 1 then 1 else 0) := by
    refine isNearest_of_between ?_ ?_ hup
    · rw [hthis]
      linarith
    · rw [hnext]
      linarith
  rw [h.unique hnearest]
  rcases Nat.mod_two_eq_zero_or_one m with heven | hodd
  · simp [heven, hthis]
  · simp [hodd, hnext]

/-- One half and an integer make an odd number of halves. -/
theorem IsInteger.addHalf_eq (h : x.IsInteger n) :
    x.addHalf = ofUnits ((2 * n + 1) * unitsInHalf) := by
  have hsum : x.signedUnits + unitsInHalf = (2 * n + 1) * unitsInHalf := by
    rw [h, unitsInOne_eq_two_mul, Int.natCast_mul]
    ring
  -- said of every number of units, because the one in question is too large to be computed
  have hunits (half : Nat) : ofUnits (x.signedUnits + half) = ofUnits (x.signedUnits + half) := rfl
  rw [← hsum]
  unfold addHalf unitsInHalf
  apply hunits

theorem half_eq (k : Nat) : ((k * unitsInHalf : Nat) : ℚ) / unitsInOne = k / 2 := by
  have hhalf : (unitsInHalf : ℚ) ≠ 0 := by exact_mod_cast unitsInHalf_pos.ne'
  rw [unitsInOne_eq_two_mul, Nat.cast_mul, Nat.cast_mul, mul_div_mul_right _ _ hhalf]
  norm_num

/-- A number of halves is rounded to a nearest magnitude. -/
theorem isNearest_ofUnits_halves {k : Int} (hk : k.natAbs ≤ 2 ^ 64) :
    IsNearest (k.natAbs / 2) (ofUnits (k * unitsInHalf)).rank := by
  have hunits : (k * unitsInHalf).natAbs = k.natAbs * unitsInHalf := by
    rw [Int.natAbs_mul, Int.natAbs_natCast]
  have hbound : ((k.natAbs * unitsInHalf : Nat) : ℚ) / unitsInOne < overflowBound := by
    rw [half_eq]
    have hlt := natCast_lt_overflowBound hk
    have hnonneg : (0 : ℚ) ≤ k.natAbs := Nat.cast_nonneg _
    linarith
  have hnearest := isNearest_ofRank (k * unitsInHalf < 0) hbound
  rw [half_eq, ← hunits] at hnearest
  exact hnearest

theorem negative_ofUnits_halves (k : Int) :
    (ofUnits (k * unitsInHalf)).negative = decide (k < 0) := by
  have hpos : (0 : Int) < unitsInHalf := by exact_mod_cast unitsInHalf_pos
  have hsign : k * unitsInHalf < 0 ↔ k < 0 :=
    ⟨fun hneg => neg_of_mul_neg_left hneg hpos.le, fun hneg => mul_neg_of_neg_of_pos hneg hpos⟩
  exact decide_eq_decide.2 hsign

/-- A number of halves of at most 53 bits is not rounded. -/
theorem signedUnits_ofUnits_halves {k : Int} (hk : k.natAbs ≤ 2 * blockSize) :
    (ofUnits (k * unitsInHalf)).signedUnits = k * unitsInHalf := by
  have hnearest := isNearest_ofUnits_halves (k := k) (hk.trans (by decide))
  rw [← half_eq] at hnearest
  have hunits : (ofUnits (k * unitsInHalf)).units = k.natAbs * unitsInHalf :=
    hnearest.unitsOfRank_eq (exists_unitsOfRank_halves hk)
  rw [signedUnits_eq hunits, negative_ofUnits_halves, signed_natAbs]

/-- With one bit more, an odd number of halves is rounded to the even integer beside it. -/
theorem isInteger_ofUnits_halves (hlow : 2 * blockSize ≤ (2 * n + 1).natAbs)
    (hn : n.natAbs < 2 * blockSize) :
    (ofUnits ((2 * n + 1) * unitsInHalf)).IsInteger (n + n % 2) := by
  have hnearest := isNearest_ofUnits_halves (k := 2 * n + 1) (by simp only [blockSize] at hn; omega)
  have hnegative := negative_ofUnits_halves (2 * n + 1)
  generalize ofUnits ((2 * n + 1) * unitsInHalf) = y at hnearest hnegative
  obtain ⟨m, hm⟩ : ∃ m, (2 * n + 1).natAbs = 2 * m + 1 := ⟨(2 * n + 1).natAbs / 2, by omega⟩
  have hbits : blockSize ≤ m ∧ m < 2 * blockSize := by
    simp only [blockSize] at hlow hn ⊢
    omega
  have hhalf : (((2 * n + 1).natAbs : ℚ) / 2) = m + 1 / 2 := by
    rw [hm]
    push_cast
    ring
  rw [hhalf] at hnearest
  have hmagnitude := magnitude_of_isNearest_half hbits.1 hbits.2 hnearest
  have hunits : y.units = (m + m % 2) * unitsInOne := by
    rw [magnitude, div_eq_iff unitsInOne_pos.ne'] at hmagnitude
    exact_mod_cast hmagnitude
  -- above zero the number below the sum is the integer itself, and below zero the one behind it
  have hvalue : (if y.negative then -((m + m % 2 : Nat) : Int) else (m + m % 2 : Nat)) =
      n + n % 2 := by
    rw [hnegative]
    simp only [decide_eq_true_eq]
    split
    · omega
    · omega
  have hinteger := isInteger_of_units hunits
  rw [hvalue] at hinteger
  exact hinteger

/-- One half is added exactly to an integer of at most 52 bits. A larger one, of at most 53 bits,
gives way to the even one behind it if it is odd. -/
theorem IsInteger.floor_addHalf (h : x.IsInteger n) (hn : n.natAbs < 2 * blockSize) :
    x.addHalf.floor = if blockSize < n.natAbs then n + n % 2 else n := by
  rw [h.addHalf_eq]
  rcases Nat.lt_or_ge (2 * n + 1).natAbs (2 * blockSize) with hexact | hrounded
  · have hsmall : ¬ blockSize < n.natAbs := by
      simp only [blockSize] at hexact ⊢
      omega
    have hhalf : (0 : Int) < unitsInHalf := by exact_mod_cast unitsInHalf_pos
    rw [if_neg hsmall, Double.floor, signedUnits_ofUnits_halves hexact.le, unitsInOne_eq_two_mul,
      Int.natCast_mul, Int.fdiv_eq_ediv_of_nonneg _ (by omega),
      Int.mul_ediv_mul_of_pos_left _ _ hhalf]
    omega
  · rw [(isInteger_ofUnits_halves hrounded hn).floor]
    split
    · rfl
    · -- the smallest integer of 53 bits is even
      rename_i hsmall
      simp only [blockSize] at hrounded hsmall
      omega

end Stencil.Double
