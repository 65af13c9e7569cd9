import Mathlib.Data.Rat.Cast.Order
import Mathlib.Tactic.FieldSimp
import Mathlib.Tactic.Linarith
import Mathlib.Tactic.Positivity
import Mathlib.Tactic.Ring
import Stencil.Double.Basic

/-!
# The nearest double

The magnitudes of doubles grow with their ranks (`magnitude_strictMono`), so the one nearest to a
number is known from the midpoints between neighbours: its rank is at most `r` if and only if the
number does not lie above the midpoint behind `r` (`isNearest_iff`). There is therefore one nearest
rank, and the rank that is computed from a quotient is that one (`isNearest_nearestRank`). It is the
rank of a finite double as long as the number is below `2 ^ 1024 - 2 ^ 970`, half a step above the
largest one (`IsNearest.rank_lt_iff`).
-/

namespace Stencil.Double

/-- The magnitude with the given rank. -/
def magnitude (rank : Nat) : ℚ :=
  unitsOfRank rank / unitsInOne

/-- The rank of the magnitude nearest to a number: no other one is nearer, and of two that are
equally near the one with the even rank counts. -/
structure IsNearest (q : ℚ) (rank : Nat) : Prop where
  nearest : ∀ other, |q - magnitude rank| ≤ |q - magnitude other|
  even_of_tie : ∀ other ≠ rank, |q - magnitude rank| = |q - magnitude other| → rank % 2 = 0

/-! ## Magnitudes in order -/

/-- A rank is a shift and a significand, whose last step may be the first one of the next shift. -/
theorem unitsOfRank_shift {shift significand : Nat} (h : shift = 0 ∨ blockSize ≤ significand)
    (hle : significand ≤ 2 * blockSize) :
    unitsOfRank (shift * blockSize + significand) = significand * 2 ^ shift := by
  have hpow (n : Nat) : Nat.pow 2 n = 2 ^ n := rfl
  unfold unitsOfRank
  simp only [blockSize, hpow] at *
  split
  · have hshift : shift = 0 := by omega
    rw [hshift]
    omega
  · rename_i hlarge
    rcases Nat.lt_or_eq_of_le hle with hlt | rfl
    · obtain ⟨k, rfl⟩ : ∃ k, significand = 4503599627370496 + k :=
        Nat.exists_eq_add_of_le (by omega)
      have hmod : (shift * 4503599627370496 + (4503599627370496 + k)) % 4503599627370496 = k := by
        omega
      have hdiv : (shift * 4503599627370496 + (4503599627370496 + k)) / 4503599627370496 - 1 =
          shift := by omega
      rw [hmod, hdiv]
    · -- the significand is that of the next shift, doubled
      have hmod : (shift * 4503599627370496 + 2 * 4503599627370496) % 4503599627370496 = 0 := by
        omega
      have hdiv : (shift * 4503599627370496 + 2 * 4503599627370496) / 4503599627370496 - 1 =
          shift + 1 := by omega
      rw [hmod, hdiv, Nat.pow_succ]
      omega

/-- Every rank has a shift and a significand. -/
theorem exists_shift (rank : Nat) :
    ∃ shift significand, rank = shift * blockSize + significand ∧
      (shift = 0 ∨ blockSize ≤ significand) ∧ significand < 2 * blockSize := by
  by_cases h : rank < 2 * blockSize
  · exact ⟨0, rank, by omega, Or.inl rfl, h⟩
  · refine ⟨rank / blockSize - 1, blockSize + rank % blockSize, ?_, Or.inr ?_, ?_⟩
    all_goals
      simp only [blockSize] at *
      omega

theorem unitsInOne_pos : (0 : ℚ) < unitsInOne := by
  -- said of every power, because the one in question is too large to be computed
  have hpow (n : Nat) : 0 < Nat.pow 2 n := Nat.pow_pos (by decide)
  have hpos : 0 < unitsInOne := by
    unfold unitsInOne
    apply hpow
  exact_mod_cast hpos

theorem magnitude_shift {shift significand : Nat} (h : shift = 0 ∨ blockSize ≤ significand)
    (hle : significand ≤ 2 * blockSize) :
    magnitude (shift * blockSize + significand) = significand * 2 ^ shift / unitsInOne := by
  rw [magnitude, unitsOfRank_shift h hle]
  push_cast
  rfl

theorem magnitude_strictMono : StrictMono magnitude := by
  refine strictMono_nat_of_lt_succ fun rank => ?_
  obtain ⟨shift, significand, rfl, hshift, hlt⟩ := exists_shift rank
  have hnext : shift = 0 ∨ blockSize ≤ significand + 1 := hshift.imp_right Nat.le_succ_of_le
  rw [Nat.add_assoc, magnitude_shift hshift hlt.le, magnitude_shift hnext hlt]
  have hpos := unitsInOne_pos
  have hstep : (significand : ℚ) * 2 ^ shift < (significand + 1 : Nat) * 2 ^ shift := by
    push_cast
    have hpow : (0 : ℚ) < 2 ^ shift := by positivity
    linarith
  exact div_lt_div_of_pos_right hstep hpos

/-! ## Midpoints -/

/-- Half way between a magnitude and the next one. -/
def midpoint (rank : Nat) : ℚ :=
  (magnitude rank + magnitude (rank + 1)) / 2

/-- A number that is not above a midpoint. At the midpoint itself the even neighbour counts. -/
def IsBelow (q : ℚ) (rank : Nat) : Prop :=
  q < midpoint rank ∨ q = midpoint rank ∧ rank % 2 = 0

theorem midpoint_shift {shift significand : Nat} (h : shift = 0 ∨ blockSize ≤ significand)
    (hlt : significand < 2 * blockSize) :
    midpoint (shift * blockSize + significand) =
      (significand * 2 ^ shift + 2 ^ shift / 2) / unitsInOne := by
  have hnext : shift = 0 ∨ blockSize ≤ significand + 1 := h.imp_right Nat.le_succ_of_le
  have hhalf : (significand * 2 ^ shift + (significand + 1 : Nat) * 2 ^ shift : ℚ) / 2 =
      significand * 2 ^ shift + 2 ^ shift / 2 := by
    push_cast
    ring
  rw [midpoint, Nat.add_assoc, magnitude_shift h hlt.le, magnitude_shift hnext hlt, ← add_div,
    div_right_comm, hhalf]

section Distances

variable {q low high : ℚ}

theorem abs_sub_low_le_iff (h : low < high) : |q - low| ≤ |q - high| ↔ q ≤ (low + high) / 2 := by
  rw [← sq_le_sq]
  constructor
  · intro hle
    nlinarith
  · intro hle
    nlinarith

theorem abs_sub_high_le_iff (h : low < high) : |q - high| ≤ |q - low| ↔ (low + high) / 2 ≤ q := by
  rw [← sq_le_sq]
  constructor
  · intro hle
    nlinarith
  · intro hle
    nlinarith

end Distances

variable {q : ℚ} {rank : Nat}

/-- A number is below all midpoints from that of the nearest rank on. -/
theorem IsNearest.isBelow (h : IsNearest q rank) {r : Nat} (hle : rank ≤ r) : IsBelow q r := by
  have hlt : magnitude rank < magnitude (r + 1) := magnitude_strictMono (Nat.lt_succ_of_le hle)
  have hq := (abs_sub_low_le_iff hlt).1 (h.nearest (r + 1))
  rcases Nat.lt_or_eq_of_le hle with hless | rfl
  · have hrank := magnitude_strictMono hless
    refine Or.inl ?_
    rw [midpoint]
    linarith
  · rcases lt_or_eq_of_le hq with hbelow | htie
    · exact Or.inl hbelow
    · have hhigh := (abs_sub_high_le_iff hlt).2 htie.ge
      have htied := le_antisymm (h.nearest (rank + 1)) hhigh
      exact Or.inr ⟨htie, h.even_of_tie (rank + 1) (by omega) htied⟩

/-- A number is below no midpoint in front of the nearest rank. -/
theorem IsNearest.not_isBelow (h : IsNearest q rank) {r : Nat} (hlt : r < rank) :
    ¬ IsBelow q r := by
  have hmagnitude := magnitude_strictMono hlt
  have hq := (abs_sub_high_le_iff hmagnitude).1 (h.nearest r)
  have hnext : magnitude (r + 1) ≤ magnitude rank := magnitude_strictMono.monotone hlt
  rintro (hbelow | ⟨htie, heven⟩)
  · rw [midpoint] at hbelow
    linarith
  · rw [midpoint] at htie
    have hrank : r + 1 = rank := magnitude_strictMono.injective (by linarith)
    have hlow : |q - magnitude r| ≤ |q - magnitude rank| :=
      (abs_sub_low_le_iff hmagnitude).2 (by rw [htie, hrank])
    have hrankEven := h.even_of_tie r hlt.ne (le_antisymm (h.nearest r) hlow)
    omega

/-- Below its midpoint a rank is as near as all greater ones, and nearer if it is odd. -/
theorem IsBelow.nearest (h : IsBelow q rank) {other : Nat} (hlt : rank < other) :
    |q - magnitude rank| ≤ |q - magnitude other| ∧
      (|q - magnitude rank| = |q - magnitude other| → rank % 2 = 0) := by
  have hmagnitude := magnitude_strictMono hlt
  have hnext : magnitude (rank + 1) ≤ magnitude other := magnitude_strictMono.monotone hlt
  have hmidpoint : midpoint rank ≤ (magnitude rank + magnitude other) / 2 := by
    rw [midpoint]
    linarith
  constructor
  · refine (abs_sub_low_le_iff hmagnitude).2 ?_
    rcases h with hq | ⟨hq, -⟩
    · linarith
    · linarith
  · intro htie
    have hq := (abs_sub_high_le_iff hmagnitude).1 htie.ge
    rcases h with hless | ⟨-, heven⟩
    · linarith
    · exact heven

/-- Above a midpoint the rank behind it is as near as all smaller ones, and nearer if it is odd. -/
theorem nearest_of_not_isBelow (h : ¬ IsBelow q rank) {other : Nat} (hlt : other < rank + 1) :
    |q - magnitude (rank + 1)| ≤ |q - magnitude other| ∧
      (|q - magnitude (rank + 1)| = |q - magnitude other| → (rank + 1) % 2 = 0) := by
  have hmagnitude := magnitude_strictMono hlt
  have hother : magnitude other ≤ magnitude rank :=
    magnitude_strictMono.monotone (Nat.le_of_lt_succ hlt)
  have hmidpoint : (magnitude other + magnitude (rank + 1)) / 2 ≤ midpoint rank := by
    rw [midpoint]
    linarith
  rw [IsBelow, not_or, not_lt, not_and] at h
  constructor
  · exact (abs_sub_high_le_iff hmagnitude).2 (hmidpoint.trans h.1)
  · intro htie
    have hq := (abs_sub_low_le_iff hmagnitude).1 htie.ge
    have hodd := h.2 (le_antisymm (hq.trans hmidpoint) h.1)
    omega

/-- The nearest rank is the number of midpoints that a number is not below. -/
theorem isNearest_iff : IsNearest q rank ↔ ∀ r, rank ≤ r ↔ IsBelow q r := by
  constructor
  · intro h r
    refine ⟨h.isBelow, fun hbelow => ?_⟩
    by_contra hlt
    exact h.not_isBelow (Nat.lt_of_not_le hlt) hbelow
  · intro h
    have hnear {other : Nat} (hne : other ≠ rank) :
        |q - magnitude rank| ≤ |q - magnitude other| ∧
          (|q - magnitude rank| = |q - magnitude other| → rank % 2 = 0) := by
      rcases Nat.lt_or_gt_of_ne hne with hlt | hlt
      · obtain ⟨r, rfl⟩ : ∃ r, rank = r + 1 := Nat.exists_eq_add_one.2 (by omega)
        refine nearest_of_not_isBelow ?_ hlt
        intro hbelow
        exact Nat.not_succ_le_self r ((h r).2 hbelow)
      · exact ((h rank).1 (Nat.le_refl rank)).nearest hlt
    constructor
    · intro other
      by_cases hne : other = rank
      · rw [hne]
      · exact (hnear hne).1
    · intro other hne
      exact (hnear hne).2

/-- There is one nearest rank. -/
theorem IsNearest.unique {other : Nat} (h : IsNearest q rank) (hother : IsNearest q other) :
    rank = other := by
  have hle (r : Nat) : rank ≤ r ↔ other ≤ r :=
    (isNearest_iff.1 h r).trans (isNearest_iff.1 hother r).symm
  exact Nat.le_antisymm ((hle other).2 (Nat.le_refl other)) ((hle rank).1 (Nat.le_refl rank))

/-- A magnitude is nearest to itself. -/
theorem isNearest_magnitude_self (rank : Nat) : IsNearest (magnitude rank) rank := by
  constructor
  · intro other
    rw [sub_self, abs_zero]
    exact abs_nonneg _
  · intro other hne htie
    rw [sub_self, abs_zero, eq_comm, abs_eq_zero, sub_eq_zero] at htie
    exact absurd (magnitude_strictMono.injective htie).symm hne

/-! ## Quotients -/

/-- Between two neighbours the midpoint decides. -/
theorem isNearest_of_between {up : Prop} [Decidable up] (hlow : magnitude rank ≤ q)
    (hhigh : q < magnitude (rank + 1)) (hup : up ↔ ¬ IsBelow q rank) :
    IsNearest q (rank + if up then 1 else 0) := by
  refine isNearest_iff.2 fun r => ?_
  rcases Nat.lt_trichotomy r rank with hlt | rfl | hlt
  · have hnext : magnitude (r + 1) ≤ magnitude rank := magnitude_strictMono.monotone hlt
    have hstep := magnitude_strictMono (Nat.lt_succ_self r)
    have habove : ¬ IsBelow q r := by
      rw [IsBelow, midpoint, not_or, not_lt, not_and]
      exact ⟨by linarith, fun htie => by linarith⟩
    exact ⟨fun hle => by omega, fun hbelow => absurd hbelow habove⟩
  · by_cases h : up
    · simp [h, hup.1 h]
    · simp [h, not_not.1 (mt hup.2 h)]
  · have hnext : magnitude (rank + 1) ≤ magnitude r := magnitude_strictMono.monotone hlt
    have hstep := magnitude_strictMono (Nat.lt_succ_self r)
    have hbelow : IsBelow q r := by
      refine Or.inl ?_
      rw [midpoint]
      linarith
    refine ⟨fun _ => hbelow, fun _ => ?_⟩
    split
    · omega
    · omega

/-- Cut off behind its 53rd bit, a number fills a significand, unless it is shorter. -/
theorem significand_bounds (q : Nat) :
    let shift := q.log2 + 1 - 53
    (shift = 0 ∨ blockSize ≤ q / 2 ^ shift) ∧ q / 2 ^ shift < 2 * blockSize := by
  intro shift
  have hpow : 0 < 2 ^ shift := Nat.pow_pos (by decide)
  have hbits : 2 * blockSize = 2 ^ 53 := rfl
  have hsmall : blockSize = 2 ^ 52 := rfl
  constructor
  · by_cases hshift : shift = 0
    · exact Or.inl hshift
    · have hlog : q.log2 = 52 + shift := by omega
      have hne : q ≠ 0 := by
        rintro rfl
        rw [Nat.log2_zero] at hlog
        omega
      refine Or.inr ((Nat.le_div_iff_mul_le hpow).2 ?_)
      rw [hsmall, ← Nat.pow_add, ← hlog]
      exact Nat.log2_self_le hne
  · have hle : 2 ^ (q.log2 + 1) ≤ 2 ^ (53 + shift) := Nat.pow_le_pow_right (by decide) (by omega)
    rw [Nat.div_lt_iff_lt_mul hpow, hbits, ← Nat.pow_add]
    exact Nat.lt_of_lt_of_le Nat.lt_log2_self hle

/-- What a rank is computed from: the significand of a quotient, cut off behind its 53rd bit, and
the excess over it. -/
theorem nearestRank_spec (n : Nat) {d : Nat} (hd : 0 < d) :
    ∃ shift significand excess, n = significand * (2 ^ shift * d) + excess ∧
      excess < 2 ^ shift * d ∧ (shift = 0 ∨ blockSize ≤ significand) ∧
      significand < 2 * blockSize ∧
      nearestRank n d = shift * blockSize + significand +
        if 2 ^ shift * d < 2 * excess ∨ 2 ^ shift * d = 2 * excess ∧ significand % 2 = 1 then 1
        else 0 := by
  obtain ⟨hfull, hlt⟩ := significand_bounds (n / d)
  generalize hshift : (n / d).log2 + 1 - 53 = shift at hfull hlt
  rw [Nat.div_div_eq_div_mul, Nat.mul_comm d] at hfull hlt
  have hstep : 0 < 2 ^ shift * d := Nat.mul_pos (Nat.pow_pos (by decide)) hd
  refine ⟨shift, n / (2 ^ shift * d), n % (2 ^ shift * d), ?_, Nat.mod_lt n hstep, hfull, hlt, ?_⟩
  · exact (Nat.div_add_mod' n _).symm
  · simp [nearestRank, hshift]

/-- The rank computed from a quotient of units is the nearest one. -/
theorem isNearest_nearestRank (n : Nat) {d : Nat} (hd : 0 < d) :
    IsNearest (n / d / unitsInOne) (nearestRank n d) := by
  obtain ⟨shift, significand, excess, rfl, hexcess, hshift, hlt, hrank⟩ := nearestRank_spec n hd
  have hnext : shift = 0 ∨ blockSize ≤ significand + 1 := hshift.imp_right Nat.le_succ_of_le
  have hlow := magnitude_shift hshift hlt.le
  have hhigh := magnitude_shift hnext hlt
  rw [← Nat.add_assoc] at hhigh
  have hone := unitsInOne_pos
  have hdpos : (0 : ℚ) < d := by exact_mod_cast hd
  have hquotient : (((significand * (2 ^ shift * d) + excess : Nat) : ℚ) / d) =
      significand * 2 ^ shift + excess / d := by
    push_cast
    field_simp
  rw [hrank, hquotient]
  refine isNearest_of_between ?_ ?_ ?_
  · rw [hlow]
    refine div_le_div_of_nonneg_right ?_ hone.le
    exact le_add_of_nonneg_right (div_nonneg (Nat.cast_nonneg _) hdpos.le)
  · rw [hhigh]
    refine div_lt_div_of_pos_right ?_ hone
    have hsmall : (excess : ℚ) / d < 2 ^ shift := by
      rw [div_lt_iff₀ hdpos]
      exact_mod_cast hexcess
    push_cast
    linarith
  · -- the excess is compared with half a step
    have hless : (excess : ℚ) / d < 2 ^ shift / 2 ↔ 2 * excess < 2 ^ shift * d := by
      rw [div_lt_div_iff₀ hdpos two_pos, mul_comm (excess : ℚ)]
      exact_mod_cast Iff.rfl
    have htie : (excess : ℚ) / d = 2 ^ shift / 2 ↔ 2 * excess = 2 ^ shift * d := by
      rw [div_eq_div_iff hdpos.ne' two_ne_zero, mul_comm (excess : ℚ)]
      exact_mod_cast Iff.rfl
    have hparity : (shift * blockSize + significand) % 2 = significand % 2 := by
      simp only [blockSize]
      omega
    rw [IsBelow, midpoint_shift hshift hlt, div_lt_div_iff_of_pos_right hone,
      div_left_inj' hone.ne', add_lt_add_iff_left, add_right_inj, hless, htie, hparity]
    generalize 2 ^ shift * d = step
    omega

/-! ## Finite magnitudes -/

/-- The smallest number that is too large for a finite double: half a step above the largest
magnitude. -/
def overflowBound : ℚ :=
  2 ^ 1024 - 2 ^ 970

theorem unitsInOne_eq : (unitsInOne : ℚ) = 2 ^ 1074 := by
  have hpow (n : Nat) : ((Nat.pow 2 n : Nat) : ℚ) = 2 ^ n := Nat.cast_pow 2 n
  unfold unitsInOne
  apply hpow

theorem midpoint_largest : midpoint (2047 * blockSize - 1) = overflowBound := by
  have hrank : 2047 * blockSize - 1 = 2045 * blockSize + (2 * blockSize - 1) := by decide
  have hsignificand : ((2 * blockSize - 1 : Nat) : ℚ) = 2 ^ 53 - 1 := by norm_num
  -- said of all powers, because those in question are too large to be computed
  have hscale (m n : Nat) : ((2 ^ 53 - 1) * 2 ^ (m + n + 1) + 2 ^ (m + n + 1) / 2) / 2 ^ n =
      (2 ^ (54 + m) - 2 ^ m : ℚ) := by
    have hpow : (2 : ℚ) ^ n ≠ 0 := pow_ne_zero n two_ne_zero
    field_simp
    ring
  rw [hrank, midpoint_shift (Or.inr (by decide)) (by decide), unitsInOne_eq, overflowBound,
    hsignificand]
  exact hscale 970 1074

/-- The nearest rank is that of a finite double below the bound, and only there. -/
theorem IsNearest.rank_lt_iff (h : IsNearest q rank) :
    rank < 2047 * blockSize ↔ q < overflowBound := by
  have hodd : (2047 * blockSize - 1) % 2 ≠ 0 := by decide
  have hlargest := isNearest_iff.1 h (2047 * blockSize - 1)
  rw [IsBelow, midpoint_largest] at hlargest
  rw [Nat.lt_iff_le_pred (by decide)]
  simpa [hodd] using hlargest

end Stencil.Double
