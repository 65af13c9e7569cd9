import Stencil.Proofs.Double.Numerals
import Stencil.Proofs.Double.Spelling

/-!
# Reading back the texts of doubles

The text of a double is that of a decimal, laid out in one of three ways. Each of them spells a
numeral with a point or a power, and the numeral is worth what the decimal is
(`Decimal.spells_numeral`, `Decimal.magnitude_numeral`). The double is the one nearest to its
decimal, either because that was tried, or because the decimal has all digits of the double
(`isNearest_decimal`). So the text of a double is read as that double (`roundsTo_numeral`).
-/

namespace Stencil

namespace Numeral

/-! ## Zeros around digits -/

theorem valueOfDigits_zeros_append (count : Nat) (digits : List Char) :
    valueOfDigits (List.replicate count '0' ++ digits) = valueOfDigits digits := by
  induction count with
  | zero => rfl
  | succ count ih =>
    rw [List.replicate_succ, List.cons_append]
    exact ih

theorem valueOfDigits_append_zeros (digits : List Char) (count : Nat) :
    valueOfDigits (digits ++ List.replicate count '0') = 10 ^ count * valueOfDigits digits := by
  have hzeros : valueOfDigits (List.replicate count '0') = 0 := by
    have hnone := valueOfDigits_zeros_append count []
    rw [List.append_nil] at hnone
    exact hnone
  rw [valueOfDigits_append, List.length_replicate, hzeros, Nat.add_zero]

theorem AreDigits.append {front back : List Char} (hfront : AreDigits front)
    (hback : AreDigits back) : AreDigits (front ++ back) :=
  List.forall_mem_append.2 ⟨hfront, hback⟩

theorem areDigits_zeros (count : Nat) : AreDigits (List.replicate count '0') := by
  intro c hc
  rw [List.eq_of_mem_replicate hc]
  decide

theorem AreDigits.take {digits : List Char} (h : AreDigits digits) (count : Nat) :
    AreDigits (digits.take count) :=
  fun c hc => h c (List.mem_of_mem_take hc)

theorem AreDigits.drop {digits : List Char} (h : AreDigits digits) (count : Nat) :
    AreDigits (digits.drop count) :=
  fun c hc => h c (List.mem_of_mem_drop hc)

/-- An integer with its sign written out is spelled by the digits of its magnitude. -/
theorem spellsInteger_signed (k : Int) :
    SpellsInteger k ((if k < 0 then '-' else '+') :: Nat.toDigits 10 k.natAbs) := by
  have hdigits : AreDigits (Nat.toDigits 10 k.natAbs) := fun _ hc => isDigit_of_mem_toDigits hc
  split
  · rename_i hneg
    have hspells := SpellsInteger.mk .minus hdigits Nat.toDigits_ne_nil
    rw [valueOfDigits_toDigits, if_pos rfl] at hspells
    rwa [show -(k.natAbs : Int) = k by omega] at hspells
  · rename_i hneg
    have hspells := SpellsInteger.mk .plus hdigits Nat.toDigits_ne_nil
    rw [valueOfDigits_toDigits, if_neg Bool.false_ne_true] at hspells
    rwa [show (k.natAbs : Int) = k by omega] at hspells

/-- Digits on both sides of a point are a numeral without a power. -/
theorem spells_point {negative : Bool} {sign whole fraction : List Char}
    (hsign : IsSign negative sign) (hwhole : AreDigits whole) (hne : whole ≠ [])
    (hfraction : AreDigits fraction) :
    Spells { negative, whole, fraction := some fraction, power := none }
      (sign ++ (whole ++ '.' :: fraction)) := by
  have hspells := Spells.mk hsign hwhole (.point hfraction) (.inl hne) .none
  rwa [List.append_nil] at hspells

/-- Zeros behind the point are worth nothing. -/
theorem magnitude_point_zeros (negative : Bool) (whole : List Char) (zeros : Nat) :
    magnitude { negative, whole, fraction := some (List.replicate zeros '0'), power := none } =
      valueOfDigits whole := by
  have hten : (10 : ℚ) ≠ 0 := by norm_num
  simp only [magnitude_eq, coefficient, Numeral.exponent, Option.getD_none, Option.getD_some,
    valueOfDigits_append_zeros, List.length_replicate, zero_sub, zpow_neg, zpow_natCast]
  push_cast
  field_simp

end Numeral

namespace Double

open Numeral

/-! ## Decimals -/

namespace Decimal

/-- The number that a decimal stands for. -/
def magnitude (x : Decimal) : ℚ :=
  valueOfDigits x.digits * 10 ^ (x.exponent - x.digits.length + 1)

/-- The numeral that the text of a decimal spells. -/
def numeral (negative : Bool) (x : Decimal) : Numeral :=
  if isPlainExponent x.exponent then
    if 0 ≤ x.exponent then
      let width := x.exponent.toNat + 1
      let whole := x.digits.take width
      let fraction := x.digits.drop width
      { negative
        whole := whole ++ List.replicate (width - whole.length) '0'
        fraction := some (if fraction = [] then ['0'] else fraction)
        power := none }
    else
      { negative
        whole := ['0']
        fraction := some (List.replicate ((-x.exponent).toNat - 1) '0' ++ x.digits)
        power := none }
  else
    let fraction := x.digits.drop 1
    { negative
      whole := x.digits.take 1
      fraction := if fraction = [] then none else some fraction
      power := some x.exponent }

variable {x : Decimal} {negative : Bool}

@[simp] theorem negative_numeral : (x.numeral negative).negative = negative := by
  unfold numeral
  split
  · split
    · rfl
    · rfl
  · rfl

/-- Every layout has a point or a power, so it spells no integer. -/
theorem toInt?_numeral : (x.numeral negative).toInt? = none := by
  unfold numeral
  split
  · split
    · rfl
    · rfl
  · dsimp only
    split
    · rfl
    · rfl

/-- The text of a decimal behind a sign spells its numeral. -/
theorem spells_numeral {sign : List Char} (hsign : IsSign negative sign)
    (hdigits : AreDigits x.digits) (hne : x.digits ≠ []) :
    Spells (x.numeral negative) (sign ++ x.text) := by
  obtain ⟨c, rest, hcons⟩ := List.exists_cons_of_ne_nil hne
  unfold numeral text
  dsimp only
  split
  · split
    · -- the digits up to the ones, filled up with zeros, and at least one digit behind the point
      refine spells_point hsign ((hdigits.take _).append (areDigits_zeros _)) ?_ ?_
      · simp [hcons]
      · split
        · exact areDigits_zeros 1
        · exact hdigits.drop _
    · -- a zero in front of the point and more of them behind it
      exact spells_point hsign (areDigits_zeros 1) (List.cons_ne_nil _ _)
        ((areDigits_zeros _).append hdigits)
  · -- one digit in front of the point, no point without a fraction, and a power of ten
    have hpower := SpellsPower.mark (.inl rfl) (spellsInteger_signed x.exponent)
    have hwhole : x.digits.take 1 ≠ [] := by simp [hcons]
    rw [List.append_assoc]
    split
    · exact .mk hsign (hdigits.take 1) .none (.inl hwhole) hpower
    · exact .mk hsign (hdigits.take 1) (.point (hdigits.drop 1)) (.inl hwhole) hpower

/-- With more or fewer zeros at its ends, the digits of a decimal are worth the same. -/
theorem magnitude_of_coefficient {n : Numeral} (zeros : Nat)
    (hcoefficient : n.coefficient = 10 ^ zeros * valueOfDigits x.digits)
    (hexponent : n.exponent = x.exponent - x.digits.length + 1 - zeros) :
    n.magnitude = x.magnitude := by
  have hten : (10 : ℚ) ≠ 0 := by norm_num
  rw [magnitude_eq, magnitude, hcoefficient, hexponent, zpow_sub₀ hten, zpow_natCast]
  push_cast
  field_simp

/-- The numeral that a decimal is laid out as is worth what the decimal is. -/
theorem magnitude_numeral (hne : x.digits ≠ []) :
    (x.numeral negative).magnitude = x.magnitude := by
  have hlength : 0 < x.digits.length := List.length_pos_of_ne_nil hne
  unfold numeral
  dsimp only
  split
  · split
    · rename_i hexponent
      split
      · -- all digits stand in front of the point
        rename_i hdrop
        have hwidth := List.drop_eq_nil_iff.1 hdrop
        refine magnitude_of_coefficient (x.exponent.toNat + 1 - x.digits.length + 1) ?_ ?_
        · rw [coefficient, List.take_of_length_le hwidth, Option.getD_some, List.append_assoc,
            ← List.replicate_succ', valueOfDigits_append_zeros]
        · simp only [Numeral.exponent, Option.getD_none, Option.getD_some, List.length_singleton]
          omega
      · rename_i hdrop
        have hwidth : x.exponent.toNat + 1 < x.digits.length := by simpa using hdrop
        have hfull : (x.digits.take (x.exponent.toNat + 1)).length = x.exponent.toNat + 1 :=
          List.length_take_of_le hwidth.le
        refine magnitude_of_coefficient 0 ?_ ?_
        · simp [coefficient, hfull]
        · simp only [Numeral.exponent, Option.getD_none, Option.getD_some, List.length_drop]
          omega
    · rename_i hexponent
      refine magnitude_of_coefficient 0 ?_ ?_
      · rw [coefficient, Option.getD_some, ← List.append_assoc, ← List.replicate_one,
          List.replicate_append_replicate, valueOfDigits_zeros_append, pow_zero, one_mul]
      · simp only [Numeral.exponent, Option.getD_none, Option.getD_some, List.length_append,
          List.length_replicate]
        omega
  · -- without a fraction there are no digits behind the first one
    have hfraction : (if x.digits.drop 1 = [] then none else some (x.digits.drop 1)).getD [] =
        x.digits.drop 1 := by
      split
      · rename_i hdrop
        rw [hdrop, Option.getD_none]
      · rfl
    refine magnitude_of_coefficient 0 ?_ ?_
    · rw [coefficient, hfraction, List.take_append_drop, pow_zero, one_mul]
    · rw [Numeral.exponent, hfraction, Option.getD_some, List.length_drop]
      omega

/-- What is dropped from the digits of a coefficient are zeros at the end. -/
theorem exists_zeros_ofScaled (coefficient : Nat) (exponent : Int) :
    ∃ zeros, Nat.toDigits 10 coefficient =
      (ofScaled coefficient exponent).digits ++ List.replicate zeros '0' := by
  have hzeros : ∀ c ∈ (Nat.toDigits 10 coefficient).reverse.takeWhile (· == '0'), c = '0' :=
    fun c hc => beq_iff_eq.1 (List.all_eq_true.1 List.all_takeWhile c hc)
  refine ⟨((Nat.toDigits 10 coefficient).reverse.takeWhile (· == '0')).length, ?_⟩
  rw [← List.reverse_replicate, ← List.eq_replicate_of_mem hzeros, ofScaled,
    ← List.reverse_append, List.takeWhile_append_dropWhile, List.reverse_reverse]

/-- A scaled number keeps its value. -/
theorem magnitude_ofScaled (coefficient : Nat) (exponent : Int) :
    (ofScaled coefficient exponent).magnitude = coefficient * 10 ^ exponent := by
  obtain ⟨zeros, hzeros⟩ := exists_zeros_ofScaled coefficient exponent
  have hten : (10 : ℚ) ≠ 0 := by norm_num
  have hvalue :
      coefficient = 10 ^ zeros * valueOfDigits (ofScaled coefficient exponent).digits := by
    rw [← valueOfDigits_append_zeros, ← hzeros, valueOfDigits_toDigits]
  have hexponent : (ofScaled coefficient exponent).exponent -
      (ofScaled coefficient exponent).digits.length + 1 = exponent + zeros := by
    have hlength := congrArg List.length hzeros
    rw [List.length_append, List.length_replicate] at hlength
    rw [show (ofScaled coefficient exponent).exponent =
      exponent + (Nat.toDigits 10 coefficient).length - 1 from rfl, hlength]
    omega
  rw [magnitude, hexponent, zpow_add₀ hten, zpow_natCast]
  conv_rhs => rw [hvalue]
  push_cast
  ring

end Decimal

/-! ## The decimal of a double -/

/-- The decimal with all digits stands for the magnitude itself. -/
theorem magnitude_exactDecimal (rank : Nat) : (exactDecimal rank).magnitude = magnitude rank := by
  -- said of every power, because the one in question is too large to be computed
  have hscale (units n : Nat) : ((units * Nat.pow 5 n : Nat) : ℚ) * 10 ^ (-(n : Int)) =
      units / 2 ^ n := by
    have hpow : ((Nat.pow 5 n : Nat) : ℚ) = 5 ^ n := Nat.cast_pow 5 n
    have hten : (10 : ℚ) ^ n = 2 ^ n * 5 ^ n := by
      rw [← mul_pow]
      norm_num
    rw [zpow_neg, zpow_natCast, Nat.cast_mul, hpow, hten]
    field_simp
  rw [exactDecimal, Decimal.magnitude_ofScaled, magnitude, unitsInOne_eq]
  apply hscale

/-- The decimal that is written for a rank is nearest to that rank. -/
theorem isNearest_shortestDecimal (rank : Nat) :
    IsNearest (shortestDecimal rank).magnitude rank := by
  have hgetD {found : Option Decimal} (hfound : ∀ x, found = some x → IsNearest x.magnitude rank) :
      IsNearest (found.getD (exactDecimal rank)).magnitude rank := by
    cases found with
    | none =>
      rw [Option.getD_none, magnitude_exactDecimal]
      exact isNearest_magnitude_self rank
    | some x => exact hfound x rfl
  unfold shortestDecimal
  dsimp only
  refine hgetD fun x hx => ?_
  obtain ⟨n, -, hn⟩ := List.exists_of_findSome?_eq_some hx
  obtain ⟨coefficient, exponent, hread, rfl⟩ := exists_of_decimalOfLength? hn
  rw [Decimal.magnitude_ofScaled, ← hread]
  exact isNearest_decimalRank coefficient exponent

/-- The decimal that is written for a double. -/
def decimal (x : Double) : Decimal :=
  if x.rank = 0 then { digits := ['0'], exponent := 0 } else shortestDecimal x.rank

theorem text_eq (x : Double) :
    x.text = (if x.negative then ['-'] else []) ++ x.decimal.text := by
  unfold text decimal
  congr 1
  split
  · rfl
  · rfl

theorem isNearest_decimal (x : Double) : IsNearest x.decimal.magnitude x.rank := by
  unfold decimal
  split
  · rename_i hrank
    have hzero : Decimal.magnitude { digits := ['0'], exponent := 0 } = magnitude 0 := by
      have hdigits : valueOfDigits ['0'] = 0 := rfl
      have hunits : unitsOfRank 0 = 0 := unitsOfRank_of_lt (by decide)
      rw [Decimal.magnitude, magnitude, hdigits, hunits, Nat.cast_zero, zero_mul, zero_div]
    rw [hrank, hzero]
    exact isNearest_magnitude_self 0
  · exact isNearest_shortestDecimal x.rank

/-- The numeral that the text of a double spells. -/
def numeral (x : Double) : Numeral :=
  x.decimal.numeral x.negative

theorem areDigits_decimal (x : Double) : AreDigits x.decimal.digits ∧ x.decimal.digits ≠ [] := by
  unfold decimal
  split
  · exact ⟨areDigits_zeros 1, List.cons_ne_nil _ _⟩
  · rename_i hrank
    obtain ⟨hdigits, c, rest, hcons, -⟩ := isProper_shortestDecimal hrank
    exact ⟨hdigits, by rw [hcons]; exact List.cons_ne_nil _ _⟩

theorem spells_text (x : Double) : Spells x.numeral x.text := by
  have hsign : IsSign x.negative (if x.negative then ['-'] else []) := by
    cases x.negative with
    | false => exact .none
    | true => exact .minus
  rw [text_eq]
  exact Decimal.spells_numeral hsign x.areDigits_decimal.1 x.areDigits_decimal.2

/-- The text of a double is rounded to that double. -/
theorem roundsTo_numeral (x : Double) : x.numeral.RoundsTo x := by
  constructor
  · exact Decimal.negative_numeral.symm
  · rw [numeral, Decimal.magnitude_numeral x.areDigits_decimal.2]
    exact x.isNearest_decimal

/-- The text of a double spells no integer. -/
theorem not_spellsInteger_text (x : Double) (k : Int) : ¬ SpellsInteger k x.text := by
  intro hspells
  have hread := toInt?_eq_some_iff.2 hspells
  rw [ofText?_of_spells x.spells_text, Option.bind_some, numeral, Decimal.toInt?_numeral] at hread
  cases hread

end Double

end Stencil
