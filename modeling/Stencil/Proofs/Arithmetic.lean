import Stencil.Proofs.Placeholder.Calls
import Stencil.Proofs.Placeholder.Scalars
import Stencil.Proofs.Registry
import Stencil.Proofs.Template.Evaluating

/-!
# Rounding integers

An integer is written without a point, or with a point and zeros behind it. Written without a point
it stays an integer, and rounding leaves it as it is. Written with a point it is a double. Floor,
ceiling and the magnitude are exact there, but one half is added before a number is rounded, and
that sum is rounded itself: from `2 ^ 52` on an odd integer gives way to the next one
(`resolvePlaceholder_of_integer`).
-/

namespace Stencil

theorem Value.ofInt_of_isWordSized {n : Int} (h : IsWordSized n) :
    Value.ofInt n = .number (.integer n h) := by
  rw [ofInt, Number.ofInt_of_isWordSized h]

namespace Literal

open Numeral

variable {cs : List Char}

/-- The text of an integer with a point and zeros behind it. -/
def pointed (cs : List Char) (zeros : Nat) : List Char :=
  cs ++ '.' :: List.replicate zeros '0'

/-- An integer of at most 53 bits that is written with a point is read as the double that it is. -/
theorem exists_number?_pointed {n : Int} (h : SpellsInteger n cs)
    (hn : n.natAbs ≤ 2 * Double.blockSize) (zeros : Nat) :
    ∃ x : Double, number? (pointed cs zeros) = some (.double x) ∧ x.IsInteger n := by
  cases h with
  | @mk negative sign digits hsign hdigits hne =>
    let numeral : Numeral :=
      { negative, whole := digits, fraction := some (List.replicate zeros '0'), power := none }
    have hspells : Spells numeral (pointed (sign ++ digits) zeros) := by
      rw [pointed, List.append_assoc]
      exact spells_point hsign hdigits hne (areDigits_zeros zeros)
    have hbits : valueOfDigits digits ≤ 2 * Double.blockSize := by
      split at hn
      · rwa [Int.natAbs_neg, Int.natAbs_natCast] at hn
      · rwa [Int.natAbs_natCast] at hn
    have hmagnitude : numeral.magnitude = valueOfDigits digits :=
      magnitude_point_zeros negative digits zeros
    obtain ⟨x, hx⟩ := exists_roundsTo_iff.2
      (hmagnitude.trans_lt (Double.natCast_lt_overflowBound (hbits.trans (by decide))))
    -- with a point it is no spelling of an integer, however small
    have hnone : ∀ k, SpellsInteger k (pointed (sign ++ digits) zeros) → ¬ IsSignedWord k := by
      intro k hinteger
      have hread := toInt?_eq_some_iff.2 hinteger
      rw [ofText?_of_spells hspells] at hread
      cases hread
    refine ⟨x, number?_eq_double_iff.2 ⟨⟨_, hspells, hx⟩, hnone⟩, ?_⟩
    have hnearest := hx.nearest
    rw [hmagnitude] at hnearest
    have hinteger := Double.isInteger_of_units (Double.units_of_isNearest hbits hnearest)
    rwa [hx.negative] at hinteger

end Literal

namespace Arithmetic

/-- A result that is an integer becomes one if every integer up to it is a double. -/
theorem ofResult_of_isInteger {x : Double} {n : Int} (h : x.IsInteger n) :
    ofResult x = if n.natAbs ≤ largestExactInteger then Value.ofInt n else Value.ofDouble x := by
  rw [ofResult, h.toInt?]

/-- A result that becomes an integer becomes the one that it is. -/
theorem eq_of_ofResult {x : Double} {m n : Int} {hm : IsWordSized m} (h : x.IsInteger n)
    (hresult : ofResult x = .number (.integer m hm)) : m = n := by
  rw [ofResult_of_isInteger h] at hresult
  split at hresult
  · rename_i hsmall
    have hword : IsWordSized n := by
      simp only [largestExactInteger] at hsmall
      omega
    rw [Value.ofInt_of_isWordSized hword] at hresult
    cases hresult
    rfl
  · cases hresult

namespace Unary

variable {f : Unary} {x : Double} {n : Int}

/-- The name of the function. -/
def name : Unary → String
  | .round => "round"
  | .floor => "floor"
  | .ceil => "ceil"
  | .abs => "abs"

theorem name_plain (f : Unary) : f.name ≠ "" ∧ Text.trim f.name.toList = f.name.toList ∧
    '(' ∉ f.name.toList ∧ '|' ∉ f.name.toList := by
  cases f
  all_goals decide

/-- The text of a placeholder that applies the function to a literal. -/
def placeholder (f : Unary) (literal : List Char) : String :=
  String.ofList (Placeholder.plainCall "math" f.name literal)

/-- A call of the function by its name applies it. -/
theorem call_of_name {call : Call} (h : call.member = f.name) :
    Arithmetic.call call = Eval.ofExcept (f.apply call) := by
  rw [Arithmetic.call, h]
  cases f
  all_goals rfl

theorem apply_integer {call : Call} {k : Int} {hk : IsWordSized k}
    (hargs : call.arguments = [.number (.integer k hk)]) (h : IsSignedWord k) :
    f.apply call = .ok (Value.ofInt (f.onInteger k)) := by
  have hint : Number.toInt64? (.integer k hk) = some k := if_pos h
  rw [apply, hargs]
  simp only [Value.number?, Option.bind_some, hint]

theorem apply_double {call : Call} (hargs : call.arguments = [.number (.double x)]) :
    f.apply call = .ok (ofResult (f.onDouble x)) := by
  have hdouble : call.doubleAt 0 = .ok x := by
    rw [Call.doubleAt, hargs]
    rfl
  rw [apply, hargs]
  simp only [Value.number?, Option.bind_some, Number.toInt64?, hdouble, Except.map]

/-- The value of the function at an integer. -/
def exact (f : Unary) (n : Int) : Int :=
  if f = .abs then |n| else n

theorem onInteger_eq_exact (f : Unary) (n : Int) : f.onInteger n = f.exact n := by
  cases f with
  | abs => exact Int.natCast_natAbs n
  | round | floor | ceil => rfl

theorem isWordSized_exact (h : IsSignedWord n) : IsWordSized (f.exact n) := by
  unfold exact
  split
  · rw [abs_eq_max_neg]
    omega
  · exact h.isWordSized

theorem natAbs_exact (f : Unary) (n : Int) : (f.exact n).natAbs = n.natAbs := by
  unfold exact
  split
  · exact Int.natAbs_abs n
  · rfl

/-- The odd integers from `2 ^ 52` on, which rounding overshoots: there are no doubles between
integers there, so one half more than an odd one is rounded to the even one behind it. -/
def Overshoots (f : Unary) (n : Int) : Prop :=
  f = .round ∧ Double.blockSize < n.natAbs ∧ n % 2 = 1

instance (f : Unary) (n : Int) : Decidable (f.Overshoots n) :=
  inferInstanceAs (Decidable (_ ∧ _ ∧ _))

/-- The value of the function at an integer that is a double. -/
theorem onDouble_of_not_overshoots (h : x.IsInteger n) (hn : n.natAbs ≤ largestExactInteger)
    (hover : ¬ f.Overshoots n) : (f.onDouble x).IsInteger (f.exact n) := by
  have hbits : n.natAbs < 2 * Double.blockSize := Nat.lt_of_le_of_lt hn (by decide)
  have hinteger := Double.isInteger_ofInt hbits.le
  cases f with
  | round =>
    have hfloor : x.addHalf.floor = n := by
      rw [h.floor_addHalf hbits]
      split
      · -- half way to the next integer the even one is nearest, and that is this one
        rename_i hlarge
        have hodd : n % 2 ≠ 1 := fun hodd => hover ⟨rfl, hlarge, hodd⟩
        omega
      · rfl
    rwa [onDouble, hfloor]
  | floor => rwa [onDouble, h.floor]
  | ceil => rwa [onDouble, h.ceil]
  | abs =>
    rw [exact, if_pos rfl, ← Int.natCast_natAbs]
    exact h.abs

theorem onDouble_of_overshoots (h : x.IsInteger n) (hn : n.natAbs ≤ largestExactInteger)
    (hover : f.Overshoots n) : f.onDouble x = Double.ofInt (n + 1) := by
  obtain ⟨rfl, hlarge, hodd⟩ := hover
  rw [onDouble, h.floor_addHalf (Nat.lt_of_le_of_lt hn (by decide)), if_pos hlarge, hodd]

end Unary

end Arithmetic

namespace Resolver

open Arithmetic Numeral

variable {r : Resolver} {f : Unary} {cs : List Char}

/-- A placeholder that applies a function of one number to the text of a number. -/
theorem resolvePlaceholder_unary (hmath : r.functions.get? "math" = some Arithmetic.functions)
    {m : Number} (h : Literal.number? cs = some m) :
    r.resolvePlaceholder (f.placeholder cs) = Eval.ofExcept (f.apply
      { ns := "math", member := f.name, args := some [.number m]
        source := f.placeholder cs }) := by
  obtain ⟨hne, htrim, hopen, hbar⟩ := f.name_plain
  have hmathChars : "math".toList.all Placeholder.isNamespaceChar = true := by decide
  have hplain : ∀ c ∈ cs, Literal.isPlain c = true := fun c hc =>
    (Literal.isBare_iff.1 (Literal.isBare_of_number? h c hc)).1
  have hparse := Placeholder.parse_plainCall (by decide) (List.all_eq_true.1 hmathChars) hne htrim
    hopen hplain (Literal.isBlankText_of_number? h)
  -- neither the name nor the number has a bar that would have to be escaped
  have hbars : '|' ∉ Placeholder.plainCall "math" f.name cs := by
    have hnone : '|' ∉ cs := fun hmem =>
      absurd (Literal.isNumeralChar_of_number? h _ hmem) (by decide)
    simp [Placeholder.plainCall, hbar, hnone]
  rw [Placeholder.escapeBars_of_not_mem hbars, Literal.ofChars_of_number? h] at hparse
  rw [Unary.placeholder, resolvePlaceholder_of_call hparse, Registry.dispatch, hmath]
  exact Unary.call_of_name rfl

/-- What the function gives for an integer that is written with a point. -/
theorem resolvePlaceholder_pointed (hmath : r.functions.get? "math" = some Arithmetic.functions)
    {n : Int} (h : SpellsInteger n cs) (hn : n.natAbs ≤ largestExactInteger) (zeros : Nat) :
    r.resolvePlaceholder (f.placeholder (Literal.pointed cs zeros)) =
      pure (if f.Overshoots n then ofResult (Double.ofInt (n + 1))
        else Value.ofInt (f.exact n)) := by
  obtain ⟨x, hnumber, hx⟩ :=
    Literal.exists_number?_pointed h (hn.trans (by decide : largestExactInteger ≤ _)) zeros
  rw [resolvePlaceholder_unary hmath hnumber, Unary.apply_double rfl]
  split
  · rename_i hover
    rw [Unary.onDouble_of_overshoots hx hn hover]
    rfl
  · rename_i hover
    have hexact : (f.exact n).natAbs ≤ largestExactInteger := by
      rwa [Unary.natAbs_exact]
    rw [ofResult_of_isInteger (Unary.onDouble_of_not_overshoots hx hn hover), if_pos hexact]
    rfl

/-- Rounding, floor and ceiling give an integer of 64 bits with a sign as that integer, and the
magnitude function gives its magnitude. So they do for an integer of at most 53 bits that is written
with a point, except that rounding an odd one from `2 ^ 52` on gives the next integer. That is a
double if it is `2 ^ 53`. -/
theorem resolvePlaceholder_of_integer (hmath : r.functions.get? "math" = some Arithmetic.functions)
    {n : Int} (h : SpellsInteger n cs) (f : Unary) :
    (IsSignedWord n → ∃ hexact,
      r.resolvePlaceholder (f.placeholder cs) = pure (.number (.integer (f.exact n) hexact))) ∧
    (n.natAbs ≤ largestExactInteger → ∀ zeros,
      let text := f.placeholder (Literal.pointed cs zeros)
      ((∃ hexact, r.resolvePlaceholder text = pure (.number (.integer (f.exact n) hexact))) ↔
        ¬ f.Overshoots n) ∧
      (f.Overshoots n → n ≠ largestExactInteger → ∃ hnext,
        r.resolvePlaceholder text = pure (.number (.integer (n + 1) hnext))) ∧
      (f.Overshoots n → n = largestExactInteger → ∃ x : Double, x.IsInteger (n + 1) ∧
        r.resolvePlaceholder text = pure (.number (.double x)))) := by
  constructor
  · intro hsigned
    refine ⟨Unary.isWordSized_exact hsigned, ?_⟩
    rw [resolvePlaceholder_unary hmath (Literal.number?_of_integer h hsigned),
      Unary.apply_integer rfl hsigned, Unary.onInteger_eq_exact, Value.ofInt_of_isWordSized]
    rfl
  · intro hn zeros text
    have hsigned : IsSignedWord n := by
      simp only [largestExactInteger] at hn
      omega
    have hvalue := resolvePlaceholder_pointed (f := f) hmath h hn zeros
    have hnext : (Double.ofInt (n + 1)).IsInteger (n + 1) :=
      Double.isInteger_ofInt (by simp only [largestExactInteger, Double.blockSize] at hn ⊢; omega)
    have hresult := ofResult_of_isInteger hnext
    refine ⟨⟨?_, ?_⟩, ?_, ?_⟩
    · -- the next integer is another one
      rintro ⟨hexact, hinteger⟩ hover
      rw [if_pos hover, hinteger] at hvalue
      have hsame := eq_of_ofResult hnext (Eval.pure_inj.1 hvalue).symm
      obtain ⟨rfl, -⟩ := hover
      have hround : Unary.round.exact n = n := rfl
      omega
    · intro hover
      rw [if_neg hover, Value.ofInt_of_isWordSized (Unary.isWordSized_exact hsigned)] at hvalue
      exact ⟨_, hvalue⟩
    · intro hover hlast
      have hsmall : (n + 1).natAbs ≤ largestExactInteger := by
        simp only [largestExactInteger] at hn hlast ⊢
        omega
      rw [if_pos hover, hresult, if_pos hsmall, Value.ofInt_of_isWordSized (by omega)] at hvalue
      exact ⟨_, hvalue⟩
    · -- the next integer is one of 54 bits, from which on results stay doubles
      rintro hover rfl
      rw [if_pos hover, hresult, if_neg (by decide)] at hvalue
      exact ⟨_, hnext, hvalue⟩

/-- The smallest integer, whose magnitude needs all 64 bits, and a negative integer that rounding
overshoots. -/
theorem resolvePlaceholder_of_integer_of_borders :
    let sources : Sources :=
      { catalog := {}, environment := {}
        now := ⟨0, 0, by decide, by decide, by decide, by decide⟩ }
    let r : Resolver := { store := {}, functions := .standard {} sources, settings := {} }
    r.functions.get? "math" = some Arithmetic.functions ∧
      SpellsInteger (-9223372036854775808) "-9223372036854775808".toList ∧
      SpellsInteger (-9007199254740991) "-9007199254740991".toList ∧
      IsSignedWord (-9223372036854775808) ∧
      (-9007199254740991 : Int).natAbs ≤ largestExactInteger ∧
      Unary.round.Overshoots (-9007199254740991) ∧
      r.resolvePlaceholder "$math.abs(-9223372036854775808)" =
        pure (.number (.integer 9223372036854775808 (by decide))) ∧
      r.resolvePlaceholder "$math.ceil(-9007199254740991.0)" =
        pure (.number (.integer (-9007199254740991) (by decide))) ∧
      r.resolvePlaceholder "$math.round(-9007199254740991.0)" =
        pure (.number (.integer (-9007199254740990) (by decide))) := by
  intro sources r
  have hmath : r.functions.get? "math" = some Arithmetic.functions :=
    Registry.get?_standard_math {} sources
  have hsmallest : SpellsInteger (-9223372036854775808) "-9223372036854775808".toList :=
    toInt?_eq_some_iff.1 (by decide)
  have hodd : SpellsInteger (-9007199254740991) "-9007199254740991".toList :=
    toInt?_eq_some_iff.1 (by decide)
  have hover : Unary.round.Overshoots (-9007199254740991) := by decide
  obtain ⟨habs, -⟩ := resolvePlaceholder_of_integer hmath hsmallest .abs
  obtain ⟨-, hceil⟩ := resolvePlaceholder_of_integer hmath hodd .ceil
  obtain ⟨-, hround⟩ := resolvePlaceholder_of_integer hmath hodd .round
  obtain ⟨_, hmagnitude⟩ := habs (by decide)
  obtain ⟨_, hwhole⟩ := (hceil (by decide) 1).1.2 (by decide)
  obtain ⟨_, hnext⟩ := (hround (by decide) 1).2.1 hover (by decide)
  exact ⟨hmath, hsmallest, hodd, by decide, by decide, hover, hmagnitude, hwhole, hnext⟩

/-- The smallest integer above zero that rounding overshoots. -/
theorem resolvePlaceholder_of_odd_integer :
    let r : Resolver := { store := {}, functions := .ofList [Arithmetic.functions], settings := {} }
    SpellsInteger 4503599627370497 "4503599627370497".toList ∧
      (4503599627370497 : Int).natAbs ≤ largestExactInteger ∧
      r.resolvePlaceholder "$math.round(4503599627370497.0)" =
        pure (.number (.integer 4503599627370498 (by decide))) ∧
      r.resolvePlaceholder "$math.round(4503599627370497.0)" ≠
        pure (.number (.integer 4503599627370497 (by decide))) := by
  intro r
  have hodd : SpellsInteger 4503599627370497 "4503599627370497".toList :=
    toInt?_eq_some_iff.1 (by decide)
  have hnext : (Double.ofInt (4503599627370497 + 1)).IsInteger (4503599627370497 + 1) :=
    Double.isInteger_ofInt (by decide)
  have hvalue := resolvePlaceholder_pointed (r := r) (f := .round) rfl hodd (by decide) 1
  rw [if_pos (by decide), ofResult_of_isInteger hnext, if_pos (by decide),
    Value.ofInt_of_isWordSized (by decide)] at hvalue
  refine ⟨hodd, by decide, hvalue, ?_⟩
  intro hsame
  have hequal := Eval.pure_inj.1 (hvalue.symm.trans hsame)
  simp at hequal

end Resolver

end Stencil
