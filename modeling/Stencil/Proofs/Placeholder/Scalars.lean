import Stencil.Proofs.Double.Integers
import Stencil.Proofs.Double.Texts
import Stencil.Proofs.Placeholder.Numbers
import Stencil.Value.Printer

/-!
# Scalars as literals

What is read as a number has the characters of numerals only, so it needs no quotes and no blanks
(`ofChars_of_number?`). The text of an integer of 64 bits with a sign and the text of a double are
read back (`parse_plainText_eq_self`). An integer that only fits without a sign is read as the
double nearest to it, because a literal has no such integers (`number?_integerText_of_unsigned`).
-/

namespace Stencil

/-- Null, the booleans and the numbers. -/
inductive Value.IsScalar : Value → Prop where
  | null : IsScalar .null
  | bool (b : Bool) : IsScalar (.bool b)
  | number (n : Number) : IsScalar (.number n)

namespace Literal

open Numeral

variable {cs : List Char}

/-! ## Numbers among the literals -/

theorem isBare_of_isNumeralChar {c : Char} (h : isNumeralChar c = true) : isBare c = true := by
  simp only [isNumeralChar, Bool.or_eq_true, beq_iff_eq] at h
  rcases h with ((((hdigit | rfl) | rfl) | rfl) | rfl) | rfl
  · exact isBare_of_isDigit hdigit
  all_goals decide

/-- What is read as a number has the characters of numerals. -/
theorem isNumeralChar_of_number? {m : Number} (h : number? cs = some m) :
    ∀ c ∈ cs, isNumeralChar c = true := by
  obtain ⟨n, x, hn, -⟩ := exists_number?_iff.1 ⟨m, h⟩
  have hlooks := hn.looksNumeric
  rw [looksNumeric, Bool.and_eq_true, Bool.and_eq_true] at hlooks
  exact List.all_eq_true.1 hlooks.1.2

theorem ne_nil_of_number? {m : Number} (h : number? cs = some m) : cs ≠ [] := by
  rintro rfl
  cases h

theorem isBare_of_number? {m : Number} (h : number? cs = some m) : ∀ c ∈ cs, isBare c = true :=
  fun c hc => isBare_of_isNumeralChar (isNumeralChar_of_number? h c hc)

theorem isBlankText_of_number? {m : Number} (h : number? cs = some m) :
    Text.isBlankText cs = false := by
  obtain ⟨c, rest, rfl⟩ := List.exists_cons_of_ne_nil (ne_nil_of_number? h)
  have hfirst := (isBare_iff.1 (isBare_of_number? h c List.mem_cons_self)).2
  simp [Text.isBlankText, hfirst]

/-- What is read as a number is that number as a literal. -/
theorem ofChars_of_number? {m : Number} (h : number? cs = some m) : ofChars cs = .number m := by
  rw [ofChars, trim_of_isBare (isBare_of_number? h)]
  exact ofTrimmed_of_number? (quoted?_of_isBare (isBare_of_number? h)) h

/-! ## The texts of numbers -/

/-- The text of a double is read back. -/
theorem number?_doubleText (x : Double) : number? x.text = some (.double x) :=
  number?_eq_double_iff.2 ⟨⟨x.numeral, x.spells_text, x.roundsTo_numeral⟩,
    fun k hspells => absurd hspells (x.not_spellsInteger_text k)⟩

/-- The text of an integer that fits in 64 bits without a sign only is read as the double nearest to
it. -/
theorem number?_integerText_of_unsigned {k : Int} (h : IsWordSized k) (hk : ¬ IsSignedWord k) :
    number? (integerText k) = some (.double (Double.ofInt k)) := by
  have hread := ofText?_of_takeSign (takeSign_integerText k) Nat.toDigits_ne_nil
    fun c hc => isDigit_of_mem_toDigits hc
  have hint := toInt?_integerText k
  have hnone : ∀ j, SpellsInteger j (integerText k) → ¬ IsSignedWord j := by
    intro j hspells
    rwa [hspells.unique (toInt?_eq_some_iff.1 hint)]
  rw [hread, Option.bind_some] at hint
  refine (number?_of_not_integer hnone).2 ⟨_, _, ofText?_eq_some_iff.1 hread, ?_, rfl⟩
  constructor
  · rfl
  · rw [magnitude_of_toInt? hint]
    exact Double.isNearest_ofInt (Double.natCast_lt_overflowBound (by omega))

/-- The text of a number is read as some number. -/
theorem exists_number?_text (n : Number) : ∃ m, number? n.text = some m := by
  cases n with
  | integer k h =>
    by_cases hk : IsSignedWord k
    · exact ⟨_, number?_integerText hk⟩
    · exact ⟨_, number?_integerText_of_unsigned h hk⟩
  | double x => exact ⟨_, number?_doubleText x⟩

/-! ## The texts of scalars -/

variable {v : Value}

theorem toList_plainText_number (n : Number) : (Value.number n).plainText.toList = n.text :=
  String.toList_ofList

theorem parse_plainText_number {n m : Number} (h : number? n.text = some m) :
    parse (Value.number n).plainText = .number m := by
  rw [parse, toList_plainText_number, ofChars_of_number? h]

/-- A scalar is read back from its text, unless it is an integer that fits in 64 bits without a
sign only. -/
theorem parse_plainText_eq_self (h : v.IsScalar)
    (hsigned : ∀ k hk, v = .number (.integer k hk) → IsSignedWord k) :
    parse v.plainText = v := by
  cases h with
  | null => rfl
  | bool b => cases b <;> rfl
  | number n =>
    cases n with
    | integer k hk => exact parse_plainText_number (number?_integerText (hsigned k hk rfl))
    | double x => exact parse_plainText_number (number?_doubleText x)

/-- There are no braces in the text of a scalar. -/
theorem ne_brace_of_mem_plainText (h : v.IsScalar) :
    ∀ c ∈ v.plainText.toList, c ≠ '{' ∧ c ≠ '}' := by
  cases h with
  | null =>
    have hword : Value.null.plainText.toList = ['n', 'u', 'l', 'l'] := String.toList_ofList
    rw [hword]
    simp
  | bool b =>
    have hword : (Value.bool b).plainText.toList = Value.boolText b := String.toList_ofList
    rw [hword]
    cases b <;> simp [Value.boolText]
  | number n =>
    obtain ⟨m, hm⟩ := exists_number?_text n
    intro c hc
    rw [toList_plainText_number] at hc
    have hchar := isNumeralChar_of_number? hm c hc
    constructor
    all_goals
      rintro rfl
      exact absurd hchar (by decide)

end Literal

end Stencil
