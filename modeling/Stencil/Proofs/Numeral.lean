import Stencil.Value.Printer

/-!
# Integers as numerals

The decimal text of an integer is a numeral without point and power, and stands for that integer.
-/

namespace Stencil.Numeral

/-- The decimal digits of a number stand for it. -/
theorem valueOfDigits_toDigits (n : Nat) : valueOfDigits (Nat.toDigits 10 n) = n := by
  have hvalue : Nat.ofDigitChars 10 (Nat.toDigits 10 n) 0 = n := Nat.ofDigitChars_ten_toDigits
  rwa [Nat.ofDigitChars_eq_foldl] at hvalue

theorem isDigit_of_mem_toDigits {n : Nat} {c : Char} (h : c ∈ Nat.toDigits 10 n) :
    isDigit c = true :=
  Nat.isDigit_of_mem_toDigits (by decide) (by decide) h

theorem takeSign_of_isDigit {c : Char} (h : isDigit c = true) (rest : List Char) :
    takeSign (c :: rest) = (false, c :: rest) := by
  refine takeSign.eq_3 _ ?_ ?_
  · rintro _ hc
    obtain ⟨rfl, -⟩ := List.cons.inj hc
    exact absurd h (by decide)
  · rintro _ hc
    obtain ⟨rfl, -⟩ := List.cons.inj hc
    exact absurd h (by decide)

/-- Digits behind an optional sign are a numeral. -/
theorem ofText?_of_takeSign {negative : Bool} {cs digits : List Char}
    (hsign : takeSign cs = (negative, digits)) (hne : digits ≠ [])
    (hdigits : ∀ c ∈ digits, isDigit c = true) :
    ofText? cs = some { negative, whole := digits, fraction := none, power := none } := by
  have hwhole : (digits ++ []).takeWhile isDigit = digits ++ [].takeWhile isDigit :=
    List.takeWhile_append_of_pos hdigits
  have hrest : (digits ++ []).dropWhile isDigit = [].dropWhile isDigit :=
    List.dropWhile_append_of_pos hdigits
  rw [List.append_nil, List.takeWhile_nil, List.append_nil] at hwhole
  rw [List.append_nil, List.dropWhile_nil] at hrest
  simp [ofText?, hsign, hwhole, hrest, hne, power?]

theorem integerText_ne_nil (k : Int) : integerText k ≠ [] := by
  simp [integerText, Nat.toDigits_ne_nil]

/-- The decimal text of an integer has digits and a minus only. -/
theorem mem_integerText {k : Int} {c : Char} (h : c ∈ integerText k) :
    c = '-' ∨ isDigit c = true := by
  rcases List.mem_append.1 h with hminus | hdigits
  · left
    split at hminus
    · simpa using hminus
    · cases hminus
  · exact .inr (isDigit_of_mem_toDigits hdigits)

theorem takeSign_integerText (k : Int) :
    takeSign (integerText k) = (decide (k < 0), Nat.toDigits 10 k.natAbs) := by
  by_cases hneg : k < 0
  · simp [integerText, hneg, takeSign]
  · obtain ⟨c, rest, hdigits⟩ : ∃ c rest, Nat.toDigits 10 k.natAbs = c :: rest :=
      List.exists_cons_of_ne_nil Nat.toDigits_ne_nil
    have hc : isDigit c = true := isDigit_of_mem_toDigits (hdigits ▸ List.mem_cons_self)
    simp [integerText, hneg, hdigits, takeSign_of_isDigit hc]

/-- The decimal text of an integer is read back. -/
theorem toInt?_integerText (k : Int) : (ofText? (integerText k)).bind toInt? = some k := by
  have hnumeral := ofText?_of_takeSign (takeSign_integerText k) Nat.toDigits_ne_nil
    fun c hc => isDigit_of_mem_toDigits hc
  rw [hnumeral, Option.bind_some, toInt?]
  -- the sign and the magnitude make up the integer again
  simp only [valueOfDigits_toDigits, decide_eq_true_eq]
  congr 1
  split <;> omega

end Stencil.Numeral
