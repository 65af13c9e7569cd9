import Mathlib.Data.List.Forall2
import Stencil.Double.Numeral

/-!
# The spelling of numerals

A numeral is spelled as an optional sign, digits with an optional point among, before or behind
them, and an optional power of ten. The reader takes each part as long as it goes, so it accepts
what is spelled like this and nothing else, and finds the parts again (`ofText?_eq_some_iff`). An
integer is spelled as an optional sign and digits (`toInt?_eq_some_iff`).
-/

namespace Stencil.Numeral

/-! ## Grammar -/

/-- A row of digits. -/
def AreDigits (cs : List Char) : Prop :=
  ∀ c ∈ cs, isDigit c = true

/-- An optional sign. -/
inductive IsSign : Bool → List Char → Prop where
  | none : IsSign false []
  | plus : IsSign false ['+']
  | minus : IsSign true ['-']

/-- An optional sign and digits, with the integer that they stand for. -/
inductive SpellsInteger : Int → List Char → Prop where
  | mk {negative : Bool} {sign digits : List Char} (hsign : IsSign negative sign)
      (hdigits : AreDigits digits) (hne : digits ≠ []) :
      SpellsInteger (if negative then -(valueOfDigits digits : Int) else valueOfDigits digits)
        (sign ++ digits)

/-- An optional point with digits behind it. -/
inductive SpellsFraction : Option (List Char) → List Char → Prop where
  | none : SpellsFraction none []
  | point {digits : List Char} (hdigits : AreDigits digits) :
      SpellsFraction (some digits) ('.' :: digits)

/-- An optional power of ten. -/
inductive SpellsPower : Option Int → List Char → Prop where
  | none : SpellsPower none []
  | mark {mark : Char} {k : Int} {cs : List Char} (hmark : mark = 'e' ∨ mark = 'E')
      (hinteger : SpellsInteger k cs) : SpellsPower (some k) (mark :: cs)

/-- A sign, digits with a point and a power of ten. The sign, the point and the power are optional,
and so are the digits on one side of the point. -/
inductive Spells : Numeral → List Char → Prop where
  | mk {negative : Bool} {whole : List Char} {fraction : Option (List Char)} {power : Option Int}
      {sign point mark : List Char} (hsign : IsSign negative sign) (hwhole : AreDigits whole)
      (hfraction : SpellsFraction fraction point) (hdigits : whole ≠ [] ∨ fraction.getD [] ≠ [])
      (hpower : SpellsPower power mark) :
      Spells { negative, whole, fraction, power } (sign ++ (whole ++ (point ++ mark)))

/-! ## Signs -/

/-- What is behind a sign is not taken for another one. -/
theorem takeSign_append {negative : Bool} {sign rest : List Char} (h : IsSign negative sign)
    (hrest : ∀ c ∈ rest.head?, c ≠ '-' ∧ c ≠ '+') : takeSign (sign ++ rest) = (negative, rest) := by
  cases h with
  | none =>
    refine takeSign.eq_3 rest ?_ ?_
    · rintro tail rfl
      exact (hrest '-' rfl).1 rfl
    · rintro tail rfl
      exact (hrest '+' rfl).2 rfl
  | plus => rfl
  | minus => rfl

/-- What is taken off is a sign. -/
theorem exists_sign (cs : List Char) :
    ∃ sign, IsSign (takeSign cs).1 sign ∧ cs = sign ++ (takeSign cs).2 := by
  unfold takeSign
  split
  · exact ⟨['-'], .minus, rfl⟩
  · exact ⟨['+'], .plus, rfl⟩
  · exact ⟨[], .none, rfl⟩

theorem ne_sign_of_isDigit {c : Char} (h : isDigit c = true) : c ≠ '-' ∧ c ≠ '+' := by
  constructor
  · rintro rfl
    exact absurd h (by decide)
  · rintro rfl
    exact absurd h (by decide)

/-- Digits do not start with a sign. -/
theorem AreDigits.head_ne_sign {digits : List Char} (h : AreDigits digits) :
    ∀ c ∈ digits.head?, c ≠ '-' ∧ c ≠ '+' := by
  intro c hc
  exact ne_sign_of_isDigit (h c (List.mem_of_mem_head? hc))

/-! ## Digits -/

/-- Digits are taken up to the first other character. -/
theorem AreDigits.takeWhile_append {digits rest : List Char} (h : AreDigits digits)
    (hrest : ∀ c ∈ rest.head?, isDigit c = false) :
    (digits ++ rest).takeWhile isDigit = digits ∧ (digits ++ rest).dropWhile isDigit = rest := by
  rw [List.takeWhile_append_of_pos h, List.dropWhile_append_of_pos h]
  cases rest with
  | nil => simp
  | cons c tail => simp [hrest c rfl]

theorem areDigits_takeWhile (cs : List Char) : AreDigits (cs.takeWhile isDigit) :=
  List.all_eq_true.1 List.all_takeWhile

/-! ## Powers -/

theorem power?_eq_some_iff {power : Option Int} {cs : List Char} :
    power? cs = some power ↔ SpellsPower power cs := by
  constructor
  · intro h
    cases cs with
    | nil =>
      cases h
      exact .none
    | cons mark rest =>
      rw [power?] at h
      split at h
      · rename_i hmark
        obtain ⟨sign, hsign, hrest⟩ := exists_sign rest
        generalize takeSign rest = parts at h hsign hrest
        obtain ⟨negative, digits⟩ := parts
        simp only at h
        split at h
        · cases h
        · rename_i hdigits
          simp only [not_or, Classical.not_not, List.all_eq_true] at hdigits
          cases h
          rw [hrest]
          exact .mark hmark (.mk hsign hdigits.2 hdigits.1)
      · cases h
  · intro h
    cases h with
    | none => rfl
    | mark hmark hinteger =>
      cases hinteger with
      | mk hsign hdigits hne =>
        have hall := List.all_eq_true.2 hdigits
        rw [power?, if_pos hmark, takeSign_append hsign hdigits.head_ne_sign]
        simp [hne, hall]

/-! ## Numerals -/

/-- A power of ten does not start with a digit or a point. -/
theorem SpellsPower.head {power : Option Int} {cs : List Char} (h : SpellsPower power cs) :
    ∀ c ∈ cs.head?, isDigit c = false ∧ c ≠ '.' := by
  intro c hc
  cases h with
  | none => cases hc
  | mark hmark _ =>
    cases hc
    rcases hmark with rfl | rfl
    · decide
    · decide

/-- Neither does what is behind the digits in front of the point start with a digit. -/
theorem SpellsFraction.head_append {fraction : Option (List Char)} {point rest : List Char}
    (h : SpellsFraction fraction point) (hrest : ∀ c ∈ rest.head?, isDigit c = false) :
    ∀ c ∈ (point ++ rest).head?, isDigit c = false := by
  cases h with
  | none => exact hrest
  | point _ =>
    intro c hc
    cases hc
    decide

/-- Behind the parts in front of it, the power of ten decides whether a numeral is read. -/
theorem spells_of_power? {negative : Bool} {sign whole point rest : List Char}
    {fraction : Option (List Char)} {n : Numeral} (hsign : IsSign negative sign)
    (hwhole : AreDigits whole) (hfraction : SpellsFraction fraction point)
    (h : (if whole = [] ∧ fraction.getD [] = [] then none
      else (power? rest).map fun power => { negative, whole, fraction, power }) = some n) :
    Spells n (sign ++ (whole ++ (point ++ rest))) := by
  split at h
  · cases h
  · rename_i hdigits
    obtain ⟨power, hpower, rfl⟩ := Option.map_eq_some_iff.1 h
    exact .mk hsign hwhole hfraction (Classical.not_and_iff_not_or_not.1 hdigits)
      (power?_eq_some_iff.1 hpower)

/-- What is read as a numeral is spelled as one. -/
theorem spells_of_ofText? {n : Numeral} {cs : List Char} (h : ofText? cs = some n) :
    Spells n cs := by
  obtain ⟨sign, hsign, hcs⟩ := exists_sign cs
  unfold ofText? at h
  generalize takeSign cs = parts at h hsign hcs
  obtain ⟨negative, unsigned⟩ := parts
  have hunsigned := List.takeWhile_append_dropWhile (p := isDigit) (l := unsigned)
  have hwhole := areDigits_takeWhile unsigned
  rw [hcs, ← hunsigned]
  simp only at h
  -- with a point the digits behind it are taken as well, and without one the power follows at once
  split at h
  · rename_i behind hpoint
    rw [hpoint, ← List.takeWhile_append_dropWhile (p := isDigit) (l := behind)]
    exact spells_of_power? hsign hwhole (.point (areDigits_takeWhile behind)) h
  · exact spells_of_power? hsign hwhole .none h

/-- With a digit on either side of the point, a numeral without its sign does not start with one. -/
theorem head_ne_sign_of_digits {whole point mark : List Char} {fraction : Option (List Char)}
    (hwhole : AreDigits whole) (hfraction : SpellsFraction fraction point)
    (hdigits : whole ≠ [] ∨ fraction.getD [] ≠ []) :
    ∀ c ∈ (whole ++ (point ++ mark)).head?, c ≠ '-' ∧ c ≠ '+' := by
  intro c hc
  cases whole with
  | cons d rest =>
    cases hc
    exact ne_sign_of_isDigit (hwhole c List.mem_cons_self)
  | nil =>
    cases hfraction with
    | none => simp at hdigits
    | point _ =>
      cases hc
      decide

/-- What is spelled as a numeral is read as that one. -/
theorem ofText?_of_spells {n : Numeral} {cs : List Char} (h : Spells n cs) :
    ofText? cs = some n := by
  cases h with
  | @mk negative whole fraction power sign point mark hsign hwhole hfraction hdigits hpower =>
    have hmark : ∀ c ∈ mark.head?, isDigit c = false := fun c hc => (hpower.head c hc).1
    obtain ⟨htake, hdrop⟩ := hwhole.takeWhile_append (hfraction.head_append hmark)
    have hread : power? mark = some power := power?_eq_some_iff.2 hpower
    unfold ofText?
    rw [takeSign_append hsign (head_ne_sign_of_digits hwhole hfraction hdigits)]
    simp only [htake, hdrop]
    cases hfraction with
    | none =>
      have hpoint : ∀ rest, mark ≠ '.' :: rest := by
        rintro rest rfl
        exact (hpower.head '.' rfl).2 rfl
      have hwholeNe : whole ≠ [] := by simpa using hdigits
      rw [List.nil_append]
      split
      · exact absurd rfl (hpoint _)
      · simp [hwholeNe, hread]
    | @point digits hdigitsBehind =>
      obtain ⟨htakeBehind, hdropBehind⟩ := hdigitsBehind.takeWhile_append hmark
      have hsome : ¬ (whole = [] ∧ digits = []) := Classical.not_and_iff_not_or_not.2 hdigits
      simp [htakeBehind, hdropBehind, hsome, hread]

/-- The texts that are read as numerals are the spellings of these. -/
theorem ofText?_eq_some_iff {n : Numeral} {cs : List Char} : ofText? cs = some n ↔ Spells n cs :=
  ⟨spells_of_ofText?, ofText?_of_spells⟩

/-- A text spells one numeral. -/
theorem Spells.unique {m n : Numeral} {cs : List Char} (hm : Spells m cs) (hn : Spells n cs) :
    m = n := by
  have hread := ofText?_eq_some_iff.2 hm
  rw [ofText?_eq_some_iff.2 hn] at hread
  exact (Option.some.inj hread).symm

/-! ## Characters -/

/-- Whether a character can be part of a numeral. -/
def isNumeralChar (c : Char) : Bool :=
  isDigit c || c == '.' || c == '-' || c == '+' || c == 'e' || c == 'E'

/-- Whether a text has characters of numerals only, and a digit among them. -/
def looksNumeric (cs : List Char) : Bool :=
  !cs.isEmpty && cs.all isNumeralChar && cs.any isDigit

/-- A word for what is no finite number. Each letter is a small or a capital one. -/
def IsFloatWord (cs : List Char) : Prop :=
  ∃ word ∈ ["inf", "infinity", "nan"],
    List.Forall₂ (fun c letter => c = letter ∨ c = letter.toUpper) cs word.toList

/-- A text that stands for a floating-point number, finite or not. -/
inductive IsFloatText : List Char → Prop where
  | numeral {n : Numeral} {cs : List Char} (h : Spells n cs) : IsFloatText cs
  | word {negative : Bool} {sign word : List Char} (hsign : IsSign negative sign)
      (hword : IsFloatWord word) : IsFloatText (sign ++ word)

theorem AreDigits.isNumeralChar {digits : List Char} (h : AreDigits digits) :
    ∀ c ∈ digits, isNumeralChar c = true := by
  intro c hc
  simp [Numeral.isNumeralChar, h c hc]

theorem IsSign.isNumeralChar {negative : Bool} {sign : List Char} (h : IsSign negative sign) :
    ∀ c ∈ sign, isNumeralChar c = true := by
  cases h with
  | none => simp
  | plus => simp [Numeral.isNumeralChar]
  | minus => simp [Numeral.isNumeralChar]

theorem SpellsFraction.isNumeralChar {fraction : Option (List Char)} {point : List Char}
    (h : SpellsFraction fraction point) : ∀ c ∈ point, isNumeralChar c = true := by
  cases h with
  | none => simp
  | point hdigits => exact List.forall_mem_cons.2 ⟨by decide, hdigits.isNumeralChar⟩

theorem SpellsPower.isNumeralChar {power : Option Int} {cs : List Char} (h : SpellsPower power cs) :
    ∀ c ∈ cs, isNumeralChar c = true := by
  cases h with
  | none => simp
  | mark hmark hinteger =>
    cases hinteger with
    | mk hsign hdigits _ =>
      have hrest := List.forall_mem_append.2 ⟨hsign.isNumeralChar, hdigits.isNumeralChar⟩
      rcases hmark with rfl | rfl
      · exact List.forall_mem_cons.2 ⟨by decide, hrest⟩
      · exact List.forall_mem_cons.2 ⟨by decide, hrest⟩

/-- Numerals have the characters of numerals, and a digit. -/
theorem Spells.looksNumeric {n : Numeral} {cs : List Char} (h : Spells n cs) :
    looksNumeric cs = true := by
  cases h with
  | @mk negative whole fraction power sign point mark hsign hwhole hfraction hdigits hpower =>
    have hchars : ∀ c ∈ sign ++ (whole ++ (point ++ mark)), isNumeralChar c = true := by
      simp only [List.forall_mem_append]
      exact ⟨hsign.isNumeralChar, hwhole.isNumeralChar, hfraction.isNumeralChar,
        hpower.isNumeralChar⟩
    obtain ⟨d, hd, hdigit⟩ : ∃ d ∈ sign ++ (whole ++ (point ++ mark)), isDigit d = true := by
      rcases hdigits with hne | hne
      · obtain ⟨d, hd⟩ := List.exists_mem_of_ne_nil whole hne
        exact ⟨d, by simp [hd], hwhole d hd⟩
      · cases hfraction with
        | none => simp at hne
        | point hbehind =>
          obtain ⟨d, hd⟩ := List.exists_mem_of_ne_nil _ hne
          exact ⟨d, by simp_all, hbehind d hd⟩
    have hnonempty : sign ++ (whole ++ (point ++ mark)) ≠ [] := List.ne_nil_of_mem hd
    rw [Numeral.looksNumeric, List.all_eq_true.2 hchars, List.any_eq_true.2 ⟨d, hd, hdigit⟩]
    simp only [List.isEmpty_eq_false_iff.2 hnonempty]
    rfl

theorem IsFloatWord.length {word : List Char} (h : IsFloatWord word) :
    word.length = 3 ∨ word.length = 8 := by
  obtain ⟨letters, hletters, hword⟩ := h
  have hlengths : ∀ letters ∈ ["inf", "infinity", "nan"],
      letters.toList.length = 3 ∨ letters.toList.length = 8 := by decide
  rw [hword.length_eq]
  exact hlengths letters hletters

/-- The first letter of a word is in no numeral. -/
theorem IsFloatWord.looksNumeric_eq_false {word : List Char} (h : IsFloatWord word)
    (sign : List Char) : looksNumeric (sign ++ word) = false := by
  obtain ⟨letters, hletters, hword⟩ := h
  obtain ⟨letter, rest, hcons, hletter⟩ : ∃ letter rest, letters.toList = letter :: rest ∧
      isNumeralChar letter = false ∧ isNumeralChar letter.toUpper = false := by
    simp only [List.mem_cons, List.not_mem_nil, or_false] at hletters
    rcases hletters with rfl | rfl | rfl
    · exact ⟨'i', _, rfl, by decide⟩
    · exact ⟨'i', _, rfl, by decide⟩
    · exact ⟨'n', _, rfl, by decide⟩
  rw [hcons, List.forall₂_cons_right_iff] at hword
  obtain ⟨c, tail, hc, -, rfl⟩ := hword
  have hchar : isNumeralChar c = false := by
    rcases hc with rfl | rfl
    · exact hletter.1
    · exact hletter.2
  have hall : (sign ++ c :: tail).all isNumeralChar = false :=
    List.all_eq_false.2 ⟨c, by simp, by simp [hchar]⟩
  rw [looksNumeric, hall, Bool.and_false, Bool.false_and]

/-- Of the texts that stand for floating-point numbers, the numerals are those that look numeric. -/
theorem exists_spells_iff {cs : List Char} :
    (∃ n, Spells n cs) ↔ looksNumeric cs = true ∧ IsFloatText cs := by
  constructor
  · rintro ⟨n, hn⟩
    exact ⟨hn.looksNumeric, .numeral hn⟩
  · rintro ⟨hlooks, hfloat⟩
    cases hfloat with
    | numeral hn => exact ⟨_, hn⟩
    | word hsign hword =>
      rw [hword.looksNumeric_eq_false] at hlooks
      cases hlooks

/-! ## Integers -/

/-- The numerals without point and power are the integers. -/
theorem toInt?_eq_some_iff {k : Int} {cs : List Char} :
    (ofText? cs).bind toInt? = some k ↔ SpellsInteger k cs := by
  constructor
  · intro h
    obtain ⟨n, hn, hk⟩ := Option.bind_eq_some_iff.1 h
    cases ofText?_eq_some_iff.1 hn with
    | mk hsign hwhole hfraction hdigits hpower =>
      cases hfraction with
      | point _ => cases hk
      | none =>
        cases hpower with
        | mark _ _ => cases hk
        | none =>
          cases hk
          rw [List.append_nil, List.append_nil]
          exact .mk hsign hwhole (by simpa using hdigits)
  · intro h
    cases h with
    | @mk negative sign digits hsign hdigits hne =>
      have hspells : Spells { negative, whole := digits, fraction := none, power := none }
          (sign ++ (digits ++ ([] ++ []))) :=
        .mk hsign hdigits .none (Or.inl hne) .none
      rw [List.append_nil, List.append_nil] at hspells
      rw [ofText?_of_spells hspells]
      rfl

/-- A text spells one integer. -/
theorem SpellsInteger.unique {j k : Int} {cs : List Char} (hj : SpellsInteger j cs)
    (hk : SpellsInteger k cs) : j = k := by
  have hread := toInt?_eq_some_iff.2 hj
  rw [toInt?_eq_some_iff.2 hk] at hread
  exact (Option.some.inj hread).symm

end Stencil.Numeral
