import Stencil.Placeholder.Parser
import Stencil.Proofs.Numeral
import Stencil.Proofs.Text.Quotes

/-!
# Writing literals

Null, booleans and integers are written as their JSON text, and texts without single quotes in
single quotes. With any blanks around it, such a literal is read back (`ofChars_write`).
-/

namespace Stencil.Literal

/-- The values that are written as literals: null, booleans, integers of 64 bits with a sign, and
texts without single quotes. -/
inductive IsWritable : Value → Prop where
  | null : IsWritable .null
  | bool (b : Bool) : IsWritable (.bool b)
  | integer {k : Int} (h : IsSignedWord k) : IsWritable (.number (.integer k h.isWordSized))
  | string {text : String} (h : '\'' ∉ text.toList) : IsWritable (.string text)

/-- The literal of a value: a text in single quotes, every other value as JSON. -/
def write : Value → List Char
  | .string text => Text.inQuotes text.toList
  | v => v.compact

/-- Whether a character has no meaning between the parentheses of a call: it is no quote and no
parenthesis, and separates nothing. -/
def isPlain (c : Char) : Bool :=
  !(Placeholder.isQuote c || c == ',' || c == '(' || c == ')')

/-- Whether a character is part of a literal wherever it stands. -/
def isBare (c : Char) : Bool :=
  isPlain c && !Text.isBlank c

theorem isPlain_iff {c : Char} :
    isPlain c = true ↔ Placeholder.isQuote c = false ∧ c ≠ ',' ∧ c ≠ '(' ∧ c ≠ ')' := by
  simp [isPlain, and_assoc]

theorem isBare_iff {c : Char} : isBare c = true ↔ isPlain c = true ∧ Text.isBlank c = false := by
  simp [isBare]

/-- A class of characters without quotes, commas and parentheses is plain. -/
theorem isPlain_of {p : Char → Bool} (hp : p '\'' = false ∧ p '"' = false ∧ p ',' = false ∧
    p '(' = false ∧ p ')' = false) {c : Char} (h : p c = true) : isPlain c = true := by
  have hne (d : Char) (hd : p d = false) : c ≠ d := by
    rintro rfl
    rw [hd] at h
    cases h
  obtain ⟨hsingle, hdouble, hcomma, hopen, hclose⟩ := hp
  simp [isPlain, Placeholder.isQuote, hne _ hsingle, hne _ hdouble, hne _ hcomma, hne _ hopen,
    hne _ hclose]

theorem isPlain_of_isBlank {c : Char} (h : Text.isBlank c = true) : isPlain c = true :=
  isPlain_of (by decide) h

theorem isBare_of_isDigit {c : Char} (h : Numeral.isDigit c = true) : isBare c = true := by
  have hrange : 48 ≤ c.toNat ∧ c.toNat ≤ 57 := by
    simpa [Numeral.isDigit, Char.le_def, UInt32.le_iff_toNat_le] using h
  have hblank : Text.isBlank c = false := Text.isBlank_of_visible ⟨by omega, by omega⟩
  exact isBare_iff.2 ⟨isPlain_of (p := Numeral.isDigit) (by decide) h, hblank⟩

/-- The literals without quotes are bare. -/
theorem isBare_of_mem_write {v : Value} (h : IsWritable v) (hstring : v.string? = none) {c : Char}
    (hc : c ∈ write v) : isBare c = true := by
  cases h with
  | null =>
    have hword : (write .null).all isBare = true := by decide
    exact List.all_eq_true.1 hword c hc
  | bool b =>
    have hword : (write (.bool b)).all isBare = true := by cases b <;> decide
    exact List.all_eq_true.1 hword c hc
  | integer hk =>
    rcases Numeral.mem_integerText hc with rfl | hdigit
    · decide
    · exact isBare_of_isDigit hdigit
  | string htext => cases hstring

/-- A bare text has no quotes around it. -/
theorem quoted?_of_isBare {cs : List Char} (h : ∀ c ∈ cs, isBare c = true) :
    Text.quoted? cs = none := by
  match cs with
  | [] => rfl
  | [_] => rfl
  | first :: second :: rest =>
    have hquote := (isPlain_iff.1 (isBare_iff.1 (h first List.mem_cons_self)).1).1
    rw [Text.quoted?.eq_3 _ _ (by simp), if_neg]
    rintro ⟨rfl | rfl, -⟩ <;> exact absurd hquote (by decide)

theorem trim_of_isBare {cs : List Char} (h : ∀ c ∈ cs, isBare c = true) : Text.trim cs = cs := by
  refine Text.trim_eq_self ?_ ?_
  · intro c hc
    exact (isBare_iff.1 (h c (List.mem_of_mem_head? hc))).2
  · intro c hc
    exact (isBare_iff.1 (h c (List.mem_of_mem_getLast? hc))).2

theorem number?_integerText {k : Int} (h : IsSignedWord k) :
    number? (integerText k) = some (.integer k h.isWordSized) := by
  obtain ⟨n, hn, hk⟩ := Option.bind_eq_some_iff.1 (Numeral.toInt?_integerText k)
  rw [number?, hn, Option.bind_some, hk]
  exact dif_pos h

/-- A text that stands for a number is no word, and is read as that number. -/
theorem ofTrimmed_of_number? {cs : List Char} {n : Number} (hquoted : Text.quoted? cs = none)
    (hnumber : number? cs = some n) : ofTrimmed cs = .number n := by
  have hword (word : List Char) (hnone : number? word = none) : cs ≠ word := by
    rintro rfl
    rw [hnone] at hnumber
    cases hnumber
  rw [ofTrimmed, hquoted, hnumber]
  simp [hword ['t', 'r', 'u', 'e'] rfl, hword ['f', 'a', 'l', 's', 'e'] rfl,
    hword ['n', 'u', 'l', 'l'] rfl]

/-- A literal has no blanks at its ends. -/
theorem trim_write {v : Value} (h : IsWritable v) : Text.trim (write v) = write v := by
  cases hstring : v.string? with
  | none => exact trim_of_isBare fun c hc => isBare_of_mem_write h hstring hc
  | some text =>
    obtain rfl : v = .string text := by
      cases h <;> simp_all [Value.string?]
    exact Text.trim_inQuotes _

theorem write_ne_nil {v : Value} (h : IsWritable v) : write v ≠ [] := by
  cases h with
  | null => decide
  | bool b => cases b <;> decide
  | integer _ => exact Numeral.integerText_ne_nil _
  | string _ => simp [write, Text.inQuotes]

/-- A literal is read back. -/
theorem ofTrimmed_write {v : Value} (h : IsWritable v) : ofTrimmed (write v) = v := by
  cases h with
  | null => rfl
  | bool b => cases b <;> rfl
  | integer hk =>
    exact ofTrimmed_of_number?
      (quoted?_of_isBare fun c hc => isBare_of_mem_write (.integer hk) rfl hc)
      (number?_integerText hk)
  | string htext => simp [ofTrimmed, write, Text.quoted?_inQuotes]

/-- A literal with blanks around it is read back. -/
theorem ofChars_write {v : Value} (h : IsWritable v) {before after : List Char}
    (hbefore : Text.isBlankText before = true) (hafter : Text.isBlankText after = true) :
    ofChars (before ++ write v ++ after) = v := by
  rw [ofChars, Text.trim_pad hbefore hafter, trim_write h, ofTrimmed_write h]

end Stencil.Literal
