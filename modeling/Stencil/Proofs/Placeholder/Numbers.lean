import Stencil.Proofs.Double.Numerals
import Stencil.Proofs.Double.Spelling
import Stencil.Proofs.Placeholder.Literals

/-!
# Numbers as literals

A literal without quotes around it is a number if and only if it is spelled as a numeral that is
rounded to a finite double. It is an integer if it has neither point nor power and fits in 64 bits
with a sign, and otherwise that double. Every other text is one of the three words, or it stands for
itself (`parse_of_not_enclosed`).
-/

namespace Stencil.Literal

open Numeral

variable {cs : List Char}

/-! ## Two kinds of numbers -/

/-- An integer of 64 bits is read as that integer. -/
theorem number?_of_integer {k : Int} (h : SpellsInteger k cs) (hk : IsSignedWord k) :
    number? cs = some (.integer k hk.isWordSized) := by
  obtain ⟨n, hn, hint⟩ := Option.bind_eq_some_iff.1 (toInt?_eq_some_iff.2 h)
  rw [number?, hn, Option.bind_some, hint]
  exact dif_pos hk

/-- Every other numeral is read as the double that it is rounded to. -/
theorem number?_of_not_integer (h : ∀ k, SpellsInteger k cs → ¬ IsSignedWord k) {m : Number} :
    number? cs = some m ↔ ∃ n x, Spells n cs ∧ n.RoundsTo x ∧ m = .double x := by
  have hread : number? cs = (ofText? cs).bind fun n => n.toDouble?.map .double := by
    rw [number?]
    cases hn : ofText? cs with
    | none => rfl
    | some n =>
      rw [Option.bind_some, Option.bind_some]
      split
      · rename_i k hint
        have hspells : SpellsInteger k cs := by
          rw [← toInt?_eq_some_iff, hn, Option.bind_some, hint]
        exact dif_neg (h k hspells)
      · rfl
  rw [hread, Option.bind_eq_some_iff]
  constructor
  · rintro ⟨n, hn, hm⟩
    obtain ⟨x, hx, rfl⟩ := Option.map_eq_some_iff.1 hm
    exact ⟨n, x, ofText?_eq_some_iff.1 hn, toDouble?_eq_some_iff.1 hx, rfl⟩
  · rintro ⟨n, x, hn, hx, rfl⟩
    refine ⟨n, ofText?_eq_some_iff.2 hn, ?_⟩
    rw [toDouble?_eq_some_iff.2 hx, Option.map_some]

theorem number?_eq_integer_iff {k : Int} {hk : IsWordSized k} :
    number? cs = some (.integer k hk) ↔ IsSignedWord k ∧ SpellsInteger k cs := by
  constructor
  · intro h
    by_contra hno
    have hnone : ∀ j, SpellsInteger j cs → ¬ IsSignedWord j := by
      intro j hspells hj
      rw [number?_of_integer hspells hj] at h
      cases h
      exact hno ⟨hj, hspells⟩
    obtain ⟨n, x, -, -, hm⟩ := (number?_of_not_integer hnone).1 h
    cases hm
  · rintro ⟨hword, hspells⟩
    exact number?_of_integer hspells hword

theorem number?_eq_double_iff {x : Double} :
    number? cs = some (.double x) ↔
      (∃ n, Spells n cs ∧ n.RoundsTo x) ∧ ∀ k, SpellsInteger k cs → ¬ IsSignedWord k := by
  constructor
  · intro h
    have hnone : ∀ k, SpellsInteger k cs → ¬ IsSignedWord k := by
      intro k hspells hk
      rw [number?_of_integer hspells hk] at h
      cases h
    obtain ⟨n, y, hn, hx, hy⟩ := (number?_of_not_integer hnone).1 h
    cases hy
    exact ⟨⟨n, hn, hx⟩, hnone⟩
  · rintro ⟨⟨n, hn, hx⟩, hnone⟩
    exact (number?_of_not_integer hnone).2 ⟨n, x, hn, hx, rfl⟩

/-- Integers are rounded to doubles as well, so the numerals that are rounded to doubles are all
numbers. -/
theorem exists_number?_iff :
    (∃ m, number? cs = some m) ↔ ∃ n x, Spells n cs ∧ n.RoundsTo x := by
  by_cases hinteger : ∃ k, SpellsInteger k cs ∧ IsSignedWord k
  · obtain ⟨k, hspells, hk⟩ := hinteger
    obtain ⟨n, hn, hint⟩ := Option.bind_eq_some_iff.1 (toInt?_eq_some_iff.2 hspells)
    obtain ⟨x, hx⟩ := exists_roundsTo_iff.2 (magnitude_lt_of_isSignedWord hint hk)
    constructor
    · intro _
      exact ⟨n, x, ofText?_eq_some_iff.1 hn, hx⟩
    · intro _
      exact ⟨_, number?_of_integer hspells hk⟩
  · have hnone : ∀ k, SpellsInteger k cs → ¬ IsSignedWord k := by
      intro k hspells hk
      exact hinteger ⟨k, hspells, hk⟩
    constructor
    · rintro ⟨m, hm⟩
      obtain ⟨n, x, hn, hx, -⟩ := (number?_of_not_integer hnone).1 hm
      exact ⟨n, x, hn, hx⟩
    · rintro ⟨n, x, hn, hx⟩
      exact ⟨.double x, (number?_of_not_integer hnone).2 ⟨n, x, hn, hx, rfl⟩⟩

/-! ## Texts -/

/-- The value of a text that is no number: one of three words, or the text itself. -/
def wordOrText (cs : List Char) : Value :=
  if cs = "true".toList then .bool true
  else if cs = "false".toList then .bool false
  else if cs = "null".toList then .null
  else .string (String.ofList cs)

theorem ofTrimmed_eq (h : ¬ Text.IsEnclosed cs) :
    ofTrimmed cs = (number? cs).elim (wordOrText cs) .number := by
  have hquoted := Text.quoted?_eq_none_iff.2 h
  cases hnumber : number? cs with
  | some m => exact ofTrimmed_of_number? hquoted hnumber
  | none =>
    rw [ofTrimmed, hquoted, hnumber]
    rfl

theorem ofTrimmed_eq_number_iff (h : ¬ Text.IsEnclosed cs) {m : Number} :
    ofTrimmed cs = .number m ↔ number? cs = some m := by
  rw [ofTrimmed_eq h]
  cases number? cs with
  | some other => simp
  | none =>
    have hword : wordOrText cs ≠ .number m := by
      unfold wordOrText
      split
      · simp
      · split
        · simp
        · split
          · simp
          · simp
    simp [hword]

theorem ofTrimmed_of_not_number (h : ¬ Text.IsEnclosed cs) (hnone : ¬ ∃ m, number? cs = some m) :
    ofTrimmed cs = wordOrText cs := by
  rw [ofTrimmed_eq h]
  cases hnumber : number? cs with
  | none => rfl
  | some m => exact absurd ⟨m, hnumber⟩ hnone

theorem wordOrText_eq_string (h : ∀ word ∈ ["true", "false", "null"], cs ≠ word.toList) :
    wordOrText cs = .string (String.ofList cs) := by
  rw [wordOrText, if_neg (h "true" (by simp)), if_neg (h "false" (by simp)),
    if_neg (h "null" (by simp))]

/-- A numeral that is too large stays a text. -/
theorem ofTrimmed_of_overflow (h : ¬ Text.IsEnclosed cs) {n : Numeral} (hn : Spells n cs)
    (hlarge : Double.overflowBound ≤ n.magnitude) : ofTrimmed cs = .string (String.ofList cs) := by
  have hnone : ¬ ∃ m, number? cs = some m := by
    rw [exists_number?_iff]
    rintro ⟨other, x, hother, hx⟩
    obtain rfl := hn.unique hother
    exact absurd (exists_roundsTo_iff.1 ⟨x, hx⟩) hlarge.not_gt
  rw [ofTrimmed_of_not_number h hnone]
  refine wordOrText_eq_string ?_
  rintro word hword rfl
  have hwords : ∀ word ∈ ["true", "false", "null"], looksNumeric word.toList = false := by decide
  have hlooks := hn.looksNumeric
  rw [hwords word hword] at hlooks
  cases hlooks

/-- The words for what is no finite number stay texts. -/
theorem ofTrimmed_of_floatWord (h : ¬ Text.IsEnclosed cs) {negative : Bool} {sign word : List Char}
    (hsign : IsSign negative sign) (hword : IsFloatWord word) (hcs : cs = sign ++ word) :
    ofTrimmed cs = .string (String.ofList cs) := by
  have hnone : ¬ ∃ m, number? cs = some m := by
    rw [exists_number?_iff]
    rintro ⟨n, x, hn, -⟩
    have hlooks := hn.looksNumeric
    rw [hcs, hword.looksNumeric_eq_false] at hlooks
    cases hlooks
  rw [ofTrimmed_of_not_number h hnone]
  refine wordOrText_eq_string ?_
  intro other hother heq
  rw [hcs] at heq
  cases hsign with
  | none =>
    have hlengths : ∀ other ∈ ["true", "false", "null"],
        other.toList.length ≠ 3 ∧ other.toList.length ≠ 8 := by decide
    have hlength := hword.length
    rw [List.nil_append] at heq
    rw [heq] at hlength
    exact hlength.elim (hlengths other hother).1 (hlengths other hother).2
  | plus =>
    have hheads : ∀ other ∈ ["true", "false", "null"], other.toList.head? ≠ some '+' := by decide
    exact hheads other hother (by rw [← heq]; rfl)
  | minus =>
    have hheads : ∀ other ∈ ["true", "false", "null"], other.toList.head? ≠ some '-' := by decide
    exact hheads other hother (by rw [← heq]; rfl)

/-- A text without quotes around it is a number if and only if it is spelled as a numeral that is
rounded to a finite double, which the numerals below half a step above the largest double are.
Numerals are the texts of floating-point numbers with the characters of numerals only. A number is
an integer if it is spelled as one of 64 bits with a sign, and otherwise a numeral is the double
that it is rounded to. What is no number is `true`, `false` or `null`, or it stays a text: so do
numerals that are too large, and words for what is no finite number. -/
theorem parse_of_not_enclosed (text : String)
    (h : ¬ Text.IsEnclosed (Text.trim text.toList)) :
    let u := Text.trim text.toList
    ((∃ m, parse text = .number m) ↔ ∃ n x, Spells n u ∧ n.RoundsTo x) ∧
    (∀ n : Numeral, (∃ x, n.RoundsTo x) ↔ n.magnitude < 2 ^ 1024 - 2 ^ 970) ∧
    ((∃ n, Spells n u) ↔ looksNumeric u = true ∧ IsFloatText u) ∧
    (∀ k hk, parse text = .number (.integer k hk) ↔ IsSignedWord k ∧ SpellsInteger k u) ∧
    (∀ x, parse text = .number (.double x) ↔
      (∃ n, Spells n u ∧ n.RoundsTo x) ∧ ∀ k, SpellsInteger k u → ¬ IsSignedWord k) ∧
    ((¬ ∃ m, parse text = .number m) → parse text = wordOrText u) ∧
    (∀ n, Spells n u → (¬ ∃ x, n.RoundsTo x) → parse text = .string (String.ofList u)) ∧
    (∀ negative sign word, IsSign negative sign → IsFloatWord word → u = sign ++ word →
      parse text = .string (String.ofList u)) := by
  intro u
  have hparse : parse text = ofTrimmed u := rfl
  rw [hparse]
  have hnumber : (∃ m, ofTrimmed u = .number m) ↔ ∃ m, number? u = some m :=
    exists_congr fun _ => ofTrimmed_eq_number_iff h
  refine ⟨?_, fun n => exists_roundsTo_iff, exists_spells_iff, ?_, ?_, ?_, ?_, ?_⟩
  · rw [hnumber]
    exact exists_number?_iff
  · intro k hk
    rw [ofTrimmed_eq_number_iff h]
    exact number?_eq_integer_iff
  · intro x
    rw [ofTrimmed_eq_number_iff h]
    exact number?_eq_double_iff
  · intro hnone
    rw [hnumber] at hnone
    exact ofTrimmed_of_not_number h hnone
  · intro n hn hlarge
    rw [exists_roundsTo_iff, not_lt] at hlarge
    exact ofTrimmed_of_overflow h hn hlarge
  · intro negative sign word hsign hword hcs
    exact ofTrimmed_of_floatWord h hsign hword hcs

/-- A sign and leading zeros between blanks, a power that is too large, and infinity. -/
theorem parse_of_not_enclosed_of_borders :
    ¬ Text.IsEnclosed (Text.trim " +007\t".toList) ∧ ¬ Text.IsEnclosed (Text.trim "1e400".toList) ∧
      ¬ Text.IsEnclosed (Text.trim "-iNf".toList) ∧
      parse " +007\t" = .number (.integer 7 (by decide)) ∧ parse "1e400" = .string "1e400" ∧
      parse "-iNf" = .string "-iNf" := by
  have hzeros : ¬ Text.IsEnclosed (Text.trim " +007\t".toList) :=
    Text.quoted?_eq_none_iff.1 (by decide)
  have hpower : ¬ Text.IsEnclosed (Text.trim "1e400".toList) :=
    Text.quoted?_eq_none_iff.1 (by decide)
  have hword : ¬ Text.IsEnclosed (Text.trim "-iNf".toList) :=
    Text.quoted?_eq_none_iff.1 (by decide)
  refine ⟨hzeros, hpower, hword, ?_, ?_, ?_⟩
  · obtain ⟨-, -, -, hinteger, -⟩ := parse_of_not_enclosed " +007\t" hzeros
    have hspells : SpellsInteger 7 (Text.trim " +007\t".toList) :=
      toInt?_eq_some_iff.1 (by decide)
    exact (hinteger 7 _).2 ⟨by decide, hspells⟩
  · obtain ⟨-, -, -, -, -, -, hlarge, -⟩ := parse_of_not_enclosed "1e400" hpower
    let n : Numeral := { negative := false, whole := ['1'], fraction := none, power := some 400 }
    have hspells : Spells n (Text.trim "1e400".toList) := ofText?_eq_some_iff.1 (by decide)
    refine hlarge n hspells ?_
    rw [exists_roundsTo_iff, not_lt, magnitude_eq]
    exact overflowBound_le_of_large (by decide) (by decide)
  · obtain ⟨-, -, -, -, -, -, -, hfloat⟩ := parse_of_not_enclosed "-iNf" hword
    have hletters : IsFloatWord ['i', 'N', 'f'] := by
      refine ⟨"inf", by simp, ?_⟩
      simp
    exact hfloat true ['-'] ['i', 'N', 'f'] .minus hletters (by decide)

end Stencil.Literal
