import Stencil.Value.Reader
import Stencil.Proofs.Double.Decimals

/-!
# The texts of numbers

The reader takes a number through eight phases. The decimal texts of integers and doubles all end in
a phase where a number may end, and an integer of 64 bits is read back from its text.
-/

namespace Stencil.Reader

/-- The place behind further characters of a number. -/
def Phase.run? (phase : Phase) : List Char → Option Phase
  | [] => some phase
  | c :: rest => (phase.next? c).bind (run? · rest)

@[simp] theorem Phase.run?_nil (phase : Phase) : phase.run? [] = some phase := rfl

@[simp] theorem Phase.run?_cons (phase : Phase) (c : Char) (rest : List Char) :
    phase.run? (c :: rest) = (phase.next? c).bind (·.run? rest) := rfl

theorem Phase.run?_append (phase : Phase) (front back : List Char) :
    phase.run? (front ++ back) = (phase.run? front).bind (·.run? back) := by
  induction front generalizing phase with
  | nil => rfl
  | cons c rest ih => simp [ih, Option.bind_assoc]

/-- Digits lead from one place to another and stay there. -/
theorem Phase.run?_digits {phase rest : Phase}
    (hfirst : ∀ c, Numeral.isDigit c = true → phase.next? c = some rest)
    (hrest : ∀ c, Numeral.isDigit c = true → rest.next? c = some rest) {cs : List Char}
    (hne : cs ≠ []) (hcs : ∀ c ∈ cs, Numeral.isDigit c = true) : phase.run? cs = some rest := by
  induction cs generalizing phase with
  | nil => exact absurd rfl hne
  | cons c cs ih =>
    rw [run?_cons, hfirst c (hcs c List.mem_cons_self), Option.bind_some]
    by_cases hcs' : cs = []
    · rw [hcs', run?_nil]
    · exact ih hrest hcs' fun d hd => hcs d (List.mem_cons_of_mem c hd)

/-- Digits that do not start with a zero are a whole number. -/
theorem Phase.run?_sign {c : Char} {rest : List Char} (hc : c ≠ '0')
    (hdigits : ∀ d ∈ c :: rest, Numeral.isDigit d = true) :
    Phase.sign.run? (c :: rest) = some .whole := by
  have hfirst : Phase.sign.next? c = some .whole := by
    simp [next?, hc, hdigits c List.mem_cons_self]
  rw [run?_cons, hfirst, Option.bind_some]
  by_cases hrest : rest = []
  · rw [hrest, run?_nil]
  · refine run?_digits ?_ ?_ hrest fun d hd => hdigits d (List.mem_cons_of_mem c hd)
    all_goals
      intro d hd
      simp [next?, hd]

theorem Phase.run?_point {cs : List Char} (hne : cs ≠ [])
    (hcs : ∀ c ∈ cs, Numeral.isDigit c = true) : Phase.point.run? cs = some .fraction := by
  refine run?_digits ?_ ?_ hne hcs
  all_goals
    intro d hd
    simp [next?, hd]

theorem Phase.run?_markSign {cs : List Char} (hne : cs ≠ [])
    (hcs : ∀ c ∈ cs, Numeral.isDigit c = true) : Phase.markSign.run? cs = some .power := by
  refine run?_digits ?_ ?_ hne hcs
  all_goals
    intro d hd
    simp [next?, hd]

/-- A number without its sign. -/
def IsUnsigned (cs : List Char) : Prop :=
  ∃ phase, Phase.sign.run? cs = some phase ∧ phase.isComplete = true

/-- A text that is a number. -/
def IsNumberText (cs : List Char) : Prop :=
  ∃ (negative : Bool) (unsigned : List Char),
    cs = (if negative then ['-'] else []) ++ unsigned ∧ IsUnsigned unsigned

theorem isUnsigned_toDigits (n : Nat) : IsUnsigned (Nat.toDigits 10 n) := by
  by_cases h : n = 0
  · subst h
    exact ⟨.zero, by decide, rfl⟩
  · obtain ⟨c, rest, hdigits, hc⟩ := Numeral.head_toDigits h
    refine ⟨.whole, ?_, rfl⟩
    rw [hdigits]
    exact Phase.run?_sign hc fun d hd => Numeral.isDigit_of_mem_toDigits (hdigits ▸ hd)

theorem isNumberText_integerText (n : Int) : IsNumberText (integerText n) :=
  ⟨decide (n < 0), Nat.toDigits 10 n.natAbs, by simp [integerText], isUnsigned_toDigits _⟩

/-- A whole number and a fraction with a point between them are a number. -/
theorem isUnsigned_point {c : Char} {whole fraction : List Char} (hc : c ≠ '0')
    (hwhole : ∀ d ∈ c :: whole, Numeral.isDigit d = true) (hne : fraction ≠ [])
    (hfraction : ∀ d ∈ fraction, Numeral.isDigit d = true) :
    IsUnsigned (c :: whole ++ '.' :: fraction) := by
  have hpoint : Phase.whole.next? '.' = some .point := by decide
  refine ⟨.fraction, ?_, rfl⟩
  rw [Phase.run?_append, Phase.run?_sign hc hwhole, Option.bind_some, Phase.run?_cons, hpoint,
    Option.bind_some, Phase.run?_point hne hfraction]

/-- A proper decimal is written as a number, in each of the three ways to write one. -/
theorem isUnsigned_text {x : Double.Decimal} (h : x.IsProper) : IsUnsigned x.text := by
  obtain ⟨c, rest, hdigits, hc⟩ := h.first
  have hall : ∀ d ∈ c :: rest, Numeral.isDigit d = true := hdigits ▸ h.isDigit
  have hrest : ∀ d ∈ rest, Numeral.isDigit d = true := fun d hd =>
    hall d (List.mem_cons_of_mem c hd)
  have hzeros (k : Nat) : ∀ d ∈ List.replicate k '0', Numeral.isDigit d = true := by
    intro d hd
    rw [List.eq_of_mem_replicate hd]
    decide
  unfold Double.Decimal.text
  rw [hdigits]
  split
  · split
    · -- the digits up to the ones, filled up with zeros, and at least one digit behind the point
      simp only [List.take_succ_cons, List.drop_succ_cons, List.cons_append]
      apply isUnsigned_point hc
      · intro d hd
        rcases List.mem_cons.1 hd with rfl | hd
        · exact hall d List.mem_cons_self
        · rcases List.mem_append.1 hd with hd | hd
          · exact hrest d (List.mem_of_mem_take hd)
          · exact hzeros _ d hd
      · split
        · simp
        · assumption
      · intro d hd
        split at hd
        · rw [List.mem_singleton.1 hd]
          decide
        · exact hrest d (List.mem_of_mem_drop hd)
    · -- a zero in front of the point and more of them behind it
      refine ⟨.fraction, ?_, rfl⟩
      have hstart (cs : List Char) : Phase.sign.run? ('0' :: '.' :: cs) = Phase.point.run? cs := rfl
      rw [List.cons_append, List.cons_append, hstart]
      refine Phase.run?_point (by simp) fun d hd => ?_
      rcases List.mem_append.1 hd with hd | hd
      · exact hzeros _ d hd
      · exact hall d hd
  · -- one digit in front of the point, no point without a fraction, and a power of ten
    refine ⟨.power, ?_, rfl⟩
    have hfirst : Phase.sign.run? [c] = some .whole :=
      Phase.run?_sign hc fun d hd => hall d (by simp_all)
    have hmark (phase : Phase) (hphase : phase = .whole ∨ phase = .fraction) (cs : List Char) :
        phase.run? ('e' :: (if x.exponent < 0 then '-' else '+') :: cs) =
          Phase.markSign.run? cs := by
      rcases hphase with rfl | rfl <;> split <;> rfl
    have hpower : Phase.markSign.run? (Nat.toDigits 10 x.exponent.natAbs) = some .power :=
      Phase.run?_markSign Nat.toDigits_ne_nil fun d hd => Numeral.isDigit_of_mem_toDigits hd
    simp only [List.take_succ_cons, List.take_zero, List.drop_succ_cons, List.drop_zero]
    rw [List.append_assoc, Phase.run?_append, hfirst, Option.bind_some]
    split
    · rw [List.nil_append, hmark .whole (.inl rfl), hpower]
    · rename_i hne
      have hpoint (cs : List Char) : Phase.whole.run? ('.' :: cs) = Phase.point.run? cs := rfl
      rw [List.cons_append, hpoint, Phase.run?_append, Phase.run?_point hne hrest,
        Option.bind_some, hmark .fraction (.inr rfl), hpower]

theorem isNumberText_doubleText (x : Double) : IsNumberText x.text := by
  refine ⟨x.negative, _, rfl, ?_⟩
  split
  · exact ⟨.fraction, by decide, rfl⟩
  · rename_i hrank
    exact isUnsigned_text (Double.isProper_shortestDecimal hrank)

theorem isNumberText_text (n : Number) : IsNumberText n.text := by
  cases n with
  | integer n _ => exact isNumberText_integerText n
  | double x => exact isNumberText_doubleText x

end Stencil.Reader
