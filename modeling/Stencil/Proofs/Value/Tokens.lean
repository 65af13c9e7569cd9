import Stencil.Proofs.Value.Numbers

/-!
# Reading written tokens

What the reader makes of one token that the printer wrote: a gap between tokens changes nothing, a
string is read back as it was, and a number is taken when the first character behind it is read.
-/

namespace Stencil.Reader

variable {r : Reader}

/-- The reader in another mode. -/
def inMode (r : Reader) (mode : Mode) : Reader :=
  { r with mode }

@[simp] theorem mode_inMode (mode : Mode) : (r.inMode mode).mode = mode := rfl

@[simp] theorem root_inMode (mode : Mode) : (r.inMode mode).root = r.root := rfl

@[simp] theorem stack_inMode (mode : Mode) : (r.inMode mode).stack = r.stack := rfl

@[simp] theorem mk_eq_inMode (mode : Mode) : Reader.mk r.root r.stack mode = r.inMode mode := rfl

@[simp] theorem shape_inMode (mode : Mode) : (r.inMode mode).shape = r.shape := rfl

@[simp] theorem isIgnored_inMode (mode : Mode) (isKey : Bool) :
    (r.inMode mode).isIgnored isKey = r.isIgnored isKey := rfl

/-- The mode in which a value is read does not matter for its place. -/
@[simp] theorem place_inMode (mode : Mode) (v : Value) : (r.inMode mode).place v = r.place v := by
  obtain ⟨root, stack, _⟩ := r
  cases stack with
  | nil => rfl
  | cons frame rest => cases frame <;> rfl

@[simp] theorem takeScalar_inMode (mode : Mode) (v : Value) :
    (r.inMode mode).takeScalar v = r.takeScalar v := by
  simp [takeScalar]

@[simp] theorem takeName_inMode (mode : Mode) (name : String) :
    (r.inMode mode).takeName name = r.takeName name := by
  obtain ⟨root, stack, _⟩ := r
  cases stack with
  | nil => rfl
  | cons frame rest => cases frame <;> rfl

@[simp] theorem takeNumber_inMode (mode : Mode) (text : List Char) :
    (r.inMode mode).takeNumber text = r.takeNumber text := by
  simp [takeNumber]

theorem feed_cons_of_ok {r' : Reader} {c : Char} (h : r.step c = .ok r') (rest : List Char) :
    r.feed (c :: rest) = r'.feed rest := by
  rw [feed, h]

theorem feed_append_of_ok {r' : Reader} {cs : List Char} (h : r.feed cs = .ok r')
    (rest : List Char) : r.feed (cs ++ rest) = r'.feed rest := by
  induction cs generalizing r with
  | nil =>
    cases h
    rfl
  | cons c cs ih =>
    rw [feed] at h
    split at h
    · rename_i hstep
      rw [List.cons_append, feed_cons_of_ok hstep, ih h]
    · cases h

theorem feed_cons_of_error {fault : JsonFault} {c : Char} (h : r.step c = .error fault)
    (rest : List Char) : r.feed (c :: rest) = .error fault := by
  rw [feed, h]

/-! ## Gaps -/

/-- Whether a mode is one between two tokens. -/
def Mode.isBetween : Mode → Bool
  | .value _ | .key _ | .colon | .next | .finished _ => true
  | .word _ _ | .number _ _ | .string _ _ _ => false

theorem step_of_isBetween (h : r.mode.isBetween = true) (c : Char) : r.step c = r.stepOther c := by
  obtain ⟨root, stack, mode⟩ := r
  cases mode with
  | number text phase => cases h
  | _ => rfl

theorem step_gap {c : Char} (hmode : r.mode.isBetween = true) (hc : isGap c = true) :
    r.step c = .ok r := by
  obtain ⟨root, stack, mode⟩ := r
  cases mode <;> simp_all [Mode.isBetween, step, stepOther, valueStep]

theorem feed_gaps {gap : List Char} (hmode : r.mode.isBetween = true)
    (hgap : ∀ c ∈ gap, isGap c = true) (rest : List Char) : r.feed (gap ++ rest) = r.feed rest := by
  induction gap with
  | nil => rfl
  | cons c gap ih =>
    rw [List.cons_append, feed_cons_of_ok (step_gap hmode (hgap c List.mem_cons_self))]
    exact ih fun d hd => hgap d (List.mem_cons_of_mem c hd)

theorem isGap_of_mem_newLine {level : Nat} {c : Char} (h : c ∈ Value.newLine level) :
    isGap c = true := by
  rcases List.mem_cons.1 h with rfl | h
  · decide
  · rw [List.eq_of_mem_replicate h]
    decide

theorem feed_newLine (hmode : r.mode.isBetween = true) (level : Nat) (rest : List Char) :
    r.feed (Value.newLine level ++ rest) = r.feed rest :=
  feed_gaps hmode (fun _ => isGap_of_mem_newLine) rest

theorem isBetween_place (v : Value) : (r.place v).mode.isBetween = true := by
  obtain ⟨root, stack, _⟩ := r
  cases stack with
  | nil => rfl
  | cons frame rest => cases frame <;> rfl

/-! ## Words -/

theorem feed_word (h : r.shape = .any) {v : Value} (word : List Char) (hne : word ≠ [])
    (rest : List Char) :
    (r.inMode (.word word v)).feed (word ++ rest) = (r.place v).feed rest := by
  induction word with
  | nil => exact absurd rfl hne
  | cons c word ih =>
    by_cases hword : word = []
    · subst hword
      apply feed_cons_of_ok
      simp [step, stepOther, takeScalar, h]
    · rw [List.cons_append, ← ih hword]
      apply feed_cons_of_ok
      simp [step, stepOther, hword]

theorem feed_null (h : r.shape = .any) (mayClose : Bool) (rest : List Char) :
    (r.inMode (.value mayClose)).feed ('n' :: 'u' :: 'l' :: 'l' :: rest) =
      (r.place .null).feed rest := by
  rw [← feed_word h ['u', 'l', 'l'] (by decide)]
  exact feed_cons_of_ok rfl _

theorem feed_boolText (h : r.shape = .any) (mayClose : Bool) (b : Bool) (rest : List Char) :
    (r.inMode (.value mayClose)).feed (Value.boolText b ++ rest) =
      (r.place (.bool b)).feed rest := by
  cases b with
  | true =>
    rw [← feed_word h ['r', 'u', 'e'] (by decide)]
    exact feed_cons_of_ok rfl _
  | false =>
    rw [← feed_word h ['a', 'l', 's', 'e'] (by decide)]
    exact feed_cons_of_ok rfl _

/-! ## Strings -/

/-- A hexadecimal digit is one byte long and is read back. -/
theorem hexValue?_hexDigit {n : Nat} (h : n < 16) :
    hexValue? (hexDigit n) = some n ∧ (hexDigit n).utf8Size = 1 := by
  have hall : ∀ n < 16, hexValue? (hexDigit n) = some n ∧ (hexDigit n).utf8Size = 1 := by decide
  exact hall n h

theorem step_string {isKey : Bool} {text text' : List Char} {escape escape' : Escape} {c : Char}
    (hc : escape = .plain → c ≠ '"')
    (h : stringStep (r.isIgnored isKey) text escape c = some (text', escape')) :
    (r.inMode (.string isKey text escape)).step c =
      .ok (r.inMode (.string isKey text' escape')) := by
  cases escape with
  | plain =>
    have hquote : c ≠ '"' := hc rfl
    simp [step, stepOther, h]
  | backslash => simp [step, stepOther, h]
  | digits seen code allHex high => simp [step, stepOther, h]
  | lowBackslash high => simp [step, stepOther, h]
  | lowMark high => simp [step, stepOther, h]

theorem stringStep_digit {ignored allHex : Bool} {text : List Char} {seen code n : Nat}
    {high : Option Nat} {c : Char} (hc : hexValue? c = some n) (hsize : c.utf8Size = 1)
    (hseen : seen + 1 < 4) :
    stringStep ignored text (.digits seen code allHex high) c =
      some (text, .digits (seen + 1) (16 * code + n) allHex high) := by
  simp [stringStep, hc, hsize, hseen]

theorem stringStep_lastDigit {text : List Char} {code n : Nat} {high : Option Nat} {c : Char}
    (hc : hexValue? c = some n) (hsize : c.utf8Size = 1) :
    stringStep false text (.digits 3 code true high) c = takeUnit text (16 * code + n) high := by
  simp [stringStep, hc, hsize]

/-- A control character is read back from its code. -/
theorem feed_controlCode {isKey : Bool} (h : r.isIgnored isKey = false) (read : List Char)
    {code : Nat} (hcode : code < 0x20) (rest : List Char) :
    (r.inMode (.string isKey read .plain)).feed
        ('\\' :: 'u' :: '0' :: '0' :: hexDigit (code / 16) :: hexDigit (code % 16) :: rest) =
      (r.inMode (.string isKey (Char.ofNat code :: read) .plain)).feed rest := by
  obtain ⟨hhigh, hhighSize⟩ := hexValue?_hexDigit (n := code / 16) (by omega)
  obtain ⟨hlow, hlowSize⟩ := hexValue?_hexDigit (n := code % 16) (by omega)
  have hunit : takeUnit read (16 * (code / 16) + code % 16) none =
      some (Char.ofNat code :: read, .plain) := by
    have hlowUnit : isLowUnit code = false := by simp [isLowUnit]; omega
    have hhighUnit : isHighUnit code = false := by simp [isHighUnit]; omega
    simp [takeUnit, Nat.div_add_mod, hlowUnit, hhighUnit]
  have hzero : hexValue? '0' = some 0 := by decide
  rw [feed_cons_of_ok (step_string (by simp) rfl), feed_cons_of_ok (step_string (by simp) rfl),
    feed_cons_of_ok (step_string (by simp) (stringStep_digit hzero (by decide) (by decide))),
    feed_cons_of_ok (step_string (by simp) (stringStep_digit hzero (by decide) (by decide))),
    feed_cons_of_ok (step_string (by simp) (stringStep_digit hhigh hhighSize (by decide)))]
  refine feed_cons_of_ok (step_string (by simp) ?_) rest
  rw [h, stringStep_lastDigit hlow hlowSize]
  simpa using hunit

/-- A character of a string is read back from the way it is written. -/
theorem feed_escapeChar {isKey : Bool} (h : r.isIgnored isKey = false) (read : List Char) (c : Char)
    (rest : List Char) :
    (r.inMode (.string isKey read .plain)).feed (escapeChar c ++ rest) =
      (r.inMode (.string isKey (c :: read) .plain)).feed rest := by
  -- a backslash and a letter
  have hletter {letter d : Char} (hu : letter ≠ 'u') (hd : escapedChar? letter = some d) :
      (r.inMode (.string isKey read .plain)).feed ('\\' :: letter :: rest) =
        (r.inMode (.string isKey (d :: read) .plain)).feed rest := by
    rw [feed_cons_of_ok (step_string (by simp) rfl)]
    refine feed_cons_of_ok (step_string (by simp) ?_) _
    simp [stringStep, hu, hd]
  unfold escapeChar
  split
  · subst_vars
    exact hletter (by decide) rfl
  split
  · subst_vars
    exact hletter (by decide) rfl
  split
  · subst_vars
    exact hletter (by decide) rfl
  split
  · subst_vars
    exact hletter (by decide) rfl
  split
  · subst_vars
    exact hletter (by decide) rfl
  split
  · rename_i hc
    rw [← Char.ofNat_toNat c, hc]
    exact hletter (by decide) rfl
  split
  · rename_i hc
    rw [← Char.ofNat_toNat c, hc]
    exact hletter (by decide) rfl
  split
  · rename_i hc
    have hcontrol := feed_controlCode h read hc rest
    rwa [Char.ofNat_toNat] at hcontrol
  · rename_i hquote hbackslash _ _ _ _ _ hc
    refine feed_cons_of_ok (step_string (fun _ => hquote) ?_) _
    simp [stringStep, hbackslash, hc]

theorem feed_escaped {isKey : Bool} (h : r.isIgnored isKey = false) (read cs rest : List Char) :
    (r.inMode (.string isKey read .plain)).feed (cs.flatMap escapeChar ++ rest) =
      (r.inMode (.string isKey (cs.reverse ++ read) .plain)).feed rest := by
  induction cs generalizing read with
  | nil => rfl
  | cons c cs ih =>
    rw [List.flatMap_cons, List.append_assoc, feed_escapeChar h, ih, List.reverse_cons,
      List.append_assoc, List.singleton_append]

/-- A written string is read up to its closing quote. -/
theorem feed_quoteText {isKey : Bool} (h : r.isIgnored isKey = false) {mode : Mode}
    (hquote : (r.inMode mode).step '"' = .ok (r.inMode (.string isKey [] .plain))) (text : String)
    (rest : List Char) :
    (r.inMode mode).feed (quoteText text ++ rest) =
      (r.inMode (.string isKey text.toList.reverse .plain)).feed ('"' :: rest) := by
  rw [quoteText, List.cons_append, List.cons_append, feed_cons_of_ok hquote, List.append_assoc,
    feed_escaped h, List.append_nil, List.singleton_append]

/-- A written string is read back as a value. -/
theorem feed_stringValue (h : r.shape = .any) (mayClose : Bool) (text : String)
    (rest : List Char) :
    (r.inMode (.value mayClose)).feed (quoteText text ++ rest) =
      (r.place (.string text)).feed rest := by
  have hignored : r.isIgnored false = false := by simp [isIgnored, h]
  rw [feed_quoteText hignored rfl]
  apply feed_cons_of_ok
  simp [step, stepOther, takeScalar, h]

/-- A written string is read back as the name of a member. -/
theorem feed_stringName {r' : Reader} {text : String} (h : r.isIgnored true = false)
    (htake : r.takeName text = .ok r') (mayClose : Bool) (rest : List Char) :
    (r.inMode (.key mayClose)).feed (quoteText text ++ rest) = r'.feed rest := by
  rw [feed_quoteText h rfl]
  apply feed_cons_of_ok
  simp [step, stepOther, htake]

/-! ## Numbers -/

/-- A character that ends every number. -/
def EndsNumber (c : Char) : Prop :=
  ∀ phase : Phase, phase.next? c = none

theorem endsNumber_of_not_mem {c : Char} (h : c = ',' ∨ c = '\n') : EndsNumber c := by
  rcases h with rfl | rfl <;> intro phase <;> cases phase <;> decide

theorem feed_run {phase phase' : Phase} {text cs : List Char} (h : phase.run? cs = some phase') :
    (r.inMode (.number text phase)).feed cs =
      .ok (r.inMode (.number (cs.reverse ++ text) phase')) := by
  induction cs generalizing text phase with
  | nil =>
    cases h
    rfl
  | cons c rest ih =>
    rw [Phase.run?_cons, Option.bind_eq_some_iff] at h
    obtain ⟨next, hnext, hrest⟩ := h
    have hstep :
        (r.inMode (.number text phase)).step c = .ok (r.inMode (.number (c :: text) next)) := by
      simp [step, hnext]
    rw [feed_cons_of_ok hstep, ih hrest, List.reverse_cons, List.append_assoc,
      List.singleton_append]

/-- Only digits start a number without a sign. -/
theorem isDigit_of_next?_sign {c : Char} {phase : Phase} (h : Phase.sign.next? c = some phase) :
    Numeral.isDigit c = true := by
  by_contra hc
  have hzero : c ≠ '0' := by
    rintro rfl
    exact hc (by decide)
  simp [Phase.next?, hc, hzero] at h

theorem step_firstDigit {mayClose : Bool} {c : Char} {phase : Phase}
    (h : Phase.sign.next? c = some phase) :
    (r.inMode (.value mayClose)).step c = .ok (r.inMode (.number [c] phase)) := by
  have hdigit := isDigit_of_next?_sign h
  -- every other token starts with a character that is no digit
  have hne {d : Char} (hd : Numeral.isDigit d = false) : c ≠ d := by
    rintro rfl
    simp [hdigit] at hd
  have hgap : isGap c = false := by
    simp [isGap, hne (d := ' ') (by decide), hne (d := '\t') (by decide),
      hne (d := '\n') (by decide), hne (d := '\r') (by decide)]
  simp [step, stepOther, valueStep, hgap, h, hne (d := ']') (by decide),
    hne (d := '[') (by decide), hne (d := '\x7b') (by decide), hne (d := '"') (by decide),
    hne (d := 'n') (by decide), hne (d := 't') (by decide), hne (d := 'f') (by decide),
    hne (d := '-') (by decide)]

/-- The reader is still inside a number when it has read all of its text. -/
theorem feed_numberText {cs : List Char} (h : IsNumberText cs) (mayClose : Bool) :
    ∃ phase : Phase, phase.isComplete = true ∧
      (r.inMode (.value mayClose)).feed cs = .ok (r.inMode (.number cs.reverse phase)) := by
  obtain ⟨negative, unsigned, rfl, phase, hrun, hcomplete⟩ := h
  refine ⟨phase, hcomplete, ?_⟩
  cases negative with
  | true =>
    have hminus : (r.inMode (.value mayClose)).step '-' = .ok (r.inMode (.number ['-'] .sign)) :=
      rfl
    simp only [if_true, List.singleton_append]
    rw [feed_cons_of_ok hminus, feed_run hrun, List.reverse_cons]
  | false =>
    cases unsigned with
    | nil =>
      cases hrun
      cases hcomplete
    | cons c rest =>
      rw [Phase.run?_cons, Option.bind_eq_some_iff] at hrun
      obtain ⟨next, hnext, hrest⟩ := hrun
      simp only [Bool.false_eq_true, if_false, List.nil_append]
      rw [feed_cons_of_ok (step_firstDigit hnext), feed_run hrest, List.reverse_cons]

/-- A number is taken when a character that ends it is read. -/
theorem step_number {phase : Phase} (hcomplete : phase.isComplete = true) {c : Char}
    (hc : EndsNumber c) (h : r.shape = .any) (cs : List Char) :
    (r.inMode (.number cs.reverse phase)).step c =
      (numberOf? cs).elim (.error .malformed) fun n => (r.place (.number n)).step c := by
  -- a digit goes on with every power, so it ends no number
  have hdigit : Numeral.isDigit c = false := by
    by_contra hc'
    simpa [Phase.next?, hc'] using hc .power
  cases hnumber : numberOf? cs with
  | none => simp [step, hc phase, hcomplete, hdigit, takeNumber, h, hnumber]
  | some n =>
    rw [Option.elim_some, step_of_isBetween (isBetween_place (.number n))]
    simp [step, hc phase, hcomplete, hdigit, takeNumber, takeScalar, h, hnumber]

/-- A written number is read as the number that its text stands for. -/
theorem feed_number (h : r.shape = .any) (mayClose : Bool) (n : Number) {c : Char}
    (hc : EndsNumber c) (rest : List Char) :
    (r.inMode (.value mayClose)).feed (n.text ++ c :: rest) =
      (numberOf? n.text).elim (.error .malformed) fun m =>
        (r.place (.number m)).feed (c :: rest) := by
  obtain ⟨phase, hcomplete, hfeed⟩ := feed_numberText (r := r) (isNumberText_text n) mayClose
  rw [feed_append_of_ok hfeed, feed, step_number hcomplete hc h]
  cases numberOf? n.text with
  | none => rfl
  | some m => rfl

/-- A number that is the whole text is read as the number that it stands for. -/
theorem read_numberText {cs : List Char} (h : IsNumberText cs) :
    read .any cs = (numberOf? cs).elim (.error .malformed) fun n => .ok (.number n) := by
  obtain ⟨phase, hcomplete, hfeed⟩ := feed_numberText (r := start .any) h false
  have hstart : (start .any).inMode (.value false) = start .any := rfl
  rw [hstart] at hfeed
  rw [read, hfeed]
  simp only [finish, mode_inMode, hcomplete, if_true, takeNumber_inMode]
  cases hnumber : numberOf? cs with
  | none => simp [takeNumber, hnumber, start, shape]
  | some n => simp [takeNumber, takeScalar, hnumber, start, shape, place]

end Stencil.Reader
