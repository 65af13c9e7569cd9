import Stencil.Proofs.Placeholder.Calls

/-!
# Parentheses of calls

A call has no parentheses at all, or its first opening one and a closing one at its end, and the
arguments between these two hold no further ones outside quotes. What stands before the first
opening parenthesis is looked at by no rule for quotes and parentheses: a closing parenthesis there,
or a quote that is left open, is accepted. These are the only calls whose parentheses are misplaced;
every other expression with a dollar sign whose parentheses are misplaced is malformed
(`parentheses_of_parse`).
-/

namespace Stencil.Placeholder

/-- The quote that is open behind a text. -/
def quoteBehind (quote : Option Char) (cs : List Char) : Option Char :=
  cs.foldl quoteAfter quote

/-- The characters of a text that stand outside quotes. -/
def outside (quote : Option Char) : List Char → List Char
  | [] => []
  | c :: rest =>
    if quote = none ∧ isQuote c = false then c :: outside none rest
    else outside (quoteAfter quote c) rest

/-- Whether a character is a parenthesis. -/
def isParenthesis (c : Char) : Bool :=
  c == '(' || c == ')'

/-- The parentheses of a text that stand outside quotes. -/
def parentheses (quote : Option Char) (cs : List Char) : List Char :=
  (outside quote cs).filter isParenthesis

/-- The parentheses of a call as its arguments demand them: outside quotes there are none, or an
opening one and a closing one, which ends the call. -/
def WellPlaced (cs : List Char) : Option (List Value) → Prop
  | none => parentheses none cs = []
  | some _ => parentheses none cs = ['(', ')'] ∧
      ∃ front, cs = front ++ [')'] ∧ quoteBehind none front = none

/-- The parentheses of a call as they are read: none at all, or the first opening one and a closing
one at the end, with no others outside the quotes of the arguments between them. -/
def Parenthesized (cs : List Char) : Option (List Value) → Prop
  | none => '(' ∉ cs ∧ ')' ∉ cs
  | some _ => ∃ head inner, cs = head ++ '(' :: inner ++ [')'] ∧ '(' ∉ head ∧
      parentheses none inner = [] ∧ quoteBehind none inner = none

/-- A text that leaves no quote open before its first opening parenthesis, and has no closing one
outside quotes there. -/
def HeadCloses (cs : List Char) : Prop :=
  quoteBehind none (cs.takeWhile (· ≠ '(')) = none ∧
    ')' ∉ outside none (cs.takeWhile (· ≠ '('))

variable {quote : Option Char} {cs : List Char} {args : Option (List Value)}

/-! ## Outside quotes -/

theorem quoteBehind_append (front back : List Char) :
    quoteBehind quote (front ++ back) = quoteBehind (quoteBehind quote front) back :=
  List.foldl_append

theorem outside_append (front back : List Char) :
    outside quote (front ++ back) =
      outside quote front ++ outside (quoteBehind quote front) back := by
  induction front generalizing quote with
  | nil => rfl
  | cons c rest ih =>
    rw [List.cons_append, outside, outside]
    split
    · rename_i h
      have hnone : quoteAfter quote c = none := by simp [quoteAfter, h]
      rw [ih, List.cons_append, quoteBehind, quoteBehind, List.foldl_cons, hnone]
    · rw [ih]
      rfl

theorem parentheses_append (front back : List Char) :
    parentheses quote (front ++ back) =
      parentheses quote front ++ parentheses (quoteBehind quote front) back := by
  rw [parentheses, outside_append, List.filter_append]
  rfl

theorem mem_of_mem_outside {c : Char} (h : c ∈ outside quote cs) : c ∈ cs := by
  fun_induction outside quote cs with
  | case1 => exact h
  | case2 quote d rest hplain ih =>
    rcases List.mem_cons.1 h with rfl | hrest
    · exact List.mem_cons_self
    · exact List.mem_cons_of_mem d (ih hrest)
  | case3 quote d rest hquote ih => exact List.mem_cons_of_mem d (ih h)

theorem mem_parentheses {c : Char} :
    c ∈ parentheses quote cs ↔ c ∈ outside quote cs ∧ (c = '(' ∨ c = ')') := by
  simp [parentheses, isParenthesis]

/-- A text without parentheses has none outside quotes either. -/
theorem parentheses_of_not_mem (hopen : '(' ∉ cs) (hclose : ')' ∉ outside quote cs) :
    parentheses quote cs = [] := by
  rw [List.eq_nil_iff_forall_not_mem]
  intro c hc
  rcases mem_parentheses.1 hc with ⟨hmem, rfl | rfl⟩
  · exact hopen (mem_of_mem_outside hmem)
  · exact hclose hmem

/-- A state that can be reached: no quote is open, or one that is a quote. -/
def IsReachable (quote : Option Char) : Prop :=
  ∀ q ∈ quote, isQuote q = true

theorem isReachable_none : IsReachable none := by
  simp [IsReachable]

theorem isReachable_quoteAfter (h : IsReachable quote) (c : Char) :
    IsReachable (quoteAfter quote c) := by
  cases quote with
  | none =>
    rw [quoteAfter]
    split
    · rename_i hc
      simpa [IsReachable] using hc
    · exact isReachable_none
  | some q =>
    rw [quoteAfter]
    split
    · exact isReachable_none
    · exact h

/-- A character leads from different states to different ones. -/
theorem quoteAfter_inj {other : Option Char} {c : Char} (h : IsReachable quote)
    (hother : IsReachable other) (heq : quoteAfter quote c = quoteAfter other c) :
    quote = other := by
  -- a quote opens itself and closes itself, and every other character changes nothing
  have hopens {q : Char} (hq : isQuote q = true) : quoteAfter none c ≠ quoteAfter (some q) c := by
    rw [quoteAfter, quoteAfter]
    by_cases hc : c = q
    · simp [hc, hq]
    · by_cases hquote : isQuote c = true
      · simp [hc, hquote]
      · simp [hc, hquote]
  cases quote with
  | none =>
    cases other with
    | none => rfl
    | some p => exact absurd heq (hopens (hother p rfl))
  | some q =>
    cases other with
    | none => exact absurd heq.symm (hopens (h q rfl))
    | some p =>
      rw [quoteAfter, quoteAfter] at heq
      split at heq
      · rename_i hq
        split at heq
        · rename_i hp
          rw [← hq, ← hp]
        · cases heq
      · split at heq
        · cases heq
        · exact heq

/-- A text leads from different states to different ones. -/
theorem quoteBehind_inj {other : Option Char} (h : IsReachable quote) (hother : IsReachable other)
    (heq : quoteBehind quote cs = quoteBehind other cs) : quote = other := by
  induction cs generalizing quote other with
  | nil => exact heq
  | cons c rest ih =>
    have hstates := ih (isReachable_quoteAfter h c) (isReachable_quoteAfter hother c) heq
    exact quoteAfter_inj h hother hstates

theorem isReachable_quoteBehind (h : IsReachable quote) (cs : List Char) :
    IsReachable (quoteBehind quote cs) := by
  induction cs generalizing quote with
  | nil => exact h
  | cons c rest ih => exact ih (isReachable_quoteAfter h c)

/-! ## Calls as they are read -/

/-- Arguments that are split have no parentheses outside quotes, and leave no quote open. -/
theorem parentheses_of_splitArguments {texts : List (List Char)}
    (h : splitArguments quote cs = .ok texts) :
    parentheses quote cs = [] ∧ quoteBehind quote cs = none := by
  -- what is accepted is a comma, or a character that is in quotes or no parenthesis
  induction cs generalizing quote texts with
  | nil =>
    rw [splitArguments] at h
    split at h
    · rename_i hquote
      exact ⟨rfl, hquote⟩
    · cases h
  | cons c rest ih =>
    rw [splitArguments] at h
    split at h
    · rename_i hcomma
      rcases hcomma with ⟨rfl, rfl⟩
      rcases exists_of_map_eq_ok h with ⟨pieces, hpieces, -⟩
      exact ih hpieces
    · split at h
      · cases h
      · rename_i hcomma hparenthesis
        rcases exists_of_map_eq_ok h with ⟨pieces, hpieces, -⟩
        rcases ih hpieces with ⟨hrest, hclosed⟩
        refine ⟨?_, hclosed⟩
        rw [parentheses, outside]
        split
        · rename_i hplain
          rcases hplain with ⟨rfl, hquote⟩
          have hnone : quoteAfter none c = none := by simp [quoteAfter, hquote]
          have hc : isParenthesis c = false := by simpa [isParenthesis] using hparenthesis
          rw [hnone] at hrest
          rw [List.filter_cons_of_neg (by simp [hc])]
          exact hrest
        · exact hrest

theorem parentheses_of_arguments {values : List Value} (h : arguments cs = .ok values) :
    parentheses none cs = [] ∧ quoteBehind none cs = none := by
  rw [arguments] at h
  split at h
  · rename_i hblank
    exact parentheses_of_splitArguments (unbroken_of_isBlankText hblank).splitArguments_eq
  · split at h
    · rename_i texts htexts
      exact parentheses_of_splitArguments htexts
    · cases h

theorem parenthesized_of_splitCall {head : List Char} (h : splitCall cs = .ok (head, args)) :
    Parenthesized cs args := by
  rw [splitCall] at h
  split at h
  · rename_i front behind hcut
    split at h
    · rename_i inner hinner
      rcases exists_of_map_eq_ok h with ⟨values, hvalues, heq⟩
      rcases Prod.mk.inj heq with ⟨rfl, rfl⟩
      rcases parentheses_of_arguments hvalues with ⟨hplain, hclosed⟩
      refine ⟨front, inner, ?_, ?_, hplain, hclosed⟩
      · rw [Text.cutAt_eq_some hcut, Text.dropEnd?_eq_some hinner]
        simp
      · exact Text.not_mem_of_cutAt hcut
    · cases h
  · rename_i hcut
    split at h
    · cases h
    · rename_i hclose
      rcases Prod.mk.inj (Except.ok.inj h) with ⟨rfl, rfl⟩
      exact ⟨Text.cutAt_eq_none_iff.1 hcut, hclose⟩

theorem parenthesized_of_call {source : String} {c : Call} (h : call source cs = .ok c) :
    Parenthesized cs c.args := by
  rw [call] at h
  split at h
  · cases h
  · rename_i head args hsplit
    have hparentheses := parenthesized_of_splitCall hsplit
    split at h
    · cases h
    · simp only at h
      split at h
      · cases h
      · split at h
        · cases h
        · rcases Except.ok.inj h with rfl
          exact hparentheses

theorem parenthesized_dollar (h : Parenthesized cs args) : Parenthesized ('$' :: cs) args := by
  cases args with
  | none => simpa [Parenthesized] using h
  | some values =>
    rcases h with ⟨head, inner, rfl, hhead, hplain, hclosed⟩
    exact ⟨'$' :: head, inner, rfl, by simpa using hhead, hplain, hclosed⟩

/-! ## Well placed parentheses -/

/-- Behind a text that leaves no quote open, the parentheses of a call count. -/
theorem parentheses_call {head inner : List Char} (hhead : quoteBehind none head = none)
    (hplain : parentheses none inner = []) (hclosed : quoteBehind none inner = none) :
    parentheses none (head ++ '(' :: inner ++ [')']) = parentheses none head ++ ['(', ')'] := by
  have hopen (rest : List Char) :
      parentheses none ('(' :: rest) = '(' :: parentheses none rest := by
    simp [parentheses, outside, isQuote, isParenthesis]
  have hclose : parentheses none [')'] = [')'] := rfl
  rw [List.append_assoc, List.cons_append, parentheses_append, hhead, hopen, parentheses_append,
    hplain, hclosed, hclose]
  rfl

theorem takeWhile_head {head rest : List Char} (h : '(' ∉ head) :
    (head ++ '(' :: rest).takeWhile (· ≠ '(') = head := by
  have hall : ∀ c ∈ head, decide (c ≠ '(') = true := by
    intro c hc
    refine decide_eq_true ?_
    rintro rfl
    exact h hc
  rw [List.takeWhile_append_of_pos hall]
  simp

/-- Parentheses that are neither none nor a pair are misplaced, whatever the arguments. -/
theorem not_wellPlaced (hsome : parentheses none cs ≠ [])
    (hpair : parentheses none cs ≠ ['(', ')']) (args : Option (List Value)) :
    ¬ WellPlaced cs args := by
  cases args with
  | none => exact hsome
  | some values => exact fun h => hpair h.1

/-- The parentheses of a call that is read are well placed if and only if nothing before its first
one is misplaced. -/
theorem wellPlaced_iff (h : Parenthesized cs args) :
    WellPlaced cs args ↔ args = none ∨ HeadCloses cs := by
  cases args with
  | none =>
    rcases h with ⟨hopen, hclose⟩
    have hnone : WellPlaced cs none :=
      parentheses_of_not_mem hopen fun hmem => hclose (mem_of_mem_outside hmem)
    simp [hnone]
  | some values =>
    rcases h with ⟨head, inner, rfl, hhead, hplain, hclosed⟩
    have hfirst : (head ++ '(' :: inner ++ [')']).takeWhile (· ≠ '(') = head := by
      rw [List.append_assoc, List.cons_append, takeWhile_head hhead]
    rw [HeadCloses, hfirst]
    constructor
    · rintro ⟨hpair, front, hfront, hquote⟩
      obtain rfl : head ++ '(' :: inner = front := List.append_cancel_right hfront
      -- only the state without an open quote leads to one without an open quote
      have hinner : quoteBehind none ('(' :: inner) = none := hclosed
      rw [quoteBehind_append] at hquote
      have hstate : quoteBehind none head = none :=
        quoteBehind_inj (isReachable_quoteBehind isReachable_none head) isReachable_none
          (hquote.trans hinner.symm)
      rw [parentheses_call hstate hplain hclosed] at hpair
      have hnil : parentheses none head = [] := by simpa using hpair
      refine Or.inr ⟨hstate, ?_⟩
      intro hmem
      have hin := mem_parentheses.2 ⟨hmem, Or.inr rfl⟩
      rw [hnil] at hin
      simp at hin
    · rintro (hnone | ⟨hstate, hclose⟩)
      · cases hnone
      · refine ⟨?_, head ++ '(' :: inner, rfl, ?_⟩
        · rw [parentheses_call hstate hplain hclosed, parentheses_of_not_mem hhead hclose]
          rfl
        · rw [quoteBehind_append, hstate]
          exact hclosed

/-- The expression of a placeholder: what stands before its default, without blanks around it. -/
def expressionOf (text : String) : List Char :=
  Text.trim (splitDefault none text.toList).1

theorem parse_eq (text : String) :
    Placeholder.parse text =
      if expressionOf text = [] then .error (.malformedPlaceholder text .emptyExpression)
      else (Expression.parse (expressionOf text)).map fun expression =>
        { expression
          default := (splitDefault none text.toList).2.map Literal.ofChars
          source := String.ofList (expressionOf text) } :=
  rfl

/-- An expression with a dollar sign is a call, or it is malformed. -/
theorem parse_of_dollar {text : String} (h : expressionOf text = '$' :: cs) :
    (∃ placeholder c, Placeholder.parse text = .ok placeholder ∧
      placeholder.expression = .function c) ∨
    ∃ fault, Placeholder.parse text =
      .error (.malformedPlaceholder (String.ofList ('$' :: cs)) fault) := by
  rw [parse_eq, h, if_neg (by simp), Expression.parse]
  cases call (String.ofList ('$' :: cs)) cs with
  | ok c => exact Or.inl ⟨_, c, rfl, rfl⟩
  | error fault => exact Or.inr ⟨fault, rfl⟩

/-- A call has a dollar sign in front, and its parentheses are read behind it. -/
theorem parenthesized_of_parse {text : String} {placeholder : Placeholder} {c : Call}
    (h : Placeholder.parse text = .ok placeholder) (hcall : placeholder.expression = .function c) :
    Parenthesized (expressionOf text) c.args := by
  rw [parse_eq] at h
  split at h
  · cases h
  · rcases exists_of_map_eq_ok h with ⟨expression, hexpression, rfl⟩
    obtain rfl : expression = .function c := hcall
    unfold Expression.parse at hexpression
    split at hexpression
    · rename_i rest hdollar
      simp only at hexpression
      split at hexpression
      · rename_i d hread
        obtain rfl : d = c := by simpa using hexpression
        rw [hdollar]
        exact parenthesized_dollar (parenthesized_of_call hread)
      · cases hexpression
    · rcases exists_of_map_eq_ok hexpression with ⟨segments, -, hvariable⟩
      cases hvariable

/-- The parentheses of a call that is read are well placed, unless a closing one, or a quote that
stays open, stands before the first opening one. Every other expression with a dollar sign whose
parentheses are misplaced is malformed. -/
theorem parentheses_of_parse (text : String) :
    (∀ placeholder c, Placeholder.parse text = .ok placeholder →
      placeholder.expression = .function c →
        Parenthesized (expressionOf text) c.args ∧
        (WellPlaced (expressionOf text) c.args ↔
          c.args = none ∨ HeadCloses (expressionOf text))) ∧
    ∀ cs, expressionOf text = '$' :: cs →
      ((∀ args, ¬ Parenthesized ('$' :: cs) args) ∨
        HeadCloses ('$' :: cs) ∧ ∀ args, ¬ WellPlaced ('$' :: cs) args) →
      ∃ fault, Placeholder.parse text =
        .error (.malformedPlaceholder (String.ofList ('$' :: cs)) fault) := by
  constructor
  · intro placeholder c hparse hcall
    have hread := parenthesized_of_parse hparse hcall
    exact ⟨hread, wellPlaced_iff hread⟩
  · intro cs hdollar hmisplaced
    rcases parse_of_dollar hdollar with ⟨placeholder, c, hparse, hcall⟩ | hmalformed
    · have hread := parenthesized_of_parse hparse hcall
      rw [hdollar] at hread
      rcases hmisplaced with hnone | ⟨hhead, hnone⟩
      · exact absurd hread (hnone c.args)
      · exact absurd ((wellPlaced_iff hread).2 (Or.inr hhead)) (hnone c.args)
    · exact hmalformed

/-- Parentheses of both kinds inside the quotes of two arguments, and a pair inside another one. -/
theorem parentheses_of_parse_of_quotes :
    let call : Call :=
      { ns := "x", member := "pick", args := some [.string ")(", .string "("]
        source := "$x.pick(')(', \"(\")" }
    Placeholder.parse " $x.pick(')(', \"(\")|d" =
        .ok { expression := .function call, default := some (.string "d"), source := call.source } ∧
      HeadCloses (expressionOf " $x.pick(')(', \"(\")|d") ∧
      WellPlaced (expressionOf " $x.pick(')(', \"(\")|d") call.args ∧
      HeadCloses "$math.round((1))".toList ∧
      (∀ args, ¬ WellPlaced "$math.round((1))".toList args) ∧
      ∃ fault, Placeholder.parse "$math.round((1))" =
        .error (.malformedPlaceholder "$math.round((1))" fault) := by
  intro call
  have hparse : Placeholder.parse " $x.pick(')(', \"(\")|d" =
      .ok { expression := .function call, default := some (.string "d"), source := call.source } :=
    rfl
  have hhead : HeadCloses (expressionOf " $x.pick(')(', \"(\")|d") := by
    constructor <;> decide
  rcases parentheses_of_parse " $x.pick(')(', \"(\")|d" with ⟨haccepted, -⟩
  rcases haccepted _ call hparse rfl with ⟨-, hplaced⟩
  have hround : HeadCloses "$math.round((1))".toList := by
    constructor <;> decide
  have hnested : ∀ args, ¬ WellPlaced "$math.round((1))".toList args :=
    not_wellPlaced (by decide) (by decide)
  rcases parentheses_of_parse "$math.round((1))" with ⟨-, hmalformed⟩
  have hrefused := hmalformed "math.round((1))".toList rfl (Or.inr ⟨hround, hnested⟩)
  exact ⟨hparse, hhead, hplaced.2 (Or.inr hhead), hround, hnested, hrefused⟩

/-- A closing parenthesis before the opening one is read as a part of the member, and is refused
only where there is no opening one. A quote before it hides it. -/
theorem parse_of_parenthesis_in_head :
    let call : Call :=
      { ns := "math", member := "random)", args := some [.number (.integer 1 (by decide))]
        source := "$math.random)(1)" }
    let quoted : Call :=
      { ns := "a", member := "it's", args := some [.number (.integer 1 (by decide))]
        source := "$a.it's(1)" }
    Placeholder.parse "$math.random)(1)" =
        .ok { expression := .function call, default := none, source := call.source } ∧
      parentheses none "$math.random)(1)".toList = [')', '(', ')'] ∧
      (∀ args, ¬ WellPlaced "$math.random)(1)".toList args) ∧
      Placeholder.parse "$math.random)" =
        .error (.malformedPlaceholder "$math.random)" .unexpectedParenthesis) ∧
      Placeholder.parse "$a.it's(1)" =
        .ok { expression := .function quoted, default := none, source := quoted.source } ∧
      parentheses none "$a.it's(1)".toList = [] := by
  intro call quoted
  have hparentheses : parentheses none "$math.random)(1)".toList = [')', '(', ')'] := by decide
  have hmisplaced : ∀ args, ¬ WellPlaced "$math.random)(1)".toList args :=
    not_wellPlaced (by decide) (by decide)
  exact ⟨rfl, hparentheses, hmisplaced, rfl, rfl, by decide⟩

end Stencil.Placeholder
