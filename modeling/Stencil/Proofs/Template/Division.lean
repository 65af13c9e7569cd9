import Stencil.Proofs.Text.Pairs
import Stencil.Template.Occurrence

/-!
# How a text is divided into placeholders

Joined again, the pieces of a text are the text. Each placeholder closes at the first closing pair
of braces behind the first opening pair that follows the previous placeholder, its inner text holds
no pair of braces, and no literal piece holds an opening pair with a closing pair somewhere behind
it.
-/

namespace Stencil.Template

/-- The braces that open a placeholder. -/
abbrev opening : List Char := ['{', '{']

/-- The braces that close a placeholder. -/
abbrev closing : List Char := ['}', '}']

/-- A text with an opening pair of braces and a closing pair somewhere behind it. -/
def OpensAndCloses (cs : List Char) : Prop :=
  ∃ front body back, cs = front ++ opening ++ body ++ closing ++ back

/-- The literal text before a placeholder, and the placeholder, are a text whose first opening pair
of braces is followed by no closing pair before its end. -/
def Occurrence.ClosesFirst (o : Occurrence) : Prop :=
  ∃ lead body, o.before ++ o.braced = lead ++ opening ++ body ++ closing ∧
    ¬ opening <:+: lead ++ ['{'] ∧ ¬ closing <:+: body ++ ['}']

/-- The literal pieces of a divided text, in order. -/
def Pieces.literals (p : Pieces) : List (List Char) :=
  p.occurrences.map Occurrence.before ++ [p.tail]

/-- The division of a text into literal pieces and placeholders. -/
structure Pieces.Divides (p : Pieces) (cs : List Char) : Prop where
  join_eq : p.join = cs
  closesFirst : ∀ o ∈ p.occurrences, o.ClosesFirst
  inner_clean : ∀ o ∈ p.occurrences, ¬ opening <:+: o.inner ∧ ¬ closing <:+: o.inner
  literal_clean : ∀ l ∈ p.literals, ¬ OpensAndCloses l

theorem Occurrence.isEscaped_iff {o : Occurrence} :
    o.isEscaped = true ↔ ∃ front, o.before = front ++ ['\\'] := by
  rw [isEscaped, beq_iff_eq, List.getLast?_eq_some_iff]

theorem pieces_of_first?_none {cs : List Char} (h : first? cs = none) :
    pieces cs = { occurrences := [], tail := cs } := by
  rw [pieces]
  split
  · rfl
  · rename_i hsome
    rw [h] at hsome
    cases hsome

theorem pieces_of_first?_some {cs rest : List Char} {o : Occurrence}
    (h : first? cs = some (o, rest)) :
    pieces cs =
      { occurrences := o :: (pieces rest).occurrences, tail := (pieces rest).tail } := by
  rw [pieces]
  split
  · rename_i hnone
    rw [h] at hnone
    cases hnone
  · rename_i hsome
    rw [h] at hsome
    cases hsome
    rfl

theorem pieces_nil : pieces [] = { occurrences := [], tail := [] } :=
  pieces_of_first?_none rfl

theorem hasPair_iff {mark : Char} {cs : List Char} :
    hasPair mark cs = true ↔ [mark, mark] <:+: cs := by
  cases h : Text.cutAtPair mark cs with
  | none => simpa [hasPair, h] using Text.cutAtPair_eq_none_iff.1 h
  | some parts =>
    have hne : Text.cutAtPair mark cs ≠ none := by simp [h]
    rw [Ne, Text.cutAtPair_eq_none_iff, not_not] at hne
    simpa [hasPair, h] using hne

theorem first?_of_not_hasPair {cs : List Char} (h : hasPair '{' cs = false) :
    first? cs = none := by
  have hcut : Text.cutAtPair '{' cs = none := by
    simpa [hasPair] using h
  simp [first?, hcut]

/-- The closing pair that a text holds behind an opening pair stands behind its first opening
pair too. -/
theorem OpensAndCloses.closing_infix {cs lead behind : List Char} (h : OpensAndCloses cs)
    (hcut : Text.cutAtPair '{' cs = some (lead, behind)) : closing <:+: behind := by
  obtain ⟨front, body, back, rfl⟩ := h
  have hfront : Text.cutAtPair '{' (front ++ '{' :: '{' :: (body ++ closing ++ back)) =
      some (lead, behind) := by
    simpa using hcut
  have hrest : body ++ closing ++ back <:+ behind := Text.suffix_of_cutAtPair_append hfront
  exact (List.infix_append body closing back).trans hrest.isInfix

theorem not_opensAndCloses_of_not_infix {cs : List Char} (h : ¬ opening <:+: cs) :
    ¬ OpensAndCloses cs := by
  rintro ⟨front, body, back, rfl⟩
  exact h ⟨front, body ++ closing ++ back, by simp⟩

/-- A text in which no placeholder is found holds no opening pair with a closing pair behind it. -/
theorem not_opensAndCloses_of_first? {cs : List Char} (h : first? cs = none) :
    ¬ OpensAndCloses cs := by
  intro hcs
  cases hlead : Text.cutAtPair '{' cs with
  | none => exact not_opensAndCloses_of_not_infix (Text.cutAtPair_eq_none_iff.1 hlead) hcs
  | some parts =>
    obtain ⟨lead, behind⟩ := parts
    have hclosing : closing <:+: behind := hcs.closing_infix hlead
    have hnone : Text.cutAtPair '}' behind = none := by
      simpa [first?, hlead] using h
    exact Text.cutAtPair_eq_none_iff.1 hnone hclosing

theorem first?_eq_none_iff {cs : List Char} : first? cs = none ↔ ¬ OpensAndCloses cs := by
  constructor
  · exact not_opensAndCloses_of_first?
  · intro h
    cases hfirst : first? cs with
    | none => rfl
    | some found =>
      rcases found with ⟨o, rest⟩
      refine absurd ⟨o.before, o.inner, rest, ?_⟩ h
      rw [eq_of_first? hfirst]
      simp [Occurrence.braced]

/-- How the first placeholder of a text is found: from the first opening pair to the first closing
pair behind it, and inside these from the last opening pair. -/
theorem first?_cases {cs rest : List Char} {o : Occurrence} (h : first? cs = some (o, rest)) :
    ∃ lead body, ¬ opening <:+: lead ++ ['{'] ∧ ¬ closing <:+: body ++ ['}'] ∧
      ((o = { before := lead, inner := body } ∧ ¬ opening <:+: body) ∨
        ∃ stray, o.before = lead ++ '{' :: '{' :: stray ∧
          body = stray ++ '{' :: '{' :: o.inner ∧ ¬ opening <:+: '{' :: o.inner) := by
  obtain ⟨⟨lead, behind⟩, hlead, h⟩ := Option.bind_eq_some_iff.1 h
  obtain ⟨⟨body, r⟩, hbody, h⟩ := Option.map_eq_some_iff.1 h
  obtain ⟨rfl, rfl⟩ := Prod.mk.inj h
  refine ⟨lead, body, Text.not_pair_infix_of_cutAtPair hlead,
    Text.not_pair_infix_of_cutAtPair hbody, ?_⟩
  unfold Occurrence.ofBody
  split
  · rename_i hstray
    exact Or.inl ⟨rfl, Text.cutAtLastPair_eq_none_iff.1 hstray⟩
  · rename_i stray inner hstray
    exact Or.inr ⟨stray, rfl, Text.cutAtLastPair_eq_some hstray,
      Text.not_pair_infix_of_cutAtLastPair hstray⟩

theorem closesFirst_of_first? {cs rest : List Char} {o : Occurrence}
    (h : first? cs = some (o, rest)) : o.ClosesFirst := by
  obtain ⟨lead, body, hlead, hbody, ⟨rfl, -⟩ | ⟨stray, hbefore, rfl, -⟩⟩ := first?_cases h
  · exact ⟨lead, body, by simp [Occurrence.braced], hlead, hbody⟩
  · exact ⟨lead, _, by simp [Occurrence.braced, hbefore], hlead, hbody⟩

theorem inner_clean_of_first? {cs rest : List Char} {o : Occurrence}
    (h : first? cs = some (o, rest)) : ¬ opening <:+: o.inner ∧ ¬ closing <:+: o.inner := by
  obtain ⟨lead, body, -, hbody, ⟨rfl, hinner⟩ | ⟨stray, -, rfl, hinner⟩⟩ := first?_cases h
  · exact ⟨hinner, fun hin => hbody (List.infix_append_of_infix_left hin)⟩
  · -- the inner text is the end of the body, which no closing pair stands in
    refine ⟨fun hin => hinner (List.infix_cons hin), fun hin => hbody ?_⟩
    exact hin.trans ⟨stray ++ opening, ['}'], by simp⟩

theorem before_clean_of_first? {cs rest : List Char} {o : Occurrence}
    (h : first? cs = some (o, rest)) : ¬ OpensAndCloses o.before := by
  obtain ⟨lead, body, hlead, hbody, ⟨rfl, -⟩ | ⟨stray, hbefore, rfl, -⟩⟩ := first?_cases h
  · exact not_opensAndCloses_of_not_infix fun hin => hlead (List.infix_append_of_infix_left hin)
  · -- the closing pair would stand in the stray text, and so in the body
    rw [hbefore]
    intro hboth
    have hstray : closing <:+: stray := hboth.closing_infix (Text.cutAtPair_append hlead stray)
    exact hbody (hstray.trans ⟨[], '{' :: '{' :: o.inner ++ ['}'], by simp⟩)

/-- The pieces of a text are its division. -/
theorem pieces_divides (cs : List Char) : (pieces cs).Divides cs := by
  fun_induction pieces cs with
  | case1 cs h =>
    refine ⟨by simp [Pieces.join], by simp, by simp, ?_⟩
    intro l hl
    obtain rfl : l = cs := by simpa [Pieces.literals] using hl
    exact not_opensAndCloses_of_first? h
  | case2 cs o rest h further ih =>
    refine ⟨?_, ?_, ?_, ?_⟩
    · rw [eq_of_first? h]
      simpa [Pieces.join] using ih.join_eq
    · intro q hq
      rcases List.mem_cons.1 hq with rfl | hq
      · exact closesFirst_of_first? h
      · exact ih.closesFirst q hq
    · intro q hq
      rcases List.mem_cons.1 hq with rfl | hq
      · exact inner_clean_of_first? h
      · exact ih.inner_clean q hq
    · intro l hl
      rcases List.mem_cons.1 hl with rfl | hl
      · exact before_clean_of_first? h
      · exact ih.literal_clean l hl

end Stencil.Template
