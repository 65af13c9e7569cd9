import Stencil.Proofs.Template.Wholeness

/-!
# Where placeholders open

The inner text of a placeholder is what stands between its closing pair of braces and the last
opening pair before that, and everything in front of this opening pair is literal text. There is
one exception: where all opening pairs behind the placeholder before stand in one run of three
braces, the placeholder opens with the first two of them, and the third one belongs to its inner
text (`evaluates_behind_last_opening`).
-/

namespace Stencil.Template

/-- The text that a row of occurrences takes up. -/
def spanOf (os : List Occurrence) : List Char :=
  os.flatMap fun o => o.before ++ o.braced

/-- The division of a text at the last place where an opening pair stands. -/
def LastOpening (text literal inner : List Char) : Prop :=
  text = literal ++ opening ++ inner ∧
    ∀ front back, text = front ++ opening ++ back → front.length ≤ literal.length

/-- A text all of whose opening pairs stand in one run of three braces. -/
def OpensByThree (text : List Char) : Prop :=
  ∃ lead core, text = lead ++ opening ++ '{' :: core ∧
    ¬ opening <:+: lead ++ ['{'] ∧ ¬ opening <:+: '{' :: core

variable {cs here literal inner rest : List Char} {o : Occurrence}

/-- Each placeholder is the first one of the text behind those before it. -/
theorem exists_first?_of_occurrences {front back : List Occurrence}
    (h : (pieces cs).occurrences = front ++ o :: back) :
    ∃ here rest, cs = spanOf front ++ here ∧ first? here = some (o, rest) := by
  induction cs using pieces.induct generalizing front with
  | case1 cs hnone =>
    rw [pieces_of_first?_none hnone] at h
    simp at h
  | case2 cs p rest hfirst ih =>
    rw [pieces_of_first?_some hfirst] at h
    cases front with
    | nil =>
      rcases List.cons.inj h with ⟨rfl, -⟩
      exact ⟨cs, rest, by simp [spanOf], hfirst⟩
    | cons q front =>
      rcases List.cons.inj h with ⟨rfl, hfurther⟩
      rcases ih hfurther with ⟨here, behind, hrest, hhere⟩
      refine ⟨here, behind, ?_, hhere⟩
      rw [eq_of_first? hfirst, hrest]
      simp [spanOf]

/-- A pair is the last one if no other one starts with its second brace or behind it. -/
theorem lastOpening_iff :
    LastOpening (literal ++ opening ++ inner) literal inner ↔ ¬ opening <:+: '{' :: inner := by
  constructor
  · rintro ⟨-, hlast⟩ ⟨front, back, hlater⟩
    have hplace : literal ++ opening ++ inner = (literal ++ '{' :: front) ++ opening ++ back := by
      simpa using hlater.symm
    have hlength := hlast _ _ hplace
    simp only [List.length_append, List.length_cons] at hlength
    omega
  · intro hclean
    refine ⟨rfl, ?_⟩
    intro front back hplace
    by_contra hlonger
    -- a pair that starts later starts behind the first brace of the given one
    have hbrace : literal ++ ['{'] <+: literal ++ opening ++ inner := ⟨'{' :: inner, by simp⟩
    have hfront : front <+: literal ++ opening ++ inner := ⟨opening ++ back, by simp [hplace]⟩
    have hin : literal ++ ['{'] <+: front :=
      List.prefix_of_prefix_length_le hbrace hfront (by simp; omega)
    rcases hin with ⟨middle, rfl⟩
    apply hclean
    refine ⟨middle, back, ?_⟩
    simpa using hplace.symm

/-- A placeholder opens before the last pair only where its braces are a run of three. -/
theorem opensByThree_iff (h : first? here = some (o, rest)) :
    OpensByThree (o.before ++ opening ++ o.inner) ↔ opening <:+: '{' :: o.inner := by
  rcases first?_cases h with
    ⟨lead, body, hlead, hbody, ⟨rfl, hplain⟩ | ⟨stray, hbefore, rfl, hplain⟩⟩
  · -- the first opening pair is the one that the placeholder opens with
    constructor
    · rintro ⟨front, core, htext, hfront, hcore⟩
      have hfirst : lead ++ '{' :: '{' :: body = front ++ '{' :: '{' :: '{' :: core := by
        simpa using htext
      rcases Text.first_pair_unique hlead hfront hfirst with ⟨-, rfl⟩
      exact ⟨[], core, rfl⟩
    · intro hlater
      rw [Text.pair_infix_cons_mark, or_iff_left hplain] at hlater
      rcases List.head?_eq_some_iff.1 hlater with ⟨core, rfl⟩
      exact ⟨lead, core, rfl, hlead, hplain⟩
  · -- a stray pair stands in front of it, so no run of three braces holds both
    rw [iff_false_right hplain]
    rintro ⟨front, core, htext, hfront, hcore⟩
    have hfirst : lead ++ '{' :: '{' :: (stray ++ opening ++ o.inner) =
        front ++ '{' :: '{' :: '{' :: core := by
      simpa [hbefore] using htext
    rcases Text.first_pair_unique hlead hfront hfirst with ⟨-, hcores⟩
    exact hcore ⟨stray, o.inner, hcores⟩

/-- Behind a run of three braces the last pair is the one of the second and the third brace. -/
theorem lastOpening_of_opensByThree (h : first? here = some (o, rest))
    (hthree : OpensByThree (o.before ++ opening ++ o.inner)) (literal : List Char) :
    ∃ core, o.inner = '{' :: core ∧
      LastOpening (literal ++ opening ++ o.inner) (literal ++ ['{']) core := by
  have hplain : ¬ opening <:+: o.inner := (inner_clean_of_first? h).1
  have hlater := (opensByThree_iff h).1 hthree
  rw [Text.pair_infix_cons_mark, or_iff_left hplain] at hlater
  rcases List.head?_eq_some_iff.1 hlater with ⟨core, hcore⟩
  refine ⟨core, hcore, ?_⟩
  have htext : literal ++ opening ++ o.inner = (literal ++ ['{']) ++ opening ++ core := by
    simp [hcore]
  rw [hcore] at hplain
  rw [htext, lastOpening_iff]
  exact hplain

end Stencil.Template

namespace Stencil.Resolver

open Template

/-- The inner text of an occurrence that is evaluated stands behind the last opening pair before its
closing pair, and all that stands in front of that pair stays as it is, unless the opening pairs
behind the occurrence before stand in one run of three braces. Then the last pair is one brace
further on. -/
theorem evaluates_behind_last_opening (r : Resolver) {cs : List Char}
    {front back : List Occurrence} {o : Occurrence}
    (h : (pieces cs).occurrences = front ++ o :: back) (hskips : r.skips o = false) :
    let literal := spanOf front ++ o.before
    (∃ rest, cs = literal ++ opening ++ o.inner ++ closing ++ rest) ∧
      (r.interpolate cs = do
        let done ← r.occurrencesText [] front
        let v ← r.resolvePlaceholder (String.ofList o.inner)
        let further ← r.occurrencesText (pieces cs).tail back
        return done ++ (o.before ++ v.plainText.toList ++ further)) ∧
      (LastOpening (literal ++ opening ++ o.inner) literal o.inner ↔
        ¬ OpensByThree (o.before ++ opening ++ o.inner)) ∧
      (OpensByThree (o.before ++ opening ++ o.inner) →
        ∃ core, o.inner = '{' :: core ∧
          LastOpening (literal ++ opening ++ o.inner) (literal ++ ['{']) core) := by
  intro literal
  rcases exists_first?_of_occurrences h with ⟨here, rest, hcs, hfirst⟩
  refine ⟨⟨rest, ?_⟩, ?_, ?_, ?_⟩
  · rw [hcs, eq_of_first? hfirst]
    simp [literal, Occurrence.braced]
  · rw [interpolate, h, occurrencesText_append]
    simp [occurrencesText, occurrenceText_of_not_skips hskips]
  · rw [lastOpening_iff, opensByThree_iff hfirst]
  · intro hthree
    exact lastOpening_of_opensByThree hfirst hthree literal

/-- A run of three braces behind a stray pair: the variable `a` stands behind the last pair. -/
theorem evaluates_behind_last_opening_of_stray :
    let r : Resolver :=
      { store := ({} : Store).set .globals "a" (.bool true)
        functions := .ofList []
        settings := {} }
    let first : Occurrence := { before := [], inner := ['a'] }
    let second : Occurrence := { before := " \x7b\x7bb \x7b".toList, inner := ['a'] }
    let text := "\x7b\x7ba\x7d\x7d \x7b\x7bb \x7b\x7b\x7ba\x7d\x7d".toList
    (pieces text).occurrences = [first] ++ second :: [] ∧ r.skips second = false ∧
      LastOpening "\x7b\x7ba\x7d\x7d \x7b\x7bb \x7b\x7b\x7ba".toList
        "\x7b\x7ba\x7d\x7d \x7b\x7bb \x7b".toList ['a'] ∧
      r.interpolate text = pure "true \x7b\x7bb \x7btrue".toList := by
  intro r first second text
  have hfirst : first? text = some (first, " \x7b\x7bb \x7b\x7b\x7ba\x7d\x7d".toList) := by decide
  have hsecond : first? " \x7b\x7bb \x7b\x7b\x7ba\x7d\x7d".toList = some (second, []) := by decide
  have hpieces : pieces text = { occurrences := [first] ++ second :: [], tail := [] } := by
    rw [pieces_of_first?_some hfirst, pieces_of_first?_some hsecond, pieces_nil]
    rfl
  have hoccurrences : (pieces text).occurrences = [first] ++ second :: [] := by rw [hpieces]
  have hskips : r.skips second = false := by decide
  have hthree : ¬ OpensByThree (second.before ++ opening ++ second.inner) := by
    rw [opensByThree_iff hsecond]
    decide
  have hdone : r.occurrencesText [] [{ before := [], inner := ['a'] }] = pure "true".toList := rfl
  have hvalue : r.resolvePlaceholder (String.ofList ['a']) = pure (.bool true) := rfl
  rcases evaluates_behind_last_opening r hoccurrences hskips with ⟨-, htext, hlast, -⟩
  refine ⟨hoccurrences, hskips, hlast.2 hthree, ?_⟩
  rw [htext, hpieces, hdone, hvalue]
  rfl

/-- Three braces behind other text: the variable `a` stands behind the last pair, and one whose name
starts with a brace is looked for. -/
theorem not_lastOpening_of_three_braces :
    let r : Resolver :=
      { store := ({} : Store).set .globals "a" (.bool true)
        functions := .ofList []
        settings := {} }
    let o : Occurrence := { before := ['n', '='], inner := ['\x7b', 'a'] }
    let text := "n=\x7b\x7b\x7ba\x7d\x7d".toList
    (pieces text).occurrences = [o] ∧ r.skips o = false ∧
      ¬ LastOpening "n=\x7b\x7b\x7ba".toList ['n', '='] o.inner ∧
      LastOpening "n=\x7b\x7b\x7ba".toList ['n', '=', '\x7b'] ['a'] ∧
      r.interpolate text = Eval.fail (.unresolvedVariable "\x7ba") ∧
      r.resolvePlaceholder "a" = pure (.bool true) := by
  intro r o text
  have hfirst : first? text = some (o, []) := by decide
  have hpieces : pieces text = { occurrences := [o], tail := [] } := by
    rw [pieces_of_first?_some hfirst, pieces_nil]
  have hthree : ¬ LastOpening (['n', '='] ++ opening ++ o.inner) ['n', '='] o.inner := by
    rw [lastOpening_iff]
    decide
  have hlast : LastOpening (['n', '=', '\x7b'] ++ opening ++ ['a']) ['n', '=', '\x7b'] ['a'] := by
    rw [lastOpening_iff]
    decide
  have hskips : r.skips o = false := by decide
  have hmissing : r.resolvePlaceholder (String.ofList ['\x7b', 'a']) =
      Eval.fail (.unresolvedVariable "\x7ba") := rfl
  refine ⟨by rw [hpieces], hskips, hthree, hlast, ?_, rfl⟩
  rw [interpolate_of_pieces hpieces hskips, hmissing]
  rfl

end Stencil.Resolver
