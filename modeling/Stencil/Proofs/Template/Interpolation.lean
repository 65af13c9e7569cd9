import Stencil.Proofs.Evaluation
import Stencil.Proofs.Template.Division
import Stencil.Template.Resolver

/-!
# Interpolation is one pass

The result of interpolating a text is read off its division: literal pieces are copied, an escaped
placeholder is copied without its backslash, and every other placeholder is replaced by the text of
its value. The values are found from left to right, each in the world that the one before left, and
the first failure among them is the failure of the whole (`interpolate_single_pass`).
-/

namespace Stencil.Resolver

open Template

/-- Whether an occurrence is copied as it is written instead of being evaluated. -/
def skips (r : Resolver) (o : Occurrence) : Bool :=
  o.isEscaped && r.settings.allowEscapes

/-- Exactly the occurrences right behind a backslash are copied, if escapes are allowed. -/
theorem skips_iff {r : Resolver} {o : Occurrence} :
    r.skips o = true ↔ r.settings.allowEscapes = true ∧ ∃ front, o.before = front ++ ['\\'] := by
  rw [skips, Bool.and_eq_true, Occurrence.isEscaped_iff, and_comm]

/-- What a row of occurrences becomes, from the world before them to the world behind them. -/
inductive Renders (r : Resolver) : World → List Occurrence → List Char → World → Prop where
  | nil (w : World) : Renders r w [] [] w
  | copied {w w' : World} {o : Occurrence} {rest : List Occurrence} {front text : List Char}
      (hskips : r.skips o = true) (hbefore : o.before = front ++ ['\\'])
      (hrest : Renders r w rest text w') :
      Renders r w (o :: rest) (front ++ o.braced ++ text) w'
  | evaluated {w w₁ w' : World} {o : Occurrence} {rest : List Occurrence} {v : Value}
      {text : List Char} (hskips : r.skips o = false)
      (hvalue : (r.resolvePlaceholder (String.ofList o.inner)).runIn w = (.ok v, w₁))
      (hrest : Renders r w₁ rest text w') :
      Renders r w (o :: rest) (o.before ++ v.plainText.toList ++ text) w'

variable {r : Resolver} {o : Occurrence} {os : List Occurrence} {w w' : World}

/-- The text of a copied occurrence. -/
theorem occurrenceText_of_skips (h : r.skips o = true) :
    r.occurrenceText o = pure (o.before.dropLast ++ o.braced) := by
  obtain ⟨hallowed, hbefore⟩ := skips_iff.1 h
  rw [occurrenceText, if_pos ⟨Occurrence.isEscaped_iff.2 hbefore, hallowed⟩]

/-- The text of an evaluated occurrence. -/
theorem occurrenceText_of_not_skips (h : r.skips o = false) :
    r.occurrenceText o =
      r.resolvePlaceholder (String.ofList o.inner) >>= fun v =>
        pure (o.before ++ v.plainText.toList) := by
  have hnot : ¬ (o.isEscaped = true ∧ r.settings.allowEscapes = true) := by
    simpa [skips] using h
  rw [occurrenceText, if_neg hnot]

/-- A copied occurrence has a backslash at the end of its literal text. -/
theorem exists_before_of_skips (h : r.skips o = true) : ∃ front, o.before = front ++ ['\\'] :=
  (skips_iff.1 h).2

/-- How a row of occurrences fails: some of them have their texts, and the next one, which is
evaluated, has no value. -/
def Fails (r : Resolver) (w : World) (os : List Occurrence) (s : Stop) (w' : World) : Prop :=
  ∃ front o back text w₁, os = front ++ o :: back ∧ Renders r w front text w₁ ∧
    r.skips o = false ∧
    (r.resolvePlaceholder (String.ofList o.inner)).runIn w₁ = (.error s, w')

/-- The texts of a row of occurrences are those of its parts, one behind the other. -/
theorem occurrencesText_append (r : Resolver) (tail : List Char) (front back : List Occurrence) :
    r.occurrencesText tail (front ++ back) = do
      let before ← r.occurrencesText [] front
      let behind ← r.occurrencesText tail back
      return before ++ behind := by
  induction front with
  | nil => simp [occurrencesText]
  | cons o rest ih =>
    rw [List.cons_append, occurrencesText, occurrencesText, ih]
    simp only [bind_assoc, pure_bind, List.append_assoc]

/-- Occurrences that have their texts stand in front of what the others become. -/
theorem occurrencesText_append_of_renders {front : List Occurrence} {text : List Char}
    (h : Renders r w front text w') (os : List Occurrence) (tail : List Char) :
    (r.occurrencesText tail (front ++ os)).runIn w =
      ((text ++ ·) <$> r.occurrencesText tail os).runIn w' := by
  -- the evaluation behind the derivation may fail, so its outcome is split in either case
  induction h with
  | nil w => simp
  | @copied w w' o rest front text hskips hbefore hrest ih =>
    rw [List.cons_append, occurrencesText, occurrenceText_of_skips hskips, pure_bind,
      bind_pure_comp, Eval.runIn_map, ih, Eval.runIn_map, Eval.runIn_map]
    rcases (r.occurrencesText tail os).runIn w' with ⟨outcome, w₂⟩
    cases outcome with
    | ok out => simp [Except.map, hbefore]
    | error s => rfl
  | @evaluated w w₁ w' o rest v text hskips hvalue hrest ih =>
    rw [List.cons_append, occurrencesText, occurrenceText_of_not_skips hskips, bind_assoc,
      Eval.runIn_bind, hvalue]
    simp only [pure_bind, bind_pure_comp]
    rw [Eval.runIn_map, ih, Eval.runIn_map, Eval.runIn_map]
    rcases (r.occurrencesText tail os).runIn w' with ⟨outcome, w₂⟩
    cases outcome with
    | ok out => simp [Except.map]
    | error s => rfl

theorem occurrencesText_of_renders {text : List Char} (h : Renders r w os text w')
    (tail : List Char) : (r.occurrencesText tail os).runIn w = (.ok (text ++ tail), w') := by
  have happend := occurrencesText_append_of_renders h [] tail
  rw [List.append_nil] at happend
  rw [happend, Eval.runIn_map]
  rfl

theorem occurrencesText_of_fails {s : Stop} (h : Fails r w os s w') (tail : List Char) :
    (r.occurrencesText tail os).runIn w = (.error s, w') := by
  obtain ⟨front, o, back, text, w₁, rfl, hfront, hskips, hfail⟩ := h
  rw [occurrencesText_append_of_renders hfront, Eval.runIn_map, occurrencesText,
    occurrenceText_of_not_skips hskips, bind_assoc, Eval.runIn_bind, hfail]
  rfl

theorem Fails.cons_of_skips {s : Stop} (hskips : r.skips o = true) (h : Fails r w os s w') :
    Fails r w (o :: os) s w' := by
  obtain ⟨front, p, back, text, w₁, rfl, hfront, hp⟩ := h
  obtain ⟨before, hbefore⟩ := exists_before_of_skips hskips
  exact ⟨o :: front, p, back, _, w₁, rfl, .copied hskips hbefore hfront, hp⟩

theorem Fails.cons_of_value {w₁ : World} {v : Value} {s : Stop} (hskips : r.skips o = false)
    (hvalue : (r.resolvePlaceholder (String.ofList o.inner)).runIn w = (.ok v, w₁))
    (h : Fails r w₁ os s w') : Fails r w (o :: os) s w' := by
  obtain ⟨front, p, back, text, w₂, rfl, hfront, hp⟩ := h
  exact ⟨o :: front, p, back, _, w₂, rfl, .evaluated hskips hvalue hfront, hp⟩

/-- Occurrences have their texts, or one of them fails. -/
theorem renders_or_fails (r : Resolver) (w : World) (os : List Occurrence) :
    (∃ text w', Renders r w os text w') ∨ ∃ s w', Fails r w os s w' := by
  -- the world is not fixed, since every value that is found may move it
  induction os generalizing w with
  | nil => exact Or.inl ⟨[], w, .nil w⟩
  | cons o rest ih =>
    cases hskips : r.skips o with
    | true =>
      obtain ⟨front, hfront⟩ := exists_before_of_skips hskips
      rcases ih w with ⟨text, w', hrest⟩ | ⟨s, w', hrest⟩
      · exact Or.inl ⟨_, w', .copied hskips hfront hrest⟩
      · exact Or.inr ⟨s, w', hrest.cons_of_skips hskips⟩
    | false =>
      rcases hvalue : (r.resolvePlaceholder (String.ofList o.inner)).runIn w with ⟨outcome, w₁⟩
      cases outcome with
      | error s => exact Or.inr ⟨s, w₁, [], o, rest, [], w, rfl, .nil w, hskips, hvalue⟩
      | ok v =>
        rcases ih w₁ with ⟨text, w', hrest⟩ | ⟨s, w', hrest⟩
        · exact Or.inl ⟨_, w', .evaluated hskips hvalue hrest⟩
        · exact Or.inr ⟨s, w', hrest.cons_of_value hskips hvalue⟩

theorem occurrencesText_ok_iff {tail out : List Char} :
    (r.occurrencesText tail os).runIn w = (.ok out, w') ↔
      ∃ text, Renders r w os text w' ∧ out = text ++ tail := by
  constructor
  · intro h
    -- what is rendered is unique, as it is the outcome of one evaluation
    rcases renders_or_fails r w os with ⟨text, w₁, htext⟩ | ⟨s, w₁, hfails⟩
    · cases (occurrencesText_of_renders htext tail).symm.trans h
      exact ⟨text, htext, rfl⟩
    · cases (occurrencesText_of_fails hfails tail).symm.trans h
  · rintro ⟨text, htext, rfl⟩
    exact occurrencesText_of_renders htext tail

theorem occurrencesText_error_iff {tail : List Char} {s : Stop} :
    (r.occurrencesText tail os).runIn w = (.error s, w') ↔ Fails r w os s w' := by
  constructor
  · intro h
    rcases renders_or_fails r w os with ⟨text, w₁, htext⟩ | ⟨t, w₁, hfails⟩
    · cases (occurrencesText_of_renders htext tail).symm.trans h
    · cases (occurrencesText_of_fails hfails tail).symm.trans h
      exact hfails
  · intro h
    exact occurrencesText_of_fails h tail

/-- A text without placeholders is copied. -/
theorem interpolate_of_first?_none {cs : List Char} (h : first? cs = none) :
    r.interpolate cs = pure cs := by
  rw [interpolate, pieces_of_first?_none h]
  rfl

/-- Interpolation goes once over the division of a text: it succeeds with the literal pieces and
the texts of the occurrences in their order, or fails as the first occurrence without a value. -/
theorem interpolate_single_pass (r : Resolver) (cs : List Char) :
    (pieces cs).Divides cs ∧
      (∀ w out w', (r.interpolate cs).runIn w = (.ok out, w') ↔
        ∃ text, Renders r w (pieces cs).occurrences text w' ∧ out = text ++ (pieces cs).tail) ∧
      (∀ w s w', (r.interpolate cs).runIn w = (.error s, w') ↔
        Fails r w (pieces cs).occurrences s w') := by
  refine ⟨pieces_divides cs, ?_, ?_⟩
  · intro w out w'
    exact occurrencesText_ok_iff
  · intro w s w'
    exact occurrencesText_error_iff

/-- An escaped placeholder is copied, and one behind a stray pair of braces is replaced by a text
with braces of its own, which is copied as well. Where its variable is unknown, that is the error:
the escaped one, which is unknown too, is not evaluated. -/
theorem interpolate_single_pass_of_stray :
    let r : Resolver :=
      { store := ({} : Store).set .locals "b" (.string "\x7b\x7ba\x7d\x7d")
        functions := .ofList []
        settings := {} }
    let bare : Resolver := { r with store := {} }
    let escaped : Occurrence := { before := ['x', '\\'], inner := ['a'] }
    let evaluated : Occurrence := { before := "y\x7b\x7bz".toList, inner := ['b'] }
    let text := "x\\\x7b\x7ba\x7d\x7dy\x7b\x7bz\x7b\x7bb\x7d\x7dw".toList
    pieces text = { occurrences := [escaped, evaluated], tail := ['w'] } ∧
      r.skips escaped = true ∧ r.skips evaluated = false ∧
      ∀ w, (r.interpolate text).runIn w =
          (.ok "x\x7b\x7ba\x7d\x7dy\x7b\x7bz\x7b\x7ba\x7d\x7dw".toList, w) ∧
        (bare.interpolate text).runIn w = (.error (.error (.unresolvedVariable "b")), w) := by
  intro r bare escaped evaluated text
  have hfirst : first? text = some (escaped, "y\x7b\x7bz\x7b\x7bb\x7d\x7dw".toList) := by decide
  have hsecond : first? "y\x7b\x7bz\x7b\x7bb\x7d\x7dw".toList = some (evaluated, ['w']) := by decide
  have hpieces : pieces text = { occurrences := [escaped, evaluated], tail := ['w'] } := by
    rw [pieces_of_first?_some hfirst, pieces_of_first?_some hsecond,
      pieces_of_first?_none (by decide)]
  have hbefore : escaped.before = ['x'] ++ ['\\'] := rfl
  have hescaped : r.skips escaped = true := skips_iff.2 ⟨rfl, _, hbefore⟩
  have hevaluated : r.skips evaluated = false := by decide
  refine ⟨hpieces, hescaped, hevaluated, fun w => ⟨?_, ?_⟩⟩
  · have hvalue : (r.resolvePlaceholder (String.ofList ['b'])).runIn w =
        (.ok (.string "\x7b\x7ba\x7d\x7d"), w) := rfl
    obtain ⟨-, hok, -⟩ := interpolate_single_pass r text
    rw [hok, hpieces]
    exact ⟨_, .copied hescaped hbefore (.evaluated hevaluated hvalue (.nil w)), by decide⟩
  · have hunknown : (bare.resolvePlaceholder (String.ofList ['b'])).runIn w =
        (.error (.error (.unresolvedVariable "b")), w) := rfl
    obtain ⟨-, -, herror⟩ := interpolate_single_pass bare text
    rw [herror, hpieces]
    exact ⟨[escaped], evaluated, [], _, w, rfl, .copied hescaped hbefore (.nil w), hevaluated,
      hunknown⟩

end Stencil.Resolver
