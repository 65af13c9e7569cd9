import Stencil.Proofs.Template.Wholeness

/-!
# Interpolating texts that are put together

Where no opening pair of braces is left open at the end of a text, and the text ends in neither a
brace that could start such a pair nor a backslash that could escape one, nothing reaches over that
end: whatever text follows, the placeholders are those of the one text and then those of the other
(`pieces_append`), and interpolating both together is interpolating the one and then the other
(`interpolate_append_of_clean_end`).
-/

namespace Stencil.Template

variable {cs front rest : List Char} {o : Occurrence}

/-- An occurrence with more literal text in front. -/
def Occurrence.behind (front : List Char) (o : Occurrence) : Occurrence :=
  { o with before := front ++ o.before }

/-- The pieces of a text with more literal text in front. -/
def Pieces.behind (front : List Char) (p : Pieces) : Pieces :=
  match p.occurrences with
  | [] => { p with tail := front ++ p.tail }
  | o :: rest => { p with occurrences := o.behind front :: rest }

/-- The pieces of one text and then those of another one, which starts in the tail of the first. -/
def Pieces.followedBy (p q : Pieces) : Pieces :=
  { occurrences := p.occurrences ++ (q.behind p.tail).occurrences
    tail := (q.behind p.tail).tail }

theorem ofBody_behind (front lead body : List Char) :
    Occurrence.ofBody (front ++ lead) body = (Occurrence.ofBody lead body).behind front := by
  unfold Occurrence.ofBody
  split
  · rfl
  · simp [Occurrence.behind]

/-- Literal text in front of a text goes into its first placeholder's literal text. -/
theorem first?_append_front (hfront : ¬ opening <:+: front ++ ['{']) (cs : List Char) :
    first? (front ++ cs) = (first? cs).map fun (o, rest) => (o.behind front, rest) := by
  rw [first?, first?, Text.cutAtPair_append_front hfront]
  cases Text.cutAtPair '{' cs with
  | none => rfl
  | some parts =>
    rcases parts with ⟨lead, behind⟩
    simp [Option.map_map, Function.comp_def, ofBody_behind]

/-- What follows a text does not move its first placeholder. -/
theorem first?_append_back (h : first? cs = some (o, rest)) (back : List Char) :
    first? (cs ++ back) = some (o, rest ++ back) := by
  rcases Option.bind_eq_some_iff.1 h with ⟨⟨lead, behind⟩, hlead, hrest⟩
  rcases Option.map_eq_some_iff.1 hrest with ⟨⟨body, r⟩, hbody, heq⟩
  rcases Prod.mk.inj heq with ⟨rfl, rfl⟩
  simp [first?, Text.cutAtPair_append_back hlead, Text.cutAtPair_append_back hbody]

theorem pieces_append_front (hfront : ¬ opening <:+: front ++ ['{']) (cs : List Char) :
    pieces (front ++ cs) = (pieces cs).behind front := by
  have hfirst := first?_append_front hfront cs
  cases hcs : first? cs with
  | none =>
    rw [hcs] at hfirst
    rw [pieces_of_first?_none hcs, pieces_of_first?_none hfirst]
    rfl
  | some parts =>
    rcases parts with ⟨o, rest⟩
    rw [hcs] at hfirst
    rw [pieces_of_first?_some hcs, pieces_of_first?_some hfirst]
    rfl

/-- A text whose tail makes no opening pair, not even with a brace behind it, is divided as it is
alone, whatever follows it. -/
theorem pieces_append (h : ¬ opening <:+: (pieces cs).tail ++ ['{']) (back : List Char) :
    pieces (cs ++ back) = (pieces cs).followedBy (pieces back) := by
  -- the placeholders of the first text are found one after the other, and then its tail is left
  induction cs using pieces.induct with
  | case1 cs hnone =>
    rw [pieces_of_first?_none hnone] at h ⊢
    rw [pieces_append_front h, Pieces.followedBy]
    rfl
  | case2 cs o rest hfirst ih =>
    rw [pieces_of_first?_some hfirst] at h ⊢
    rw [pieces_of_first?_some (first?_append_back hfirst back), ih h]
    rfl

/-- The tail of a text ends as the text does. -/
theorem getLast?_of_tail {c : Char} (h : (pieces cs).tail.getLast? = some c) :
    cs.getLast? = some c := by
  rw [← join_pieces cs, Pieces.join, List.getLast?_append, h]
  rfl

end Stencil.Template

namespace Stencil.Resolver

open Template

variable {r : Resolver} {front : List Char}

/-- Literal text that does not end in a backslash escapes nothing. -/
theorem skips_behind (hslash : front.getLast? ≠ some '\\') (o : Occurrence) :
    r.skips (o.behind front) = r.skips o := by
  have hescaped : (o.behind front).isEscaped = o.isEscaped := by
    cases hlast : o.before.getLast? with
    | none => simp [Occurrence.isEscaped, Occurrence.behind, hlast, hslash]
    | some c => simp [Occurrence.isEscaped, Occurrence.behind, hlast]
  rw [skips, skips, hescaped]

theorem occurrenceText_behind (hslash : front.getLast? ≠ some '\\') (o : Occurrence) :
    r.occurrenceText (o.behind front) = (front ++ ·) <$> r.occurrenceText o := by
  have hsame := skips_behind (r := r) hslash o
  cases hskips : r.skips o with
  | true =>
    rw [hskips] at hsame
    rcases exists_before_of_skips hskips with ⟨before, hbefore⟩
    rw [occurrenceText_of_skips hskips, occurrenceText_of_skips hsame]
    simp [Occurrence.behind, Occurrence.braced, hbefore, ← List.append_assoc]
  | false =>
    rw [hskips] at hsame
    rw [occurrenceText_of_not_skips hskips, occurrenceText_of_not_skips hsame]
    simp [Occurrence.behind]

/-- Literal text in front of a text is copied. -/
theorem occurrencesText_behind (hslash : front.getLast? ≠ some '\\') (p : Pieces) :
    r.occurrencesText (p.behind front).tail (p.behind front).occurrences =
      (front ++ ·) <$> r.occurrencesText p.tail p.occurrences := by
  rcases p with ⟨_ | ⟨o, rest⟩, tail⟩
  · simp [Pieces.behind, occurrencesText]
  · simp only [Pieces.behind]
    rw [occurrencesText, occurrencesText, occurrenceText_behind hslash]
    simp only [bind_map_left, map_bind, map_pure, List.append_assoc]

/-- The tail of a text is copied behind the texts of its occurrences. -/
theorem occurrencesText_eq_map (r : Resolver) (tail : List Char) (os : List Occurrence) :
    r.occurrencesText tail os = (· ++ tail) <$> r.occurrencesText [] os := by
  have happend := r.occurrencesText_append tail os []
  rw [List.append_nil] at happend
  rw [happend]
  simp [occurrencesText]

/-- Interpolation goes over a text with a clean end and then over what follows it. -/
theorem interpolate_append {cs : List Char} (hbrace : ¬ opening <:+: (pieces cs).tail ++ ['{'])
    (hslash : (pieces cs).tail.getLast? ≠ some '\\') (back : List Char) :
    r.interpolate (cs ++ back) = do
      let before ← r.interpolate cs
      let behind ← r.interpolate back
      return before ++ behind := by
  -- the tail of the first text becomes literal text in front of the second one
  have hfollowed : r.interpolate (cs ++ back) = do
      let before ← r.occurrencesText [] (pieces cs).occurrences
      let behind ← ((pieces cs).tail ++ ·) <$> r.interpolate back
      return before ++ behind := by
    rw [interpolate, pieces_append hbrace, Pieces.followedBy, occurrencesText_append,
      occurrencesText_behind hslash]
    rfl
  have hfirst : r.interpolate cs =
      (· ++ (pieces cs).tail) <$> r.occurrencesText [] (pieces cs).occurrences :=
    r.occurrencesText_eq_map _ _
  rw [hfollowed, hfirst]
  simp only [bind_map_left, List.append_assoc]

/-- A text in which no opening pair follows the last placeholder, and which ends in neither an
opening brace nor a backslash, is interpolated on its own, whatever text follows it. Both succeed
together, one behind the other, and if one of them fails, then the whole does so as the first one
that fails. -/
theorem interpolate_append_of_clean_end (r : Resolver) {cs : List Char}
    (htail : ¬ opening <:+: (pieces cs).tail) (hbrace : cs.getLast? ≠ some '{')
    (hslash : cs.getLast? ≠ some '\\') (back : List Char) :
    (∀ w out w', (r.interpolate (cs ++ back)).runIn w = (.ok out, w') ↔
      ∃ before w₁ behind, (r.interpolate cs).runIn w = (.ok before, w₁) ∧
        (r.interpolate back).runIn w₁ = (.ok behind, w') ∧ out = before ++ behind) ∧
    (∀ w s w', (r.interpolate (cs ++ back)).runIn w = (.error s, w') ↔
      (r.interpolate cs).runIn w = (.error s, w') ∨
        ∃ before w₁, (r.interpolate cs).runIn w = (.ok before, w₁) ∧
          (r.interpolate back).runIn w₁ = (.error s, w')) := by
  have hclean : ¬ opening <:+: (pieces cs).tail ++ ['{'] := by
    rw [Text.pair_infix_concat_mark]
    exact not_or.2 ⟨fun hlast => hbrace (getLast?_of_tail hlast), htail⟩
  have hplain : (pieces cs).tail.getLast? ≠ some '\\' :=
    fun hlast => hslash (getLast?_of_tail hlast)
  rw [interpolate_append hclean hplain]
  constructor
  · intro w out w'
    rw [Eval.runIn_bind_ok_iff]
    simp only [bind_pure_comp, Eval.runIn_map_ok_iff, exists_and_left]
  · intro w s w'
    rw [Eval.runIn_bind_error_iff]
    simp only [bind_pure_comp, Eval.runIn_map_error_iff]

/-- Braces on both sides of the boundary make a closing pair behind a placeholder, and a placeholder
of the second text is escaped there. -/
theorem interpolate_append_of_clean_end_of_braces :
    let r : Resolver :=
      { store := ({} : Store).set .globals "a" (.bool true)
        functions := .ofList []
        settings := {} }
    let cs := "\x7b\x7ba\x7d\x7d\x7d".toList
    let back := "\x7d\\\x7b\x7ba\x7d\x7d".toList
    ¬ opening <:+: (pieces cs).tail ∧ cs.getLast? ≠ some '{' ∧ cs.getLast? ≠ some '\\' ∧
      ∀ w, (r.interpolate (cs ++ back)).runIn w =
        (.ok "true\x7d\x7d\x7b\x7ba\x7d\x7d".toList, w) := by
  intro r cs back
  have hfirst : first? cs = some ({ before := [], inner := ['a'] }, ['}']) := by decide
  have hcs : pieces cs =
      { occurrences := [{ before := [], inner := ['a'] }], tail := ['}'] } := by
    rw [pieces_of_first?_some hfirst, pieces_brace]
  have hescaped : first? back = some ({ before := ['}', '\\'], inner := ['a'] }, []) := by decide
  have hback : pieces back =
      { occurrences := [{ before := ['}', '\\'], inner := ['a'] }], tail := [] } := by
    rw [pieces_of_first?_some hescaped, pieces_nil]
  have htail : ¬ opening <:+: (pieces cs).tail := by
    rw [hcs]
    decide
  have hbrace : cs.getLast? ≠ some '{' := by decide
  have hslash : cs.getLast? ≠ some '\\' := by decide
  refine ⟨htail, hbrace, hslash, ?_⟩
  intro w
  have hbefore : (r.interpolate cs).runIn w = (.ok "true\x7d".toList, w) := by
    rw [interpolate, hcs]
    rfl
  have hbehind : (r.interpolate back).runIn w = (.ok "\x7d\x7b\x7ba\x7d\x7d".toList, w) := by
    rw [interpolate, hback]
    rfl
  rcases interpolate_append_of_clean_end r htail hbrace hslash back with ⟨hok, -⟩
  exact (hok w _ w).2 ⟨_, w, _, hbefore, hbehind, rfl⟩

end Stencil.Resolver
