import Stencil.Proofs.Template.Order

/-!
# Filling a template

Resolution performs the events of a template in their order, up to the first one that fails
(`performs_resolve`). What a template becomes depends on the world through the values of these
events only: `fill` puts a row of values in the place of the placeholders that are evaluated, and
evaluates nothing, and a template that is resolved is the template filled with the values of the
steps of its trace. Each of these values has its one place, and none is left (`Traces.fill_eq`).
-/

namespace Stencil

/-- What is built out of a row of values, taking them one after the other; there may be too few. -/
abbrev Filling (α : Type) : Type :=
  StateT (List Value) Option α

/-- Takes the next value. -/
def Filling.next : Filling Value
  | [] => none
  | v :: rest => some (v, rest)

namespace Resolver

open Template

/-- The text of an occurrence with the next value, unless it is copied. -/
def fillOccurrence (r : Resolver) (o : Occurrence) : Filling (List Char) :=
  if r.skips o then return o.before.dropLast ++ o.braced
  else do
    let v ← Filling.next
    return o.before ++ v.plainText.toList

/-- The texts of occurrences in their order, and a tail. -/
def fillOccurrences (r : Resolver) (tail : List Char) : List Occurrence → Filling (List Char)
  | [] => return tail
  | o :: rest => do
    let front ← r.fillOccurrence o
    let back ← r.fillOccurrences tail rest
    return front ++ back

/-- A string that is a placeholder is the next value; any other one takes a value for each of its
occurrences. -/
def fillString (r : Resolver) (text : String) : Filling Value :=
  match whole? text.toList with
  | some _ => Filling.next
  | none => do
    let cs ← r.fillOccurrences (pieces text.toList).tail (pieces text.toList).occurrences
    return .string (String.ofList cs)

mutual

/-- A value with the next values in the place of its placeholders. -/
def fillValue (r : Resolver) : Value → Filling Value
  | .null => return .null
  | .bool b => return .bool b
  | .number n => return .number n
  | .string text => r.fillString text
  | .array items => do
    return .array (← fillItems r items)
  | .object members => do
    return .object (Entries.insertAll (← fillMembers r members) [])

/-- The items of an array, from left to right. -/
def fillItems (r : Resolver) : List Value → Filling (List Value)
  | [] => return []
  | item :: rest => do
    let item ← fillValue r item
    return item :: (← fillItems r rest)

/-- The members of an object in their order, the key before the value. -/
def fillMembers (r : Resolver) : List (String × Value) → Filling (Entries Value)
  | [] => return []
  | (key, item) :: rest => do
    let key ← r.fillString key
    let item ← fillValue r item
    return (key.plainText, item) :: (← fillMembers r rest)

end

/-- The template with values in the place of its placeholders, if there are as many values as there
are placeholders. -/
def fill (r : Resolver) (template : Value) (values : List Value) : Option Value :=
  match (r.fillValue template).run values with
  | some (v, []) => some v
  | _ => none

/-! ## Values of steps -/

/-- The value of a step that evaluates a placeholder with success. -/
def Step.value? (step : Step) : Option Value :=
  match step.outcome with
  | .ok v => v
  | .error _ => none

/-- The values of steps, in their order. -/
def values (steps : List Step) : List Value :=
  steps.filterMap Step.value?

section Fills

variable {α β : Type} {r : Resolver} {w w' : World} {es fs : List Event} {steps : List Step}

theorem values_append (steps others : List Step) :
    values (steps ++ others) = values steps ++ values others :=
  List.filterMap_append

/-- An evaluation that performs the events of a row. If it succeeds, it gives what is filled with
their values, and values behind theirs are left. -/
structure Fills (r : Resolver) (m : Eval α) (p : Filling α) (es : List Event) : Prop where
  ok : ∀ {w a w'}, m.runIn w = (.ok a, w') →
    ∃ steps, Traces r w es steps w' ∧ (∀ step ∈ steps, ∃ v, step.outcome = .ok v) ∧
      ∀ left, p.run (values steps ++ left) = some (a, left)
  error : ∀ {w s w'}, m.runIn w = (.error s, w') →
    ∃ steps, Traces r w es steps w' ∧ ∃ step ∈ steps, step.outcome = .error s

theorem Fills.pure (a : α) : Fills r (pure a) (pure a) [] where
  ok := by
    rintro w b w' ⟨⟩
    exact ⟨[], .done w, by simp, fun left => rfl⟩
  error := by
    rintro w s w' ⟨⟩

/-- A row of two evaluations takes the values of the one and then those of the other. -/
theorem Fills.bind {m : Eval α} {f : α → Eval β} {p : Filling α} {q : α → Filling β}
    (hm : Fills r m p es) (hf : ∀ a, Fills r (f a) (q a) fs) :
    Fills r (m >>= f) (p >>= q) (es ++ fs) where
  ok := by
    intro w b w' h
    rcases Eval.runIn_bind_ok_iff.1 h with ⟨a, w₁, ha, hb⟩
    rcases hm.ok ha with ⟨steps, htrace, hok, hfill⟩
    rcases (hf a).ok hb with ⟨others, htrace', hok', hfill'⟩
    refine ⟨steps ++ others, htrace.append hok htrace', ?_, ?_⟩
    · intro step hstep
      rcases List.mem_append.1 hstep with hfirst | hsecond
      · exact hok step hfirst
      · exact hok' step hsecond
    · intro left
      -- the first evaluation leaves the values of the second one and what is behind them
      rw [values_append, List.append_assoc, StateT.run_bind, hfill]
      exact hfill' left
  error := by
    intro w s w' h
    rcases Eval.runIn_bind_error_iff.1 h with ha | ⟨a, w₁, ha, hb⟩
    · rcases hm.error ha with ⟨steps, htrace, hfail⟩
      exact ⟨steps, htrace.append_of_error hfail fs, hfail⟩
    · rcases hm.ok ha with ⟨steps, htrace, hok, -⟩
      rcases (hf a).error hb with ⟨others, htrace', step, hstep, hout⟩
      exact ⟨steps ++ others, htrace.append hok htrace', step, List.mem_append_right _ hstep, hout⟩

theorem Fills.map {m : Eval α} {p : Filling α} (hm : Fills r m p es) (f : α → β) :
    Fills r (do return f (← m)) (do return f (← p)) es := by
  simpa using hm.bind fun a => Fills.pure (f a)

/-- An evaluation that an event performs, filled with the value of the event. -/
theorem Fills.event {m : Eval α} {p : Filling α} {e : Event} {value? : α → Option Value}
    (hperform : r.perform e = value? <$> m)
    (hfill : ∀ a left, p.run ((value? a).toList ++ left) = some (a, left)) : Fills r m p [e] where
  ok := by
    intro w a w' h
    have hstep : (r.perform e).runIn w = (.ok (value? a), w') := by
      rw [hperform, Eval.runIn_map, h]
      rfl
    refine ⟨_, .performed hstep (.done w'), by simp, ?_⟩
    intro left
    have hvalue : values [⟨e, w, .ok (value? a), w'⟩] = (value? a).toList := by
      cases hvalue : value? a with
      | none => rfl
      | some v => rfl
    rw [hvalue, hfill]
  error := by
    intro w s w' h
    have hstep : (r.perform e).runIn w = (.error s, w') := by
      rw [hperform, Eval.runIn_map, h]
      rfl
    exact ⟨_, .failed hstep [], _, List.mem_cons_self, rfl⟩

/-- What is filled with the values of events does what they do. -/
theorem Fills.performs {m : Eval α} {p : Filling α} (h : Fills r m p es) : Performs r m es := by
  rw [Performs, bind_pure_comp]
  refine Eval.ext_runIn fun w => ?_
  rw [Eval.runIn_map]
  rcases hrun : m.runIn w with ⟨outcome, w'⟩
  cases outcome with
  | ok a =>
    rcases h.ok hrun with ⟨steps, htrace, hok, -⟩
    have hall := htrace.ok_iff.2 ⟨htrace.events_eq hok, hok⟩
    exact (Prod.ext hall htrace.world_eq).symm
  | error s =>
    rcases h.error hrun with ⟨steps, htrace, hfail⟩
    have hsame := (htrace.error_iff s).2 hfail
    exact (Prod.ext hsame htrace.world_eq).symm

theorem fills_checkDepth (depth : Nat) :
    Fills r (r.checkDepth depth) (pure ()) [.enter depth] :=
  .event (bind_pure_comp _ _) fun _ _ => rfl

theorem fills_resolvePlaceholder (inner : List Char) :
    Fills r (r.resolvePlaceholder (String.ofList inner)) Filling.next [.evaluate inner] :=
  .event (bind_pure_comp _ _) fun _ _ => rfl

theorem fills_occurrenceText (o : Occurrence) :
    Fills r (r.occurrenceText o) (r.fillOccurrence o) (r.occurrenceEvents [o]) := by
  unfold fillOccurrence
  cases hskips : r.skips o with
  | true =>
    rw [occurrenceText_of_skips hskips]
    simpa [occurrenceEvents, hskips] using Fills.pure (o.before.dropLast ++ o.braced)
  | false =>
    rw [occurrenceText_of_not_skips hskips]
    simpa [occurrenceEvents, hskips] using
      (fills_resolvePlaceholder o.inner).map fun v => o.before ++ v.plainText.toList

theorem fills_occurrencesText (tail : List Char) (os : List Occurrence) :
    Fills r (r.occurrencesText tail os) (r.fillOccurrences tail os) (r.occurrenceEvents os) := by
  induction os with
  | nil => exact Fills.pure tail
  | cons o rest ih =>
    rw [occurrenceEvents_cons, occurrencesText, fillOccurrences]
    exact (fills_occurrenceText o).bind fun front => ih.map (front ++ ·)

theorem fills_resolveString (text : String) :
    Fills r (r.resolveString text) (r.fillString text) (r.stringEvents text) := by
  unfold resolveString fillString stringEvents
  cases whole? text.toList with
  | some inner => exact fills_resolvePlaceholder inner
  | none =>
    cases hpair : hasPair '{' text.toList with
    | true => exact (fills_occurrencesText _ _).map _
    | false =>
      -- nothing opens in this text, so it is its own tail
      rw [pieces_of_first?_none (first?_of_not_hasPair hpair)]
      simpa [fillOccurrences, occurrenceEvents] using Fills.pure (Value.string text)

theorem fills_resolveText (text : String) :
    Fills r (r.resolveText text) (do return (← r.fillString text).plainText)
      (r.stringEvents text) :=
  (fills_resolveString text).map Value.plainText

mutual

theorem fills_resolveAt (depth : Nat) (v : Value) :
    Fills r (r.resolveAt depth v) (r.fillValue v) (r.events depth v) :=
  match v with
  | .null | .bool _ | .number _ => Fills.pure _
  | .string text => fills_resolveString text
  | .array items =>
    (fills_checkDepth depth).bind fun _ => (fills_resolveItems (depth + 1) items).map _
  | .object members => by
    have hmembers := (fills_checkDepth depth).bind fun _ =>
      (fills_resolveMembers (depth + 1) [] members).map Value.object
    simpa [resolveAt, fillValue, events] using hmembers

theorem fills_resolveItems (depth : Nat) (items : List Value) :
    Fills r (r.resolveItems depth items) (r.fillItems items) (r.itemEvents depth items) :=
  match items with
  | [] => Fills.pure _
  | item :: rest =>
    (fills_resolveAt depth item).bind fun _ => (fills_resolveItems depth rest).map _

theorem fills_resolveMembers (depth : Nat) (done : Entries Value)
    (members : List (String × Value)) :
    Fills r (r.resolveMembers depth done members)
      (do return Entries.insertAll (← r.fillMembers members) done)
      (r.memberEvents depth members) :=
  match members with
  | [] => Fills.pure _
  | (key, item) :: rest => by
    -- the filled members are written over those that are done, as they are one after the other
    have hrow := (fills_resolveText key).bind fun key' =>
      (fills_resolveAt depth item).bind fun item' =>
        fills_resolveMembers depth (Entries.insert key' item' done) rest
    simpa [resolveMembers, fillMembers, memberEvents, Entries.insertAll] using hrow

end

/-- Resolving a template performs its events. -/
theorem performs_resolve (template : Value) :
    Performs r (r.resolve template) (r.events 0 template) :=
  (fills_resolveAt 0 template).performs

/-- A template that is resolved is the template filled with the values of its trace. -/
theorem Traces.fill_eq {template v : Value} (h : Traces r w (r.events 0 template) steps w')
    (hok : ((r.resolve template).runIn w).1 = .ok v) :
    r.fill template (values steps) = some v := by
  have hrun : (r.resolveAt 0 template).runIn w = (.ok v, ((r.resolve template).runIn w).2) :=
    Prod.ext hok rfl
  rcases (fills_resolveAt 0 template).ok hrun with ⟨others, hothers, -, hfill⟩
  have hall : (r.fillValue template).run (values others) = some (v, []) := by
    simpa using hfill []
  rw [h.unique hothers, fill, hall]

end Fills

end Resolver

end Stencil
