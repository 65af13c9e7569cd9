import Stencil.Proofs.Template.Interpolation

/-!
# The order of evaluation

What resolving a template does is a row of events in the order of the document: entering a
container, and evaluating a placeholder. The items of an array come from left to right, and the
members of an object in their order, the key before the value. A trace holds the steps of such a
row, up to the first one that fails. From a world there is exactly one (`exists_traces`,
`Traces.unique`), and what performs the events ends as it does (`Performs.runIn_of_traces`).
-/

namespace Stencil.Resolver

open Template

/-- What resolution does: it enters a container that stands inside `depth` others, or evaluates the
inner text of a placeholder. -/
inductive Event where
  | enter (depth : Nat)
  | evaluate (inner : List Char)
deriving DecidableEq, Repr

/-- The events of a row of occurrences: those that are not copied are evaluated. -/
def occurrenceEvents (r : Resolver) (os : List Occurrence) : List Event :=
  (os.filter fun o => !r.skips o).map fun o => .evaluate o.inner

theorem occurrenceEvents_cons (r : Resolver) (o : Occurrence) (rest : List Occurrence) :
    r.occurrenceEvents (o :: rest) = r.occurrenceEvents [o] ++ r.occurrenceEvents rest := by
  simp [occurrenceEvents, ← List.map_append, ← List.filter_append]

/-- The events of a string: one for a string that is a placeholder, else those of its
occurrences. -/
def stringEvents (r : Resolver) (text : String) : List Event :=
  match whole? text.toList with
  | some inner => [.evaluate inner]
  | none => r.occurrenceEvents (pieces text.toList).occurrences

mutual

/-- The events of a value that stands inside `depth` containers. -/
def events (r : Resolver) (depth : Nat) : Value → List Event
  | .null | .bool _ | .number _ => []
  | .string text => r.stringEvents text
  | .array items => .enter depth :: itemEvents r (depth + 1) items
  | .object members => .enter depth :: memberEvents r (depth + 1) members

/-- The events of the items of an array. -/
def itemEvents (r : Resolver) (depth : Nat) : List Value → List Event
  | [] => []
  | item :: rest => events r depth item ++ itemEvents r depth rest

/-- The events of the members of an object. -/
def memberEvents (r : Resolver) (depth : Nat) : List (String × Value) → List Event
  | [] => []
  | (key, item) :: rest =>
    r.stringEvents key ++ events r depth item ++ memberEvents r depth rest

end

/-- Performs an event. Evaluating a placeholder gives its value. -/
def perform (r : Resolver) : Event → Eval (Option Value)
  | .enter depth => do
    r.checkDepth depth
    return none
  | .evaluate inner => do
    return some (← r.resolvePlaceholder (String.ofList inner))

/-- Evaluating a placeholder as an event stops where the placeholder does. -/
theorem runIn_perform_evaluate_iff {r : Resolver} {inner : List Char} {w : World} {s : Stop} :
    ((r.perform (.evaluate inner)).runIn w).1 = .error s ↔
      ((r.resolvePlaceholder (String.ofList inner)).runIn w).1 = .error s := by
  rw [perform, bind_pure_comp, Eval.runIn_map]
  cases ((r.resolvePlaceholder (String.ofList inner)).runIn w).1 with
  | ok v => simp [Except.map]
  | error t => simp [Except.map]

/-- Performs events one after the other. -/
def performAll (r : Resolver) : List Event → Eval Unit
  | [] => return ()
  | e :: rest => do
    let _ ← r.perform e
    r.performAll rest

/-- An evaluation that does what a row of events does, and fails as they do. -/
def Performs {α : Type} (r : Resolver) (m : Eval α) (es : List Event) : Prop :=
  (do let _ ← m; return ()) = r.performAll es

/-! ## Traces -/

/-- An event as it was performed: the worlds before and behind it, and its outcome. -/
structure Step where
  event : Event
  before : World
  outcome : Except Stop (Option Value)
  after : World

/-- The steps of performing a row of events from a world. Each step starts in the world that the one
before left, and nothing is performed behind a step that fails. -/
inductive Traces (r : Resolver) : World → List Event → List Step → World → Prop where
  | done (w : World) : Traces r w [] [] w
  | failed {w w' : World} {e : Event} {s : Stop} (hstep : (r.perform e).runIn w = (.error s, w'))
      (rest : List Event) : Traces r w (e :: rest) [⟨e, w, .error s, w'⟩] w'
  | performed {w w₁ w' : World} {e : Event} {rest : List Event} {v : Option Value}
      {steps : List Step} (hstep : (r.perform e).runIn w = (.ok v, w₁))
      (hrest : Traces r w₁ rest steps w') :
      Traces r w (e :: rest) (⟨e, w, .ok v, w₁⟩ :: steps) w'

section Traces

variable {r : Resolver} {w w₁ w' w'' : World} {es fs : List Event} {steps others : List Step}

theorem exists_traces (r : Resolver) (w : World) (es : List Event) :
    ∃ steps w', Traces r w es steps w' := by
  induction es generalizing w with
  | nil => exact ⟨[], w, .done w⟩
  | cons e rest ih =>
    rcases hstep : (r.perform e).runIn w with ⟨outcome, w₁⟩
    cases outcome with
    | error s => exact ⟨_, w₁, .failed hstep rest⟩
    | ok v =>
      obtain ⟨steps, w', hrest⟩ := ih w₁
      exact ⟨_, w', .performed hstep hrest⟩

/-- Events that are all performed are followed by others. -/
theorem Traces.append (h : Traces r w es steps w₁) (hok : ∀ step ∈ steps, ∃ v, step.outcome = .ok v)
    (hothers : Traces r w₁ fs others w') : Traces r w (es ++ fs) (steps ++ others) w' := by
  induction h with
  | done w => exact hothers
  | failed hstep rest =>
    obtain ⟨v, hv⟩ := hok _ List.mem_cons_self
    cases hv
  | performed hstep hrest ih =>
    exact .performed hstep (ih (fun step hmem => hok step (List.mem_cons_of_mem _ hmem)) hothers)

/-- Events of which one failed are followed by nothing. -/
theorem Traces.append_of_error {s : Stop} (h : Traces r w es steps w')
    (hfail : ∃ step ∈ steps, step.outcome = .error s) (fs : List Event) :
    Traces r w (es ++ fs) steps w' := by
  induction h with
  | done w =>
    rcases hfail with ⟨step, hstep, -⟩
    cases hstep
  | failed hstep rest => exact .failed hstep (rest ++ fs)
  | performed hstep hrest ih =>
    rcases hfail with ⟨step, hmem, hout⟩
    rcases List.mem_cons.1 hmem with rfl | hmem
    · cases hout
    · exact .performed hstep (ih ⟨step, hmem, hout⟩)

/-- From a world, events have one trace only. -/
theorem Traces.unique (h : Traces r w es steps w') (hothers : Traces r w es others w'') :
    steps = others := by
  induction h generalizing others with
  | done w =>
    cases hothers
    rfl
  | failed hstep rest =>
    cases hothers with
    | failed hother =>
      cases hstep.symm.trans hother
      rfl
    | performed hother hrest => cases hstep.symm.trans hother
  | performed hstep hrest ih =>
    cases hothers with
    | failed hother => cases hstep.symm.trans hother
    | performed hother hrest' =>
      cases hstep.symm.trans hother
      rw [ih hrest']

/-- The steps perform an initial part of the events. -/
theorem Traces.events_prefix (h : Traces r w es steps w') : steps.map Step.event <+: es := by
  induction h with
  | done w => simp
  | failed hstep rest => simp
  | performed hstep hrest ih => simpa using ih

/-- Steps of which none failed perform all events. -/
theorem Traces.events_eq (h : Traces r w es steps w')
    (hok : ∀ step ∈ steps, ∃ v, step.outcome = .ok v) : steps.map Step.event = es := by
  induction h with
  | done w => rfl
  | failed hstep rest =>
    rcases hok _ List.mem_cons_self with ⟨v, hv⟩
    cases hv
  | performed hstep hrest ih =>
    rw [List.map_cons, ih fun step hmem => hok step (List.mem_cons_of_mem _ hmem)]

/-- A step gives what performing its event gives. -/
theorem Traces.runIn_perform (h : Traces r w es steps w') {step : Step} (hstep : step ∈ steps) :
    (r.perform step.event).runIn step.before = (step.outcome, step.after) := by
  induction h with
  | done w => cases hstep
  | failed hrun rest =>
    rcases List.mem_singleton.1 hstep with rfl
    exact hrun
  | performed hrun hrest ih =>
    rcases List.mem_cons.1 hstep with rfl | hmem
    · exact hrun
    · exact ih hmem

theorem Traces.perform_fst (h : Traces r w es steps w') {step : Step} (hstep : step ∈ steps) :
    ((r.perform step.event).runIn step.before).1 = step.outcome :=
  congrArg Prod.fst (h.runIn_perform hstep)

theorem Traces.world_eq (h : Traces r w es steps w') : ((r.performAll es).runIn w).2 = w' := by
  induction h with
  | done w => rfl
  | failed hstep rest => rw [performAll, Eval.runIn_bind, hstep]
  | performed hstep hrest ih =>
    rw [performAll, Eval.runIn_bind, hstep]
    exact ih

/-- Events fail exactly as a step of theirs does. -/
theorem Traces.error_iff (h : Traces r w es steps w') (s : Stop) :
    ((r.performAll es).runIn w).1 = .error s ↔ ∃ step ∈ steps, step.outcome = .error s := by
  induction h with
  | done w => simp [performAll]
  | failed hstep rest =>
    rw [performAll, Eval.runIn_bind, hstep]
    simp
  | performed hstep hrest ih =>
    rw [performAll, Eval.runIn_bind, hstep]
    simpa using ih

/-- Events succeed exactly if they are all performed without a failure. -/
theorem Traces.ok_iff (h : Traces r w es steps w') :
    ((r.performAll es).runIn w).1 = .ok () ↔
      steps.map Step.event = es ∧ ∀ step ∈ steps, ∃ v, step.outcome = .ok v := by
  induction h with
  | done w => simp [performAll]
  | failed hstep rest =>
    rw [performAll, Eval.runIn_bind, hstep]
    simp
  | performed hstep hrest ih =>
    rw [performAll, Eval.runIn_bind, hstep]
    simpa using ih

/-- An evaluation that performs events ends in the last world of their trace, fails exactly as a
step of the trace does, and succeeds exactly if all events are performed without a failure. -/
theorem Performs.runIn_of_traces {α : Type} {m : Eval α} (hm : Performs r m es)
    (h : Traces r w es steps w') :
    (m.runIn w).2 = w' ∧
      (∀ s, (m.runIn w).1 = .error s ↔ ∃ step ∈ steps, step.outcome = .error s) ∧
      ((∃ a, (m.runIn w).1 = .ok a) ↔
        steps.map Step.event = es ∧ ∀ step ∈ steps, ∃ v, step.outcome = .ok v) := by
  -- but for the value that it gives, the evaluation is the row of events
  have hrun : ((m.runIn w).1.map (fun _ => ()), (m.runIn w).2) = (r.performAll es).runIn w := by
    rw [← hm, bind_pure_comp, Eval.runIn_map]
  refine ⟨?_, ?_, ?_⟩
  · rw [← h.world_eq, ← hrun]
  · intro s
    rw [← h.error_iff s, ← hrun]
    cases (m.runIn w).1 with
    | ok a => simp [Except.map]
    | error t => simp [Except.map]
  · rw [← h.ok_iff, ← hrun]
    cases (m.runIn w).1 with
    | ok a => simp [Except.map]
    | error t => simp [Except.map]

/-- The events of an evaluation that succeeds are each performed with success in some world. -/
theorem Performs.exists_perform {α : Type} {m : Eval α} (hm : Performs r m es) {a : α}
    (hok : (m.runIn w).1 = .ok a) {e : Event} (he : e ∈ es) :
    ∃ w₁ v, ((r.perform e).runIn w₁).1 = .ok v := by
  rcases exists_traces r w es with ⟨steps, w', htrace⟩
  rcases hm.runIn_of_traces htrace with ⟨-, -, hiff⟩
  rcases hiff.1 ⟨a, hok⟩ with ⟨rfl, hsteps⟩
  rcases List.mem_map.1 he with ⟨step, hstep, rfl⟩
  rcases hsteps step hstep with ⟨v, hv⟩
  exact ⟨step.before, v, (htrace.perform_fst hstep).trans hv⟩

/-- An evaluation that performs events stops where one of them does. -/
theorem Performs.exists_failure {α : Type} {m : Eval α} (hm : Performs r m es) {s : Stop}
    (hfail : (m.runIn w).1 = .error s) :
    ∃ e ∈ es, ∃ w₁, ((r.perform e).runIn w₁).1 = .error s := by
  rcases exists_traces r w es with ⟨steps, w', htrace⟩
  rcases hm.runIn_of_traces htrace with ⟨-, herror, -⟩
  rcases (herror s).1 hfail with ⟨step, hstep, hout⟩
  have hmem : step.event ∈ es := htrace.events_prefix.subset (List.mem_map_of_mem hstep)
  exact ⟨step.event, hmem, step.before, (htrace.perform_fst hstep).trans hout⟩

end Traces

end Stencil.Resolver
