import Stencil.Proofs.Catalog.Draws
import Stencil.Proofs.Template.Evaluating
import Stencil.Proofs.Template.Filling

/-!
# Cycles in templates

The placeholders of a template that name the same cycle share its counter. Resolution advances the
counter by one for each of them that it evaluates, in the order of evaluation, and each of them
gets the item whose turn it is (`resolve_evaluation_order`).
-/

namespace Stencil.Resolver

/-- Whether an event evaluates a call that names, without arguments, a member of `faker` at one of
some places. -/
def Event.names (places : List (List String)) : Event → Bool
  | .enter _ => false
  | .evaluate inner =>
    match Placeholder.parse (String.ofList inner) with
    | .ok { expression := .function call, .. } => call.names places
    | _ => false

section Draws

variable {r : Resolver} {catalog : Catalog} {places : List (List String)} {number : Nat}
  {items : List Value} {e : Event}

/-- An event that names an owned cycle gives the item whose turn it is, and counts. -/
theorem runIn_perform_of_names (h : r.functions.OwnsCycle catalog places number items)
    (he : e.names places = true) (w : World) :
    ∃ item, items[w.draws number % items.length]? = some item ∧
      (r.perform e).runIn w = (.ok (some item), w.countDraw number) := by
  cases e with
  | enter depth => simp [Event.names] at he
  | evaluate inner =>
    simp only [Event.names] at he
    split at he
    · rename_i call default source hparse
      obtain ⟨item, hitem, hcall⟩ := h.runIn_dispatch he w
      refine ⟨item, hitem, ?_⟩
      rw [perform, resolvePlaceholder_of_call hparse, Eval.runIn_bind, hcall]
      rfl
    · cases he

/-- Every other event leaves the counter of an owned cycle as it is. -/
theorem spares_perform (h : r.functions.OwnsCycle catalog places number items)
    (he : e.names places = false) : Eval.Spares number (r.perform e) := by
  cases e with
  | enter depth =>
    refine Eval.Spares.bind ?_ fun _ => .pure _
    unfold checkDepth
    split
    · exact .fail _
    · exact .pure _
  | evaluate inner =>
    refine Eval.Spares.bind ?_ fun _ => .pure _
    cases hparse : Placeholder.parse (String.ofList inner) with
    | error fault =>
      rw [resolvePlaceholder_of_error hparse]
      exact .fail _
    | ok placeholder =>
      obtain ⟨expression, default, source⟩ := placeholder
      rcases expression with segments | call
      · rw [resolvePlaceholder_of_variable hparse]
        cases (r.lookup? segments).or default with
        | none => exact .fail _
        | some v => exact .pure v
      · rw [resolvePlaceholder_of_call hparse]
        exact h.spares_dispatch (by simpa [Event.names, hparse] using he)

/-- Along a trace the owned cycle counts the steps that name it, and these get its items in turn. -/
theorem Traces.draws {w w' : World} {es : List Event} {steps : List Step}
    (htrace : Traces r w es steps w') (h : r.functions.OwnsCycle catalog places number items) :
    w'.draws number = w.draws number + (steps.filter (·.event.names places)).length ∧
      ∀ j step, (steps.filter (·.event.names places))[j]? = some step →
        ∃ item, items[(w.draws number + j) % items.length]? = some item ∧
          step.outcome = .ok (some item) := by
  induction htrace with
  | done w => simp
  | @failed w w' e s hstep rest =>
    cases he : e.names places with
    | true =>
      -- a cycle always has an item, so this step does not fail
      obtain ⟨item, -, hitem⟩ := runIn_perform_of_names h he w
      cases hstep.symm.trans hitem
    | false =>
      have hsame := spares_perform h he w
      rw [hstep] at hsame
      simp [he, hsame]
  | @performed w w₁ w' e rest v steps hstep hrest ih =>
    obtain ⟨hcount, hitems⟩ := ih
    cases he : e.names places with
    | true =>
      obtain ⟨item, hitem, hdraw⟩ := runIn_perform_of_names h he w
      cases hstep.symm.trans hdraw
      have hcounted : (w.countDraw number).draws number = w.draws number + 1 := by
        simp [World.draws_countDraw]
      rw [hcounted] at hcount hitems
      refine ⟨by simp [he, hcount]; omega, ?_⟩
      intro j step hj
      cases j with
      | zero =>
        obtain rfl : _ = step := by simpa [he] using hj
        exact ⟨item, hitem, rfl⟩
      | succ j =>
        -- the item is the next one for the steps behind this one
        obtain ⟨next, hnext, hout⟩ := hitems j step (by simpa [he] using hj)
        exact ⟨next, by rwa [show w.draws number + (j + 1) = w.draws number + 1 + j by omega], hout⟩
    | false =>
      have hsame : w₁.draws number = w.draws number := by
        have hspared := spares_perform h he w
        rwa [hstep] at hspared
      rw [hsame] at hcount hitems
      exact ⟨by simpa [he] using hcount, by simpa [he] using hitems⟩

end Draws

/-- Resolution performs the events of a template in their order, each once, up to the first one that
fails: it ends in the last world of that trace, it fails exactly as a step of it does, and it
succeeds exactly if all events are performed without a failure. What it gives is then the template
filled with the values of the steps. An owned cycle counts the steps of the trace that name it, and
these get its items in turn. -/
theorem resolve_evaluation_order (r : Resolver) (template : Value) (w : World) :
    ∃ steps w', Traces r w (r.events 0 template) steps w' ∧
      steps.map Step.event <+: r.events 0 template ∧
      ((r.resolve template).runIn w).2 = w' ∧
      (∀ s, ((r.resolve template).runIn w).1 = .error s ↔
        ∃ step ∈ steps, step.outcome = .error s) ∧
      ((∃ v, ((r.resolve template).runIn w).1 = .ok v) ↔
        steps.map Step.event = r.events 0 template ∧
          ∀ step ∈ steps, ∃ v, step.outcome = .ok v) ∧
      (∀ v, ((r.resolve template).runIn w).1 = .ok v →
        r.fill template (values steps) = some v) ∧
      ∀ catalog places number items, r.functions.OwnsCycle catalog places number items →
        w'.draws number = w.draws number + (steps.filter (·.event.names places)).length ∧
          ∀ j step, (steps.filter (·.event.names places))[j]? = some step →
            ∃ item, items[(w.draws number + j) % items.length]? = some item ∧
              step.outcome = .ok (some item) := by
  obtain ⟨steps, w', htrace⟩ := exists_traces r w (r.events 0 template)
  obtain ⟨hworld, herror, hok⟩ := (performs_resolve template).runIn_of_traces htrace
  refine ⟨steps, w', htrace, htrace.events_prefix, hworld, herror, hok, fun _ => htrace.fill_eq, ?_⟩
  intro catalog places number items howns
  exact htrace.draws howns

/-- A key, an item and a longer text that name the same cycle of two items, at two places, draw from
it three times, and the third one gets the first item again. -/
theorem resolve_evaluation_order_of_shared_cycle :
    let items := [Value.ofInt 1, Value.ofInt 2]
    let node := Node.generator (.cycle 0 items)
    let sources : Sources :=
      { catalog := { root := .group [("id", node), ("key", node)] }
        environment := {}
        now := ⟨0, 0, by decide, by decide, by decide, by decide⟩ }
    let r : Resolver :=
      { store := {}
        functions := (Registry.standard {} sources).extend (.ofList [])
        settings := {} }
    let template : Value :=
      .object [("\x7b\x7b$faker.key\x7d\x7d",
        .array [.string "\x7b\x7b$faker.id\x7d\x7d", .string "n\x7b\x7b$faker.key\x7d\x7d"])]
    let places := [["id"], ["key"]]
    r.functions.OwnsCycle sources.catalog places 0 items ∧
      ∃ steps w', Traces r (World.ofSeed 0) (r.events 0 template) steps w' ∧
        ((r.resolve template).runIn (World.ofSeed 0)).2 = w' ∧ w'.draws 0 = 3 ∧
        (steps.filter (·.event.names places)).length = 3 ∧
        (∀ step, (steps.filter (·.event.names places))[2]? = some step →
          step.outcome = .ok (some (Value.ofInt 1))) ∧
        ∃ v, r.fill template (values steps) = some v ∧
          v.plainText = "\x7b\"1\":[2,\"n1\"]\x7d" := by
  intro items node sources r template places
  have howns : r.functions.OwnsCycle sources.catalog places 0 items := by
    refine Registry.ownsCycle_standard (by simp [items]) ?_ ?_ (by simp)
    · intro place hplace
      rcases List.mem_pair.1 hplace with rfl | rfl <;> rfl
    · intro other g hother hg
      -- every way into this catalog other than its two members leads nowhere
      match other with
      | [] => cases hg
      | [segment] =>
        obtain ⟨hid, hkey⟩ : "id" ≠ segment ∧ "key" ≠ segment := by
          simpa [places, eq_comm] using hother
        simp [sources, Node.descend?, Node.child?, Node.members, Entries.get?, hid, hkey] at hg
      | segment :: next :: rest =>
        by_cases hid : "id" = segment <;> by_cases hkey : "key" = segment <;>
          simp [sources, node, Node.descend?, Node.child?, Node.members, Entries.get?, hid,
            hkey] at hg
  have hcount : ((r.resolve template).runIn (World.ofSeed 0)).2.draws 0 = 3 := by
    decide +kernel
  have hgives : ((r.resolve template).runIn (World.ofSeed 0)).1.map Value.plainText =
      .ok "\x7b\"1\":[2,\"n1\"]\x7d" := by
    decide +kernel
  obtain ⟨v, hvalue, htext⟩ := exists_of_map_eq_ok hgives
  obtain ⟨steps, w', htrace, -, hworld, -, -, hfill, hdraws⟩ :=
    resolve_evaluation_order r template (World.ofSeed 0)
  obtain ⟨hlength, hitems⟩ := hdraws sources.catalog places 0 items howns
  have hzero : (World.ofSeed 0).draws 0 = 0 := rfl
  rw [hworld] at hcount
  refine ⟨howns, steps, w', htrace, hworld, hcount, by omega, ?_, v, hfill v hvalue, htext⟩
  intro step hstep
  obtain ⟨item, hitem, hout⟩ := hitems 2 step hstep
  have hfirst : Value.ofInt 1 = item := by
    simpa [items, hzero] using hitem
  rw [hout, hfirst]

end Stencil.Resolver
