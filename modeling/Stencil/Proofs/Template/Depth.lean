import Stencil.Proofs.Outcomes
import Stencil.Proofs.Path.Joining
import Stencil.Proofs.Placeholder.Parentheses
import Stencil.Proofs.Template.Stopping
import Stencil.Proofs.Value.Insides

/-!
# The nesting limit

Resolving a template enters each of its containers, and a container is entered only inside fewer
others than the limit allows. So a template that is resolved is nested no deeper than the limit, and
one that is nested no deeper never fails for its nesting, whatever values are put into it. One that
is nested deeper fails for just that if nothing else in it fails (`resolve_depth_limit`).
-/

namespace Stencil

/-! ## The texts of a value -/

namespace Value

/-- The texts of a value itself: a string, or the keys of an object. -/
def ownTexts : Value → List String
  | .string text => [text]
  | .object members => Entries.keys members
  | .null | .bool _ | .number _ | .array _ => []

/-- The strings and keys of a value and of all values inside it. -/
def texts (v : Value) : List String :=
  v.parts.flatMap ownTexts

variable {p : String → Prop}

theorem forall_texts_iff {v : Value} :
    (∀ text ∈ v.texts, p text) ↔ ∀ u ∈ v.parts, ∀ text ∈ u.ownTexts, p text := by
  simp only [texts, List.mem_flatMap]
  constructor
  · intro h u hu text htext
    exact h text ⟨u, hu, htext⟩
  · rintro h text ⟨u, hu, htext⟩
    exact h u hu text htext

theorem forall_texts_array {items : List Value} :
    (∀ text ∈ (array items).texts, p text) ↔ ∀ item ∈ items, ∀ text ∈ item.texts, p text := by
  simp only [forall_texts_iff]
  rw [forall_parts_array]
  simp [ownTexts]

theorem forall_texts_object {members : List (String × Value)} :
    (∀ text ∈ (object members).texts, p text) ↔
      ∀ m ∈ members, p m.1 ∧ ∀ text ∈ m.2.texts, p text := by
  simp only [forall_texts_iff]
  rw [forall_parts_object, ownTexts, Entries.keys, List.forall_mem_map]
  constructor
  · rintro ⟨hkeys, hvalues⟩ m hm
    exact ⟨hkeys m hm, hvalues m hm⟩
  · intro h
    exact ⟨fun m hm => (h m hm).1, fun m hm => (h m hm).2⟩

end Value

namespace Resolver

variable {r : Resolver}

/-! ## Events -/

/-- A container is entered inside fewer others than a limit. -/
def Event.FitsIn (limit : Nat) : Event → Prop
  | .enter depth => depth < limit
  | .evaluate _ => True

theorem forall_events_array {p : Event → Prop} {depth : Nat} {items : List Value} :
    (∀ e ∈ r.events depth (.array items), p e) ↔
      p (.enter depth) ∧ ∀ item ∈ items, ∀ e ∈ r.events (depth + 1) item, p e := by
  have hitems : (∀ e ∈ r.itemEvents (depth + 1) items, p e) ↔
      ∀ item ∈ items, ∀ e ∈ r.events (depth + 1) item, p e := by
    induction items with
    | nil => simp [itemEvents]
    | cons item rest ih => rw [itemEvents, List.forall_mem_append, List.forall_mem_cons, ih]
  rw [events, List.forall_mem_cons, hitems]

theorem forall_events_object {p : Event → Prop} {depth : Nat} {members : List (String × Value)} :
    (∀ e ∈ r.events depth (.object members), p e) ↔
      p (.enter depth) ∧ ∀ m ∈ members,
        (∀ e ∈ r.stringEvents m.1, p e) ∧ ∀ e ∈ r.events (depth + 1) m.2, p e := by
  have hmembers : (∀ e ∈ r.memberEvents (depth + 1) members, p e) ↔ ∀ m ∈ members,
      (∀ e ∈ r.stringEvents m.1, p e) ∧ ∀ e ∈ r.events (depth + 1) m.2, p e := by
    induction members with
    | nil => simp [memberEvents]
    | cons m rest ih =>
      rw [memberEvents, List.forall_mem_append, List.forall_mem_append, List.forall_mem_cons, ih]
  rw [events, List.forall_mem_cons, hmembers]

/-- A string enters no containers. -/
theorem fitsIn_stringEvents {limit : Nat} {text : String} :
    ∀ e ∈ r.stringEvents text, e.FitsIn limit := by
  intro e he
  rw [stringEvents] at he
  split at he
  · rcases List.mem_singleton.1 he with rfl
    trivial
  · rcases List.mem_map.1 he with ⟨o, -, rfl⟩
    trivial

/-- Where there is room for a container, the container itself has no part in what fits. -/
theorem fitsIn_enter_and_iff {depth n : Nat} {p : Prop} :
    ((Event.enter depth).FitsIn (depth + 1 + n) ∧ p) ↔ p := by
  have hdepth : depth < depth + 1 + n := by omega
  exact and_iff_right hdepth

/-- All containers of a value fit in a limit if and only if its nesting does. -/
theorem fitsIn_events_iff {depth n : Nat} {v : Value} :
    (∀ e ∈ r.events depth v, e.FitsIn (depth + n)) ↔ v.nesting ≤ n := by
  induction v using Value.induction generalizing depth n with
  | null | bool _ | number _ => simp [events, Value.nesting]
  | string text =>
    rw [events]
    simpa [Value.nesting] using fitsIn_stringEvents
  | array items ih =>
    rw [forall_events_array]
    cases n with
    | zero => simp [Event.FitsIn, Value.nesting]
    | succ n =>
      -- inside the array there is room for one container less
      have hroom : depth + (n + 1) = depth + 1 + n := by omega
      have hitems : (∀ item ∈ items, ∀ e ∈ r.events (depth + 1) item,
          e.FitsIn (depth + 1 + n)) ↔ ∀ item ∈ items, item.nesting ≤ n :=
        forall₂_congr fun item hitem => ih item hitem
      rw [hroom, fitsIn_enter_and_iff, hitems, Value.nesting_array_le_iff]
  | object members ih =>
    rw [forall_events_object]
    cases n with
    | zero => simp [Event.FitsIn, Value.nesting]
    | succ n =>
      have hroom : depth + (n + 1) = depth + 1 + n := by omega
      have hmembers : (∀ m ∈ members, (∀ e ∈ r.stringEvents m.1, e.FitsIn (depth + 1 + n)) ∧
          ∀ e ∈ r.events (depth + 1) m.2, e.FitsIn (depth + 1 + n)) ↔
            ∀ m ∈ members, m.2.nesting ≤ n := by
        refine forall₂_congr fun m hm => ?_
        rw [ih m hm]
        exact and_iff_right fitsIn_stringEvents
      rw [hroom, fitsIn_enter_and_iff, hmembers, Value.nesting_object_le_iff]

/-- A placeholder that evaluates to a value in every world; containers do not matter. -/
def Event.Succeeds (r : Resolver) : Event → Prop
  | .enter _ => True
  | .evaluate inner =>
    ∀ w, ∃ v, ((r.resolvePlaceholder (String.ofList inner)).runIn w).1 = .ok v

/-- The placeholders of a value are those of its strings and keys. -/
theorem succeeds_events {depth : Nat} {v : Value}
    (h : ∀ text ∈ v.texts, ∀ e ∈ r.stringEvents text, e.Succeeds r) :
    ∀ e ∈ r.events depth v, e.Succeeds r := by
  induction v using Value.induction generalizing depth with
  | null | bool _ | number _ => simp [events]
  | string text =>
    rw [events]
    exact h text (by simp [Value.texts, Value.parts, Value.ownTexts])
  | array items ih =>
    rw [Value.forall_texts_array] at h
    rw [forall_events_array]
    exact ⟨trivial, fun item hitem => ih item hitem (h item hitem)⟩
  | object members ih =>
    rw [Value.forall_texts_object] at h
    rw [forall_events_object]
    exact ⟨trivial, fun m hm => ⟨(h m hm).1, ih m hm (h m hm).2⟩⟩

/-! ## Steps -/

/-- An expression that is not read is malformed. -/
theorem malformed_of_expression {cs : List Char} {e : ResolveError}
    (h : Expression.parse cs = .error e) :
    ∃ source fault, e = .malformedPlaceholder source fault := by
  unfold Expression.parse at h
  split at h
  · simp only at h
    split at h
    · cases h
    · exact ⟨_, _, (Except.error.inj h).symm⟩
  · simp only at h
    rcases Path.parse_ok_or_malformed (String.ofList cs) with ⟨keys, hok⟩ | ⟨fault, hmalformed⟩
    · rw [hok] at h
      cases h
    · rw [hmalformed] at h
      exact ⟨_, fault, (Except.error.inj h).symm⟩

/-- A text that is not read as a placeholder is malformed. -/
theorem malformed_of_parse {text : String} {e : ResolveError}
    (h : Placeholder.parse text = .error e) :
    ∃ source fault, e = .malformedPlaceholder source fault := by
  rw [Placeholder.parse_eq] at h
  split at h
  · exact ⟨text, _, (Except.error.inj h).symm⟩
  · cases hread : Expression.parse (Placeholder.expressionOf text) with
    | ok expression =>
      rw [hread] at h
      cases h
    | error fault =>
      rw [hread] at h
      obtain rfl : fault = e := Except.error.inj h
      exact malformed_of_expression hread

theorem steady_resolvePlaceholder (h : r.functions.IsSteady) (text : String) :
    Eval.Steady (r.resolvePlaceholder text) := by
  cases hparse : Placeholder.parse text with
  | error e =>
    rw [resolvePlaceholder_of_error hparse]
    rcases malformed_of_parse hparse with ⟨source, fault, rfl⟩
    exact .fail fun limit heq => ResolveError.noConfusion heq
  | ok placeholder =>
    rcases placeholder with ⟨segments | call, default, source⟩
    · rw [resolvePlaceholder_of_variable hparse]
      cases (r.lookup? segments).or default with
      | none => exact .fail fun limit heq => ResolveError.noConfusion heq
      | some v => exact .pure v
    · rw [resolvePlaceholder_of_call hparse]
      exact h.dispatch call

/-- A placeholder that evaluates to a value in some world does so in every world. -/
theorem succeeds_of_perform (h : r.functions.IsSteady) {e : Event} {w : World} {v : Option Value}
    (hok : ((r.perform e).runIn w).1 = .ok v) : e.Succeeds r := by
  cases e with
  | enter depth => trivial
  | evaluate inner =>
    intro w'
    cases hvalue : ((r.resolvePlaceholder (String.ofList inner)).runIn w).1 with
    | ok a => exact (steady_resolvePlaceholder h _).succeeds hvalue w'
    | error s =>
      rw [runIn_perform_evaluate_iff.2 hvalue] at hok
      cases hok

/-- A container is entered if it stands inside fewer others than the limit. -/
theorem checkDepth_of_lt {depth : Nat} (h : depth < r.settings.maxDepth) :
    r.checkDepth depth = pure () :=
  if_neg (Nat.not_le.2 h)

theorem checkDepth_of_le {depth : Nat} (h : r.settings.maxDepth ≤ depth) :
    r.checkDepth depth = Eval.fail (.depthExceeded r.settings.maxDepth) :=
  if_pos h

theorem runIn_perform_enter (depth : Nat) (w : World) :
    ((r.perform (.enter depth)).runIn w).1 =
      if r.settings.maxDepth ≤ depth then .error (.error (.depthExceeded r.settings.maxDepth))
      else .ok none := by
  rw [perform, checkDepth]
  split
  · rfl
  · rfl

/-- An event that fails for the nesting of a template enters a container too deep inside others. -/
theorem not_fitsIn_of_perform (h : r.functions.IsSteady) {e : Event} {w : World} {limit : Nat}
    (hfail : ((r.perform e).runIn w).1 = .error (.error (.depthExceeded limit))) :
    ¬ e.FitsIn r.settings.maxDepth := by
  cases e with
  | enter depth =>
    intro hfits
    have hdepth : ¬ r.settings.maxDepth ≤ depth := Nat.not_le.2 hfits
    rw [runIn_perform_enter, if_neg hdepth] at hfail
    cases hfail
  | evaluate inner =>
    have hsteady := steady_resolvePlaceholder h (String.ofList inner)
    exact absurd (runIn_perform_evaluate_iff.1 hfail) (hsteady.not_depthExceeded w limit)

/-- Where all placeholders succeed, an event fails only for the nesting of the template. -/
theorem eq_depthExceeded_of_perform {e : Event} (h : e.Succeeds r) {w : World} {s : Stop}
    (hfail : ((r.perform e).runIn w).1 = .error s) :
    s = .error (.depthExceeded r.settings.maxDepth) := by
  cases e with
  | enter depth =>
    rw [runIn_perform_enter] at hfail
    split at hfail
    · exact (Except.error.inj hfail).symm
    · cases hfail
  | evaluate inner =>
    rcases h w with ⟨v, hv⟩
    rw [runIn_perform_evaluate_iff, hv] at hfail
    cases hfail

/-- An event that is performed enters no container too deep inside others. -/
theorem fitsIn_of_perform {e : Event} {w : World} {v : Option Value}
    (hok : ((r.perform e).runIn w).1 = .ok v) : e.FitsIn r.settings.maxDepth := by
  cases e with
  | enter depth => exact lt_maxDepth_of_enter hok
  | evaluate inner => trivial

/-! ## Templates -/

variable {w : World}

/-- A template that is resolved is nested no deeper than the limit. -/
theorem nesting_le_of_resolve {template v : Value}
    (hok : ((r.resolve template).runIn w).1 = .ok v) : template.nesting ≤ r.settings.maxDepth := by
  have hfits : ∀ e ∈ r.events 0 template, e.FitsIn (0 + r.settings.maxDepth) := by
    intro e he
    rcases (performs_resolve template).exists_perform hok he with ⟨w₁, v, hperform⟩
    rw [Nat.zero_add]
    exact fitsIn_of_perform hperform
  exact fitsIn_events_iff.1 hfits

/-- A template that is nested no deeper than the limit does not fail for its nesting. -/
theorem resolve_ne_depthExceeded (h : r.functions.IsSteady) {template : Value}
    (hnesting : template.nesting ≤ r.settings.maxDepth) (w : World) (limit : Nat) :
    ((r.resolve template).runIn w).1 ≠ .error (.error (.depthExceeded limit)) := by
  intro hfail
  rcases (performs_resolve template).exists_failure hfail with ⟨e, he, w₁, hperform⟩
  have hfits := fitsIn_events_iff.2 hnesting e he
  rw [Nat.zero_add] at hfits
  exact not_fitsIn_of_perform h hperform hfits

/-- The placeholders of a string that is resolved in some world succeed in every world. -/
theorem succeeds_of_resolve_string (h : r.functions.IsSteady) {text : String} {v : Value}
    (hok : ((r.resolve (.string text)).runIn w).1 = .ok v) :
    ∀ e ∈ r.stringEvents text, e.Succeeds r := by
  intro e he
  have hevents : r.events 0 (.string text) = r.stringEvents text := by rw [events]
  rw [← hevents] at he
  rcases (performs_resolve (.string text)).exists_perform hok he with ⟨w₁, v, hperform⟩
  exact succeeds_of_perform h hperform

/-- A template that is nested deeper than the limit, and whose strings and keys are resolved one by
one, fails for its nesting. -/
theorem resolve_eq_depthExceeded (h : r.functions.IsSteady) {template : Value}
    (hnesting : r.settings.maxDepth < template.nesting)
    (htexts : ∀ text ∈ template.texts, ∃ w v, ((r.resolve (.string text)).runIn w).1 = .ok v)
    (w : World) :
    ((r.resolve template).runIn w).1 = .error (.error (.depthExceeded r.settings.maxDepth)) := by
  have hsucceeds : ∀ e ∈ r.events 0 template, e.Succeeds r := by
    apply succeeds_events
    intro text htext
    rcases htexts text htext with ⟨w₁, v, hok⟩
    exact succeeds_of_resolve_string h hok
  cases hresolve : ((r.resolve template).runIn w).1 with
  | ok v =>
    have hfits := nesting_le_of_resolve hresolve
    omega
  | error s =>
    rcases (performs_resolve template).exists_failure hresolve with ⟨e, he, w₁, hperform⟩
    rw [eq_depthExceeded_of_perform (hsucceeds e he) hperform]

/-- The nesting limit is exact. A template that is resolved is nested no deeper than the limit; one
that is nested no deeper does not fail for its nesting, whatever values the store has; and one that
is nested deeper fails for it, if each of its strings and keys is resolved on its own. -/
theorem resolve_depth_limit {store : Store} {settings : Settings} {sources : Sources}
    {custom : List Namespace} {r : Resolver}
    (h : Resolver.create store settings sources custom = .ok r)
    (hcustom : ∀ ns ∈ custom, ns.IsSteady) (template : Value) (w : World) :
    (∀ v, ((r.resolve template).runIn w).1 = .ok v → template.nesting ≤ settings.maxDepth) ∧
    (template.nesting ≤ settings.maxDepth →
      ∀ limit, ((r.resolve template).runIn w).1 ≠ .error (.error (.depthExceeded limit))) ∧
    (settings.maxDepth < template.nesting →
      (∀ text ∈ template.texts, ∃ w' v, ((r.resolve (.string text)).runIn w').1 = .ok v) →
      ((r.resolve template).runIn w).1 = .error (.error (.depthExceeded settings.maxDepth))) := by
  have hr := eq_of_create h
  have hsettings : r.settings = settings := by rw [hr]
  have hsteady : r.functions.IsSteady := by
    rw [hr]
    exact Registry.isSteady_standard_extend settings sources hcustom
  rw [← hsettings]
  refine ⟨?_, ?_, ?_⟩
  · intro v hok
    exact nesting_le_of_resolve hok
  · intro hnesting
    exact resolve_ne_depthExceeded hsteady hnesting w
  · intro hnesting htexts
    exact resolve_eq_depthExceeded hsteady hnesting htexts w

/-- Values that are nested deeper than the limit are put into a template that is not, one of them by
a call that was added; and the same template inside one more array. -/
theorem resolve_depth_limit_of_deep_value :
    let settings : Settings := { maxDepth := 2 }
    let sources : Sources :=
      { catalog := {}
        environment := {}
        now := ⟨0, 0, by decide, by decide, by decide, by decide⟩ }
    let echo : Namespace := { name := "echo", call := fun call => return .array call.arguments }
    let r : Resolver :=
      { store := ({} : Store).set .globals "x" (Value.null.inArrays 3)
        functions := (Registry.standard settings sources).extend (.ofList [echo])
        settings }
    let template : Value :=
      .object [("k", .array [.string "\x7b\x7bx\x7d\x7d", .string "\x7b\x7b$echo.all(1)\x7d\x7d"])]
    let value : Value :=
      .object [("k", .array [Value.null.inArrays 3, .array [.number (.integer 1 (by decide))]])]
    Resolver.create r.store settings sources [echo] = .ok r ∧ (∀ ns ∈ [echo], ns.IsSteady) ∧
      ((r.resolve template).runIn (World.ofSeed 0)).1 = .ok value ∧ template.nesting ≤ 2 ∧
      (∀ w limit, ((r.resolve template).runIn w).1 ≠ .error (.error (.depthExceeded limit))) ∧
      (∀ text ∈ (Value.array [template]).texts,
        ∃ w' v, ((r.resolve (.string text)).runIn w').1 = .ok v) ∧
      ∀ w, ((r.resolve (.array [template])).runIn w).1 = .error (.error (.depthExceeded 2)) := by
  intro settings sources echo r template value
  have hcreate : Resolver.create r.store settings sources [echo] = .ok r := rfl
  have hecho : ∀ ns ∈ [echo], ns.IsSteady := by
    intro ns hns call
    rcases List.mem_singleton.1 hns with rfl
    exact .pure _
  have hvalue : ((r.resolve template).runIn (World.ofSeed 0)).1 = .ok value := rfl
  have hlimit (w : World) := resolve_depth_limit hcreate hecho template w
  have hnesting : template.nesting ≤ 2 := (hlimit (World.ofSeed 0)).1 value hvalue
  have htexts : ∀ text ∈ (Value.array [template]).texts,
      ∃ w' v, ((r.resolve (.string text)).runIn w').1 = .ok v := by
    intro text htext
    have hcases : text = "k" ∨ text = "\x7b\x7bx\x7d\x7d" ∨
        text = "\x7b\x7b$echo.all(1)\x7d\x7d" := by
      simpa [Value.texts, Value.parts, Value.partsOfItems, Value.partsOfMembers, Value.ownTexts,
        Entries.keys, template] using htext
    rcases hcases with rfl | rfl | rfl
    · exact ⟨World.ofSeed 0, .string "k", rfl⟩
    · exact ⟨World.ofSeed 0, Value.null.inArrays 3, rfl⟩
    · exact ⟨World.ofSeed 0, .array [.number (.integer 1 (by decide))], rfl⟩
  refine ⟨hcreate, hecho, hvalue, hnesting, fun w => (hlimit w).2.1 hnesting, htexts, fun w => ?_⟩
  exact (resolve_depth_limit hcreate hecho (.array [template]) w).2.2 (by decide) htexts

end Resolver

end Stencil
