import Stencil.Proofs.Store.Runs
import Stencil.Proofs.Template.Evaluating
import Stencil.Proofs.Template.Order
import Stencil.Proofs.Value.Merging

/-!
# The variables that a template mentions

A template mentions the variables that its placeholders name: the first segments of the paths in its
strings and in the keys of its objects. Resolution looks up these variables and reads nothing else
of the store. Two stores in which they have the same values give the same result, whatever else
is in the stores, in which scopes the values are, and in which order they were written
(`resolve_withStore_of_agree`).
-/

namespace Stencil

namespace Store

variable {s t : Store} {key name : String}

theorem get?_eq_of_perm (h : ∀ scope, (t.table scope).entries.Perm (s.table scope).entries)
    (key : String) : t.get? key = s.get? key := by
  rw [get?, get?, getIn?, getIn?, getIn?, getIn?, Table.get?_eq_of_perm (h .locals),
    Table.get?_eq_of_perm (h .globals)]

theorem get?_set_of_ne (h : name ≠ key) (scope : Scope) (v : Value) (s : Store) :
    (s.set scope key v).get? name = s.get? name := by
  simp [get?, getIn?_set, h]

theorem getIn?_delete (scope : Scope) (key name : String) (s : Store) :
    (s.delete key).2.getIn? scope name = if name = key then none else s.getIn? scope name := by
  rw [getIn?, table_delete, Table.get?_erase]
  rfl

theorem get?_delete_of_ne (h : name ≠ key) (s : Store) :
    (s.delete key).2.get? name = s.get? name := by
  simp [get?, getIn?_delete, h]

/-- A variable that is moved to one of the scopes is still seen. -/
theorem get?_set_delete (scope : Scope) (key : String) (v : Value) (s : Store) :
    ((s.delete key).2.set scope key v).get? key = some v := by
  cases scope with
  | globals => simp [get?, getIn?_set, getIn?_delete]
  | locals => simp [get?, getIn?_set]

end Store

namespace Resolver

open Template

/-- The variable that an event looks up: the one that its path starts with. -/
def Event.mentioned? : Event → Option String
  | .enter _ => none
  | .evaluate inner =>
    match Placeholder.parse (String.ofList inner) with
    | .ok { expression := .variable segments, .. } => segments.head?
    | _ => none

/-- The variables that the placeholders of a template name. -/
def mentions (r : Resolver) (template : Value) : List String :=
  (r.events 0 template).filterMap Event.mentioned?

/-- The resolver with another store. -/
def withStore (r : Resolver) (s : Store) : Resolver :=
  { r with store := s }

/-- The variable that an event looks up, if it looks one up, is the same in another store. -/
def Event.Agrees (r : Resolver) (s : Store) (e : Event) : Prop :=
  ∀ name ∈ e.mentioned?, s.get? name = r.store.get? name

section WithStore

variable {r : Resolver} {s : Store}

/-! ## Which events there are -/

theorem stringEvents_withStore (text : String) :
    (r.withStore s).stringEvents text = r.stringEvents text := rfl

mutual

theorem events_withStore (depth : Nat) (v : Value) :
    (r.withStore s).events depth v = r.events depth v :=
  match v with
  | .null | .bool _ | .number _ => rfl
  | .string _ => rfl
  | .array items => by rw [events, events, itemEvents_withStore (depth + 1) items]
  | .object members => by rw [events, events, memberEvents_withStore (depth + 1) members]

theorem itemEvents_withStore (depth : Nat) (items : List Value) :
    (r.withStore s).itemEvents depth items = r.itemEvents depth items :=
  match items with
  | [] => rfl
  | item :: rest => by
    rw [itemEvents, itemEvents, events_withStore depth item, itemEvents_withStore depth rest]

theorem memberEvents_withStore (depth : Nat) (members : List (String × Value)) :
    (r.withStore s).memberEvents depth members = r.memberEvents depth members :=
  match members with
  | [] => rfl
  | (key, item) :: rest => by
    rw [memberEvents, memberEvents, stringEvents_withStore, events_withStore depth item,
      memberEvents_withStore depth rest]

end

/-- What a template mentions is read off the template, not off the store. -/
theorem mentions_withStore (r : Resolver) (s : Store) (template : Value) :
    (r.withStore s).mentions template = r.mentions template := by
  rw [mentions, mentions, events_withStore]

/-! ## What the events give -/

/-- The only access to the store is the look-up of the variable that is mentioned. -/
theorem resolvePlaceholder_withStore {inner : List Char}
    (h : Event.Agrees r s (.evaluate inner)) :
    (r.withStore s).resolvePlaceholder (String.ofList inner) =
      r.resolvePlaceholder (String.ofList inner) := by
  cases hparse : Placeholder.parse (String.ofList inner) with
  | error fault => rw [resolvePlaceholder_of_error hparse, resolvePlaceholder_of_error hparse]
  | ok placeholder =>
    obtain ⟨expression, default, source⟩ := placeholder
    rcases expression with segments | call
    · have hlookup : (r.withStore s).lookup? segments = r.lookup? segments := by
        cases segments with
        | nil => rfl
        | cons name rest =>
          have hname : s.get? name = r.store.get? name :=
            h name (by simp [Event.mentioned?, hparse])
          rw [lookup?, lookup?, ← hname]
          rfl
      rw [resolvePlaceholder_of_variable hparse, resolvePlaceholder_of_variable hparse, hlookup]
    · rw [resolvePlaceholder_of_call hparse, resolvePlaceholder_of_call hparse]
      rfl

theorem occurrenceText_withStore {o : Occurrence}
    (h : ∀ e ∈ r.occurrenceEvents [o], Event.Agrees r s e) :
    (r.withStore s).occurrenceText o = r.occurrenceText o := by
  cases hskips : r.skips o with
  | true =>
    have hother : (r.withStore s).skips o = true := hskips
    rw [occurrenceText_of_skips hskips, occurrenceText_of_skips hother]
  | false =>
    have hother : (r.withStore s).skips o = false := hskips
    have hinner : Event.Agrees r s (.evaluate o.inner) := h _ (by simp [occurrenceEvents, hskips])
    rw [occurrenceText_of_not_skips hskips, occurrenceText_of_not_skips hother,
      resolvePlaceholder_withStore hinner]

theorem occurrencesText_withStore (tail : List Char) {os : List Occurrence}
    (h : ∀ e ∈ r.occurrenceEvents os, Event.Agrees r s e) :
    (r.withStore s).occurrencesText tail os = r.occurrencesText tail os := by
  induction os with
  | nil => rfl
  | cons o rest ih =>
    rw [occurrenceEvents_cons, List.forall_mem_append] at h
    rw [occurrencesText, occurrencesText, occurrenceText_withStore h.1, ih h.2]

theorem resolveString_withStore {text : String}
    (h : ∀ e ∈ r.stringEvents text, Event.Agrees r s e) :
    (r.withStore s).resolveString text = r.resolveString text := by
  unfold stringEvents at h
  unfold resolveString
  cases hwhole : whole? text.toList with
  | some inner =>
    rw [hwhole] at h
    exact resolvePlaceholder_withStore (h _ List.mem_cons_self)
  | none =>
    rw [hwhole] at h
    have hinterpolate : (r.withStore s).interpolate text.toList = r.interpolate text.toList :=
      occurrencesText_withStore _ h
    simp only [hinterpolate]

theorem resolveText_withStore {text : String}
    (h : ∀ e ∈ r.stringEvents text, Event.Agrees r s e) :
    (r.withStore s).resolveText text = r.resolveText text := by
  rw [resolveText, resolveText, resolveString_withStore h]

mutual

theorem resolveAt_withStore (depth : Nat) (v : Value)
    (h : ∀ e ∈ r.events depth v, Event.Agrees r s e) :
    (r.withStore s).resolveAt depth v = r.resolveAt depth v :=
  match v with
  | .null | .bool _ | .number _ => rfl
  | .string _ => resolveString_withStore h
  | .array items => by
    rw [events] at h
    rw [resolveAt, resolveAt, resolveItems_withStore (depth + 1) items (List.forall_mem_cons.1 h).2]
    rfl
  | .object members => by
    rw [events] at h
    rw [resolveAt, resolveAt,
      resolveMembers_withStore (depth + 1) [] members (List.forall_mem_cons.1 h).2]
    rfl

theorem resolveItems_withStore (depth : Nat) (items : List Value)
    (h : ∀ e ∈ r.itemEvents depth items, Event.Agrees r s e) :
    (r.withStore s).resolveItems depth items = r.resolveItems depth items :=
  match items with
  | [] => rfl
  | item :: rest => by
    rw [itemEvents, List.forall_mem_append] at h
    rw [resolveItems, resolveItems, resolveAt_withStore depth item h.1,
      resolveItems_withStore depth rest h.2]

theorem resolveMembers_withStore (depth : Nat) (done : Entries Value)
    (members : List (String × Value))
    (h : ∀ e ∈ r.memberEvents depth members, Event.Agrees r s e) :
    (r.withStore s).resolveMembers depth done members = r.resolveMembers depth done members :=
  match members with
  | [] => rfl
  | (key, item) :: rest => by
    rw [memberEvents, List.forall_mem_append, List.forall_mem_append] at h
    obtain ⟨⟨hkey, hitem⟩, hrest⟩ := h
    -- the members that are done differ from run to run, but not from store to store
    have hdone (done : Entries Value) := resolveMembers_withStore depth done rest hrest
    rw [resolveMembers, resolveMembers, resolveText_withStore hkey,
      resolveAt_withStore depth item hitem]
    simp only [hdone]

end

theorem agrees_of_mentions {template : Value}
    (h : ∀ name ∈ r.mentions template, s.get? name = r.store.get? name) :
    ∀ e ∈ r.events 0 template, Event.Agrees r s e := by
  intro e he name hname
  exact h name (List.mem_filterMap.2 ⟨e, he, hname⟩)

end WithStore

/-- A template gives the same value or error, in every world, with any two stores in which the
variables that it mentions have the same values. So it is all the same whether an unmentioned
variable is there, in which order the variables were written, and in which scope one is seen. -/
theorem resolve_withStore_of_agree (r : Resolver) (template : Value) :
    (∀ s, (r.withStore s).mentions template = r.mentions template) ∧
    (∀ s, (∀ name ∈ r.mentions template, s.get? name = r.store.get? name) →
      (r.withStore s).resolve template = r.resolve template) ∧
    (∀ scope name v, name ∉ r.mentions template →
      (r.withStore (r.store.set scope name v)).resolve template = r.resolve template ∧
      (r.withStore (r.store.delete name).2).resolve template = r.resolve template) ∧
    (∀ s, (∀ scope, (s.table scope).entries.Perm (r.store.table scope).entries) →
      (r.withStore s).resolve template = r.resolve template) ∧
    (∀ scope name v, r.store.get? name = some v →
      (r.withStore ((r.store.delete name).2.set scope name v)).resolve template =
        r.resolve template) := by
  have hagree (s : Store) (h : ∀ name ∈ r.mentions template, s.get? name = r.store.get? name) :
      (r.withStore s).resolve template = r.resolve template :=
    resolveAt_withStore 0 template (agrees_of_mentions h)
  refine ⟨fun s => mentions_withStore r s template, hagree, ?_, ?_, ?_⟩
  · intro scope name v hname
    have hne {other : String} (hother : other ∈ r.mentions template) : other ≠ name := by
      rintro rfl
      exact hname hother
    refine ⟨hagree _ fun other hother => ?_, hagree _ fun other hother => ?_⟩
    · exact Store.get?_set_of_ne (hne hother) scope v r.store
    · exact Store.get?_delete_of_ne (hne hother) r.store
  · intro s hperm
    exact hagree s fun name _ => Store.get?_eq_of_perm hperm name
  · intro scope name v hv
    apply hagree
    intro other _
    by_cases hother : other = name
    · rw [hother, hv]
      exact Store.get?_set_delete scope name v r.store
    · rw [Store.get?_set_of_ne hother, Store.get?_delete_of_ne hother]

/-- The value of a mentioned variable holds the name of another one, which stands in the first store
only; an escaped placeholder names that one too. In the second store the mentioned variable is a
local one, behind another variable. -/
theorem resolve_withStore_of_agree_of_secret :
    let user := Value.string "\x7b\x7bsecret\x7d\x7d"
    let r : Resolver :=
      { store := (({} : Store).set .globals "user" user).set .globals "secret" .null
        functions := .ofList []
        settings := {} }
    let s := (({} : Store).set .locals "id" (.bool true)).set .locals "user" user
    let template : Value :=
      .object [("k\x7b\x7buser\x7d\x7d",
        .array [.string "\x7b\x7buser\x7d\x7d", .string "\\\x7b\x7bsecret\x7d\x7d",
          .string "\x7b\x7bmissing|1\x7d\x7d"])]
    (∀ name ∈ r.mentions template, s.get? name = r.store.get? name) ∧
      "secret" ∉ r.mentions template ∧
      (r.withStore s).resolve template = r.resolve template ∧
      (r.withStore (r.store.delete "secret").2).resolve template = r.resolve template := by
  intro user r s template
  have hmentions : r.mentions template = ["user", "user", "missing"] := by
    decide +kernel
  have hagree : ∀ name ∈ r.mentions template, s.get? name = r.store.get? name := by
    have huser : s.get? "user" = r.store.get? "user" := rfl
    have hmissing : s.get? "missing" = r.store.get? "missing" := rfl
    rw [hmentions]
    simp [huser, hmissing]
  have hsecret : "secret" ∉ r.mentions template := by
    rw [hmentions]
    decide
  obtain ⟨-, hstores, hunmentioned, -, -⟩ := resolve_withStore_of_agree r template
  exact ⟨hagree, hsecret, hstores s hagree, (hunmentioned .globals "secret" .null hsecret).2⟩

end Resolver

end Stencil
