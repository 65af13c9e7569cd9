import Stencil.Proofs.Store.Histories
import Stencil.Store.Snapshot

/-!
# Runs of a store

A run is a row of operations on a store that starts empty. Each operation makes some changes in each
scope, and the changes of a scope are a history of its own. The variables of a scope are what that
history says, and what is read without a scope is read off the two scopes
(`run_is_two_ordered_tables`).
-/

namespace Stencil

/-- The variables of a scope. -/
def Snapshot.table (scope : Scope) (snapshot : Snapshot) : Table Value :=
  match scope with
  | .globals => snapshot.globals
  | .locals => snapshot.locals

/-- The writes of the variables of a scope, in their order. -/
def Snapshot.writes (scope : Scope) (snapshot : Snapshot) : History Value :=
  (snapshot.table scope).entries.map fun e => .write e.1 e.2

namespace Store

/-- What can be done to a store. -/
inductive Operation where
  | set (scope : Scope) (key : String) (value : Value)
  | delete (key : String)
  | deleteFrom (scope : Scope) (key : String)
  | clear (scope : Scope)
  | clearAll
  | importSnapshot (snapshot : Snapshot)
  | ofSnapshot (snapshot : Snapshot)

namespace Operation

/-- The store behind an operation. -/
def apply : Operation → Store → Store
  | .set scope key value, s => s.set scope key value
  | .delete key, s => (s.delete key).2
  | .deleteFrom scope key, s => (s.deleteFrom scope key).2
  | .clear scope, s => s.clear scope
  | .clearAll, s => s.clearAll
  | .importSnapshot snapshot, s => s.importSnapshot snapshot
  | .ofSnapshot snapshot, _ => Store.ofSnapshot snapshot

/-- The changes that an operation makes in a scope. -/
def changes (scope : Scope) : Operation → History Value
  | .set target key value => if scope = target then [.write key value] else []
  | .delete key => [.remove key]
  | .deleteFrom target key => if scope = target then [.remove key] else []
  | .clear target => if scope = target then [.clear] else []
  | .clearAll => [.clear]
  | .importSnapshot snapshot => snapshot.writes scope
  | .ofSnapshot snapshot => .clear :: snapshot.writes scope

end Operation

/-- The store that a row of operations makes of an empty one. -/
def run (ops : List Operation) : Store :=
  ops.foldl (fun s op => op.apply s) {}

/-- The changes that a row of operations makes in a scope. -/
def history (scope : Scope) (ops : List Operation) : History Value :=
  ops.flatMap (Operation.changes scope)

/-! ## What one operation does to a scope -/

variable {s : Store} {key : String}

theorem table_set_self (scope : Scope) (key : String) (value : Value) (s : Store) :
    (s.set scope key value).table scope = (s.table scope).insert key value := by
  simp [set]

theorem table_set_of_ne {scope other : Scope} (h : other ≠ scope) (key : String) (value : Value)
    (s : Store) : (s.set scope key value).table other = s.table other := by
  simp [set, table_withTable_of_ne h]

theorem table_set (scope target : Scope) (key : String) (value : Value) (s : Store) :
    (s.set target key value).table scope =
      if target = scope then (s.table scope).insert key value else s.table scope := by
  split
  · rename_i h
    rw [h]
    exact table_set_self scope key value s
  · rename_i h
    exact table_set_of_ne (Ne.symm h) key value s

theorem table_deleteFrom_self (scope : Scope) (key : String) (s : Store) :
    (s.deleteFrom scope key).2.table scope = (s.table scope).erase key := by
  simp [deleteFrom]

theorem table_deleteFrom_of_ne {scope other : Scope} (h : other ≠ scope) (key : String)
    (s : Store) : (s.deleteFrom scope key).2.table other = s.table other := by
  simp [deleteFrom, table_withTable_of_ne h]

theorem table_delete (scope : Scope) (key : String) (s : Store) :
    (s.delete key).2.table scope = (s.table scope).erase key := by
  cases scope with
  | globals => rfl
  | locals => rfl

theorem table_importSnapshot (scope : Scope) (snapshot : Snapshot) (s : Store) :
    (s.importSnapshot snapshot).table scope =
      (s.table scope).insertAll (snapshot.table scope).entries := by
  cases scope with
  | globals => rfl
  | locals => rfl

/-- Writing entries one after the other is inserting them all. -/
theorem applyTo_map_write (es : Entries Value) (t : Table Value) :
    History.applyTo (es.map fun e => .write e.1 e.2) t = t.insertAll es := by
  induction es generalizing t with
  | nil => rfl
  | cons e rest ih =>
    rw [List.map_cons, History.applyTo_cons, ih]
    rfl

/-- An operation changes a scope as its changes say. -/
theorem table_apply (scope : Scope) (op : Operation) (s : Store) :
    (op.apply s).table scope = (op.changes scope).applyTo (s.table scope) := by
  cases op with
  | set target key value =>
    by_cases h : scope = target
    · subst h
      rw [Operation.changes, if_pos rfl]
      exact table_set_self scope key value s
    · rw [Operation.changes, if_neg h]
      exact table_set_of_ne h key value s
  | delete key => exact table_delete scope key s
  | deleteFrom target key =>
    by_cases h : scope = target
    · subst h
      rw [Operation.changes, if_pos rfl]
      exact table_deleteFrom_self scope key s
    · rw [Operation.changes, if_neg h]
      exact table_deleteFrom_of_ne h key s
  | clear target =>
    by_cases h : scope = target
    · subst h
      rw [Operation.changes, if_pos rfl]
      exact table_withTable scope {} s
    · rw [Operation.changes, if_neg h]
      exact table_withTable_of_ne h {} s
  | clearAll =>
    cases scope with
    | globals => rfl
    | locals => rfl
  | importSnapshot snapshot =>
    have hwrites := applyTo_map_write (snapshot.table scope).entries (s.table scope)
    exact (table_importSnapshot scope snapshot s).trans hwrites.symm
  | ofSnapshot snapshot =>
    have hwrites := applyTo_map_write (snapshot.table scope).entries {}
    have hentries : Table.ofEntries (snapshot.table scope).entries = snapshot.table scope :=
      Table.ofEntries_entries _
    have htable : (Store.ofSnapshot snapshot).table scope = snapshot.table scope := by
      cases scope with
      | globals => rfl
      | locals => rfl
    exact htable.trans (hentries.symm.trans hwrites.symm)

/-- A scope of a run is the table that its history leaves. -/
theorem table_run (scope : Scope) (ops : List Operation) :
    (run ops).table scope = History.table (history scope ops) := by
  have hrun (s : Store) : (ops.foldl (fun s op => op.apply s) s).table scope =
      (history scope ops).applyTo (s.table scope) := by
    induction ops generalizing s with
    | nil => rfl
    | cons op rest ih =>
      have hrow : history scope (op :: rest) = op.changes scope ++ history scope rest :=
        List.flatMap_cons
      rw [List.foldl_cons, ih, table_apply, hrow, History.applyTo_append]
  have hempty : ({} : Store).table scope = {} := by
    cases scope with
    | globals => rfl
    | locals => rfl
  rw [run, hrun, hempty]
  rfl

/-! ## What is read from both scopes -/

theorem has_iff_mem (key : String) (s : Store) :
    s.has key = true ↔ key ∈ s.locals.keys ∨ key ∈ s.globals.keys := by
  rw [has, Bool.or_eq_true, Table.contains_iff, Table.contains_iff]

theorem has_eq_isSome_get? (key : String) (s : Store) : s.has key = (s.get? key).isSome := by
  rw [get?, Option.isSome_or]
  rfl

theorem mem_keys_iff (key : String) (s : Store) :
    key ∈ s.keys ↔ key ∈ s.locals.keys ∨ key ∈ s.globals.keys := by
  rw [keys, Names.mem_ofList, List.mem_append]

theorem isEmpty_iff (s : Store) : s.isEmpty = true ↔ s.size = 0 := by
  have htable (t : Table Value) : t.isEmpty = true ↔ ∀ key, key ∉ t.keys := by
    rw [← List.eq_nil_iff_forall_not_mem]
    simp [Table.isEmpty, Table.keys, Entries.keys]
  rw [size, List.length_eq_zero_iff, List.eq_nil_iff_forall_not_mem, isEmpty, Bool.and_eq_true,
    htable, htable, ← forall_and]
  simp [mem_keys_iff]

theorem fst_delete (key : String) (s : Store) : (s.delete key).1 = s.has key := rfl

/-- A deleted variable is in neither scope. -/
theorem has_delete (key : String) (s : Store) : (s.delete key).2.has key = false := by
  have habsent (scope : Scope) : key ∉ ((s.delete key).2.table scope).keys := by
    rw [table_delete, Table.keys_erase]
    simp
  rw [Bool.eq_false_iff, Ne, has_iff_mem, not_or]
  exact ⟨habsent .locals, habsent .globals⟩

/-- A run leaves in each scope what its history says: each key once, with the value of its last
write unless it was removed since, and in the order in which the keys entered. Writing to or
deleting from a scope leaves the other one alone, and what is read without a scope is the union of
both, the local scope first. -/
theorem run_is_two_ordered_tables (ops : List Operation) :
    let s := run ops
    (∀ scope, (s.table scope).keys.Nodup ∧
      (∀ key v, s.getIn? scope key = some v ↔ (history scope ops).LastWrote key v) ∧
      (∀ key, key ∈ (s.table scope).keys ↔ ∃ n, (history scope ops).EnteredAt key n) ∧
      (s.table scope).keys.Pairwise fun a b => ∀ m n,
        (history scope ops).EnteredAt a m → (history scope ops).EnteredAt b n → m < n) ∧
    (∀ scope other key value, other ≠ scope →
      (s.set scope key value).table other = s.table other ∧
      (s.deleteFrom scope key).2.table other = s.table other) ∧
    (∀ scope key value,
      (key ∈ (s.table scope).keys →
        ((s.set scope key value).table scope).keys = (s.table scope).keys) ∧
      ((s.delete key).2.table scope).keys = (s.table scope).keys.filter (· ≠ key) ∧
      ((s.deleteFrom scope key).2.table scope).keys = (s.table scope).keys.filter (· ≠ key) ∧
      (((s.delete key).2.set scope key value).table scope).keys =
        (s.table scope).keys.filter (· ≠ key) ++ [key]) ∧
    (∀ scope snapshot,
      (s.table scope).keys <+: ((s.importSnapshot snapshot).table scope).keys) ∧
    (∀ key, s.get? key = (s.getIn? .locals key).or (s.getIn? .globals key) ∧
      s.has key = (s.get? key).isSome ∧
      (key ∈ s.keys ↔ s.has key = true) ∧
      (key ∈ s.keys ↔ ∃ scope, key ∈ (s.table scope).keys)) ∧
    s.keys.Pairwise (· < ·) ∧ s.size = s.keys.length ∧ (s.isEmpty = true ↔ s.size = 0) ∧
    (∀ key, (s.delete key).1 = s.has key ∧ (s.delete key).2.has key = false) := by
  intro s
  have hfollows (scope : Scope) : History.Follows (s.table scope) (history scope ops) := by
    have htable := History.follows_table (history scope ops)
    rwa [← table_run] at htable
  have hdeleted (scope : Scope) (key : String) :
      ((s.delete key).2.table scope).keys = (s.table scope).keys.filter (· ≠ key) := by
    rw [table_delete, Table.keys_erase]
  refine ⟨?_, ?_, ?_, ?_, ?_, Names.pairwise_ofList _, rfl, isEmpty_iff s, ?_⟩
  · intro scope
    exact ⟨(s.table scope).nodup, (hfollows scope).get?_eq_some_iff,
      (hfollows scope).mem_keys_iff, (hfollows scope).ordered⟩
  · intro scope other key value hne
    exact ⟨table_set_of_ne hne key value s, table_deleteFrom_of_ne hne key s⟩
  · intro scope key value
    refine ⟨?_, hdeleted scope key, ?_, ?_⟩
    · intro hkey
      rw [table_set_self, Table.keys_insert, if_pos hkey]
    · rw [table_deleteFrom_self, Table.keys_erase]
    · have habsent : key ∉ ((s.delete key).2.table scope).keys := by
        rw [hdeleted]
        simp
      rw [table_set_self, Table.keys_insert, if_neg habsent, hdeleted]
  · intro scope snapshot
    rw [table_importSnapshot]
    exact Table.keys_prefix_insertAll _ _
  · intro key
    refine ⟨rfl, has_eq_isSome_get? key s, ?_, ?_⟩
    · rw [mem_keys_iff, has_iff_mem]
    · rw [mem_keys_iff]
      constructor
      · rintro (hlocal | hglobal)
        · exact ⟨.locals, hlocal⟩
        · exact ⟨.globals, hglobal⟩
      · rintro ⟨scope, hkey⟩
        cases scope with
        | globals => exact Or.inr hkey
        | locals => exact Or.inl hkey
  · intro key
    exact ⟨fst_delete key s, has_delete key s⟩

end Store

end Stencil
