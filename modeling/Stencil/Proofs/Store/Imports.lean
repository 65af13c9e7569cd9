import Stencil.Proofs.Store.Runs
import Stencil.Proofs.Value.Merging

/-!
# Importing snapshots

Importing a snapshot writes it over the variables that are there, scope by scope. What a variable
gives afterwards is what the snapshot says, or else what it gave before; nothing is removed, and the
variables that are new follow the others. From this the laws of importing follow: it can be repeated
without a change, the own snapshot changes nothing, and two snapshots can be put together before
they are imported (`importSnapshot_merges`).
-/

namespace Stencil.Store

variable {s t : Store}

/-- A store is known from its two scopes. -/
theorem ext_of_table (h : ∀ scope, s.table scope = t.table scope) : s = t := by
  ext1
  · exact h .globals
  · exact h .locals

theorem table_snapshot (scope : Scope) (s : Store) : s.snapshot.table scope = s.table scope := by
  cases scope with
  | globals => rfl
  | locals => rfl

theorem table_ofSnapshot (scope : Scope) (snapshot : Snapshot) :
    (ofSnapshot snapshot).table scope = snapshot.table scope := by
  cases scope with
  | globals => rfl
  | locals => rfl

theorem table_clearAll (scope : Scope) (s : Store) : s.clearAll.table scope = {} := by
  cases scope with
  | globals => rfl
  | locals => rfl

/-- Importing again what was just imported changes nothing. -/
theorem importSnapshot_again (s : Store) (e : Snapshot) :
    (s.importSnapshot e).importSnapshot e = s.importSnapshot e := by
  refine ext_of_table fun scope => ?_
  simp only [table_importSnapshot]
  refine Table.insertAll_entries_eq_self _ _ ?_ ?_
  · intro key hkey
    rw [Table.keys_insertAll_entries, List.mem_append, List.mem_filter, decide_eq_true_iff]
    tauto
  · intro key v hget
    rw [Table.get?_insertAll_entries, hget]
    rfl

/-- A store that imports its own snapshot stays as it is. -/
theorem importSnapshot_snapshot (s : Store) : s.importSnapshot s.snapshot = s := by
  refine ext_of_table fun scope => ?_
  rw [table_importSnapshot, table_snapshot]
  exact Table.insertAll_entries_eq_self _ _ (fun _ hkey => hkey) (fun _ _ hget => hget)

/-- A cleared store that imports a snapshot is the store of that snapshot. -/
theorem importSnapshot_clearAll (s : Store) (e : Snapshot) :
    s.clearAll.importSnapshot e = ofSnapshot e := by
  refine ext_of_table fun scope => ?_
  rw [table_importSnapshot, table_clearAll, table_ofSnapshot]
  exact Table.ofEntries_entries _

/-- Two snapshots that are imported one after the other can be put together first. -/
theorem importSnapshot_importSnapshot (s : Store) (e f : Snapshot) :
    (s.importSnapshot e).importSnapshot f =
      s.importSnapshot ((ofSnapshot e).importSnapshot f).snapshot := by
  refine ext_of_table fun scope => ?_
  simp only [table_importSnapshot, table_snapshot, table_ofSnapshot]
  exact Table.insertAll_entries_insertAll_entries _ _ _

/-- Importing a snapshot is a merge. It is idempotent, associative, and the own snapshot is neutral;
what is imported into an empty store is the store of the snapshot. In each scope a key gives what
the snapshot says, or else what it gave before; the keys that are there stay in their places, and
the new ones follow in the order of the snapshot. -/
theorem importSnapshot_merges (s : Store) (e f : Snapshot) :
    (s.importSnapshot e).importSnapshot e = s.importSnapshot e ∧
    s.importSnapshot s.snapshot = s ∧
    ({} : Store).importSnapshot e = ofSnapshot e ∧
    s.clearAll.importSnapshot e = ofSnapshot e ∧
    (s.importSnapshot e).importSnapshot f =
      s.importSnapshot ((ofSnapshot e).importSnapshot f).snapshot ∧
    ∀ scope,
      (∀ key, (s.importSnapshot e).getIn? scope key =
        ((e.table scope).get? key).or (s.getIn? scope key)) ∧
      ((s.importSnapshot e).table scope).keys =
        (s.table scope).keys ++
          (e.table scope).keys.filter fun key => key ∉ (s.table scope).keys := by
  refine ⟨importSnapshot_again s e, importSnapshot_snapshot s, importSnapshot_clearAll {} e,
    importSnapshot_clearAll s e, importSnapshot_importSnapshot s e f, fun scope => ⟨?_, ?_⟩⟩
  · intro key
    rw [getIn?, table_importSnapshot, Table.get?_insertAll_entries]
    rfl
  · rw [table_importSnapshot, Table.keys_insertAll_entries]

end Stencil.Store
