import Stencil.Value.Entries

/-!
# Tables

A table is a list of entries whose keys are distinct. All that is read from a table, its order
included, is read from its entries, and every operation keeps the keys distinct.
-/

namespace Stencil

/-- Entries with distinct keys. -/
@[ext] structure Table (α : Type) where
  entries : Entries α := []
  nodup : (Entries.keys entries).Nodup := by exact List.nodup_nil

namespace Table

variable {α : Type}

/-- The keys in order. -/
def keys (t : Table α) : List String :=
  Entries.keys t.entries

/-- The value of a key. -/
def get? (key : String) (t : Table α) : Option α :=
  Entries.get? key t.entries

/-- Whether a key is present. -/
def contains (key : String) (t : Table α) : Bool :=
  Entries.contains key t.entries

/-- Whether there are no entries. -/
def isEmpty (t : Table α) : Bool :=
  t.entries.isEmpty

/-- Writes a value: in place if the key is present, else at the end. -/
def insert (key : String) (value : α) (t : Table α) : Table α :=
  { entries := Entries.insert key value t.entries
    nodup := Entries.nodup_keys_insert t.nodup }

/-- Removes a key; the order of the others stays. -/
def erase (key : String) (t : Table α) : Table α :=
  { entries := Entries.erase key t.entries
    nodup := Entries.nodup_keys_erase t.nodup }

/-- Writes all of some entries, in their order. -/
def insertAll (added : Entries α) (t : Table α) : Table α :=
  { entries := Entries.insertAll added t.entries
    nodup := Entries.nodup_keys_insertAll t.nodup }

/-- The table that results from writing some entries, in their order. -/
def ofEntries (es : Entries α) : Table α :=
  insertAll es {}

/-- Writing a key changes what that key gives, and nothing else. -/
theorem get?_insert (key other : String) (value : α) (t : Table α) :
    (t.insert key value).get? other = if other = key then some value else t.get? other :=
  Entries.get?_insert key other value t.entries

/-- Removing a key changes what that key gives, and nothing else. -/
theorem get?_erase (key other : String) (t : Table α) :
    (t.erase key).get? other = if other = key then none else t.get? other :=
  Entries.get?_erase key other t.entries

/-- A present key keeps its place, and a new one follows the others. -/
theorem keys_insert (key : String) (value : α) (t : Table α) :
    (t.insert key value).keys = if key ∈ t.keys then t.keys else t.keys ++ [key] :=
  Entries.keys_insert key value t.entries

/-- The keys that are left keep their order. -/
theorem keys_erase (key : String) (t : Table α) :
    (t.erase key).keys = t.keys.filter (· ≠ key) :=
  Entries.keys_erase key t.entries

/-- Writing entries leaves the keys that are there in their places. -/
theorem keys_prefix_insertAll (added : Entries α) (t : Table α) :
    t.keys <+: (t.insertAll added).keys := by
  induction added generalizing t with
  | nil => exact List.prefix_refl _
  | cons e rest ih =>
    have hfirst : t.keys <+: (t.insert e.1 e.2).keys := by
      rw [keys_insert]
      split
      · exact List.prefix_refl _
      · exact List.prefix_append _ _
    exact hfirst.trans (ih (t.insert e.1 e.2))

theorem contains_iff {key : String} {t : Table α} : t.contains key = true ↔ key ∈ t.keys :=
  Entries.mem_keys_iff.symm

/-- Writing distinct entries gives a table of just these. -/
theorem ofEntries_entries (t : Table α) : ofEntries t.entries = t := by
  ext1
  exact Entries.insertAll_nil_of_nodup t.nodup

end Table

end Stencil
