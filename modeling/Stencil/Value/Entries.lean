/-!
# Ordered entries

Entries pair keys with values and keep the order in which the keys were first written. Writing to a
key that is present replaces its value in place; a key that was erased and written again is last.
Entries built by `insert` hold each key at most once (`nodup_keys_insert`).
-/

namespace Stencil

/-- Keys with their values, in order. -/
abbrev Entries (α : Type) := List (String × α)

namespace Entries

variable {α : Type}

/-- The keys in order. -/
def keys (es : Entries α) : List String :=
  es.map Prod.fst

/-- The value of a key. -/
def get? (key : String) : Entries α → Option α
  | [] => none
  | (k, v) :: rest => if k = key then some v else get? key rest

/-- Whether a key is present. -/
def contains (key : String) (es : Entries α) : Bool :=
  (get? key es).isSome

/-- Writes a value: in place if the key is present, else at the end. -/
def insert (key : String) (value : α) : Entries α → Entries α
  | [] => [(key, value)]
  | (k, v) :: rest => if k = key then (k, value) :: rest else (k, v) :: insert key value rest

/-- Removes a key; the order of the others stays. -/
def erase (key : String) (es : Entries α) : Entries α :=
  es.filter fun e => e.1 ≠ key

/-- Writes all entries of `added`, in their order. -/
def insertAll (added es : Entries α) : Entries α :=
  added.foldl (fun es e => insert e.1 e.2 es) es

theorem mem_keys_iff {key : String} {es : Entries α} : key ∈ keys es ↔ contains key es = true := by
  induction es with
  | nil => simp [keys, contains, get?]
  | cons e rest ih =>
    obtain ⟨k, v⟩ := e
    by_cases h : k = key
    · simp [keys, contains, get?, h]
    · simpa [keys, contains, get?, h, Ne.symm h] using ih

theorem mem_of_get? {key : String} {value : α} {es : Entries α}
    (h : get? key es = some value) : (key, value) ∈ es := by
  induction es with
  | nil => cases h
  | cons first rest ih =>
    obtain ⟨k, v⟩ := first
    rw [get?] at h
    split at h
    · rename_i hk
      cases h
      rw [hk]
      exact List.mem_cons_self
    · exact List.mem_cons_of_mem _ (ih h)

@[simp] theorem get?_insert_self (key : String) (value : α) (es : Entries α) :
    get? key (insert key value es) = some value := by
  induction es with
  | nil => simp [insert, get?]
  | cons e rest ih =>
    obtain ⟨k, v⟩ := e
    by_cases h : k = key <;> simp [insert, get?, h, ih]

theorem get?_insert_of_ne {key other : String} (h : other ≠ key) (value : α) (es : Entries α) :
    get? other (insert key value es) = get? other es := by
  induction es with
  | nil => simp [insert, get?, h.symm]
  | cons e rest ih =>
    obtain ⟨k, v⟩ := e
    by_cases hk : k = key
    · subst hk
      simp [insert, get?, h.symm]
    · simp [insert, get?, hk, ih]

/-- Writing a key changes what that key gives, and nothing else. -/
theorem get?_insert (key other : String) (value : α) (es : Entries α) :
    get? other (insert key value es) = if other = key then some value else get? other es := by
  by_cases h : other = key
  · subst h
    simp
  · simp [h, get?_insert_of_ne h]

/-- Removing a key changes what that key gives, and nothing else. -/
theorem get?_erase (key other : String) (es : Entries α) :
    get? other (erase key es) = if other = key then none else get? other es := by
  induction es with
  | nil => simp [erase, get?]
  | cons e rest ih =>
    obtain ⟨k, v⟩ := e
    rw [erase] at ih ⊢
    by_cases hk : k = key
    · subst hk
      by_cases h : other = k
      · simpa [h] using ih
      · simpa [h, get?, Ne.symm h] using ih
    · by_cases h : k = other
      · subst h
        simp [hk, get?]
      · simpa [hk, get?, h] using ih

/-- A present key keeps its place, and a new one follows the others. -/
theorem keys_insert (key : String) (value : α) (es : Entries α) :
    keys (insert key value es) = if key ∈ keys es then keys es else keys es ++ [key] := by
  induction es with
  | nil => simp [insert, keys]
  | cons e rest ih =>
    obtain ⟨k, v⟩ := e
    by_cases h : k = key
    · simp [insert, keys, h]
    · simp only [keys] at ih
      simp only [insert, h, if_false, keys, List.map_cons, ih, List.mem_cons, Ne.symm h, false_or]
      split <;> simp_all

theorem nodup_keys_insert {key : String} {value : α} {es : Entries α} (h : (keys es).Nodup) :
    (keys (insert key value es)).Nodup := by
  rw [keys_insert]
  split
  · exact h
  · rename_i hk
    exact List.nodup_append.2 ⟨h, by simp, by rintro a ha b hb rfl; simp_all⟩

theorem nodup_keys_insertAll {added es : Entries α} (h : (keys es).Nodup) :
    (keys (insertAll added es)).Nodup := by
  induction added generalizing es with
  | nil => exact h
  | cons e rest ih => exact ih (nodup_keys_insert h)

/-- Writing a member adds no value but the one that is written. -/
theorem mem_insert {key : String} {value : α} {es : Entries α} {e : String × α}
    (h : e ∈ insert key value es) : e.2 = value ∨ e ∈ es := by
  induction es with
  | nil => simp_all [insert]
  | cons first rest ih =>
    obtain ⟨k, v⟩ := first
    rw [insert] at h
    split at h
    · rcases List.mem_cons.1 h with rfl | hrest
      · exact .inl rfl
      · exact .inr (List.mem_cons_of_mem _ hrest)
    · rcases List.mem_cons.1 h with rfl | hrest
      · exact .inr List.mem_cons_self
      · rcases ih hrest with hvalue | hold
        · exact .inl hvalue
        · exact .inr (List.mem_cons_of_mem _ hold)

theorem mem_insertAll {added es : Entries α} {e : String × α}
    (h : e ∈ insertAll added es) : (∃ a ∈ added, a.2 = e.2) ∨ e ∈ es := by
  induction added generalizing es with
  | nil => exact .inr h
  | cons first rest ih =>
    rcases ih h with ⟨a, ha, heq⟩ | hmem
    · exact .inl ⟨a, List.mem_cons_of_mem _ ha, heq⟩
    · rcases mem_insert hmem with hvalue | hold
      · exact .inl ⟨first, List.mem_cons_self, hvalue.symm⟩
      · exact .inr hold

/-- A new key goes to the end. -/
theorem insert_of_not_mem {key : String} {es : Entries α} (h : key ∉ keys es) (value : α) :
    insert key value es = es ++ [(key, value)] := by
  induction es with
  | nil => rfl
  | cons e rest ih =>
    obtain ⟨k, v⟩ := e
    simp only [keys, List.map_cons, List.mem_cons, not_or] at h
    simp [insert, Ne.symm h.1, ih h.2]

/-- Writing distinct new entries appends them. -/
theorem insertAll_of_nodup_append {added es : Entries α} (h : (keys (es ++ added)).Nodup) :
    insertAll added es = es ++ added := by
  induction added generalizing es with
  | nil => simp [insertAll]
  | cons e rest ih =>
    obtain ⟨k, v⟩ := e
    have hk : k ∉ keys es := by
      intro hmem
      simp only [keys, List.map_append, List.map_cons] at h
      exact (List.nodup_append.1 h).2.2 k hmem k (by simp) rfl
    have hstep : insertAll ((k, v) :: rest) es = insertAll rest (es ++ [(k, v)]) :=
      congrArg (insertAll rest) (insert_of_not_mem hk v)
    rw [hstep, ih (by simpa using h)]
    simp

theorem insertAll_nil_of_nodup {es : Entries α} (h : (keys es).Nodup) : insertAll es [] = es :=
  insertAll_of_nodup_append h

/-- The keys that are left keep their order. -/
theorem keys_erase (key : String) (es : Entries α) :
    keys (erase key es) = (keys es).filter (· ≠ key) := by
  simp only [keys, erase, List.filter_map]
  rfl

theorem nodup_keys_erase {key : String} {es : Entries α} (h : (keys es).Nodup) :
    (keys (erase key es)).Nodup := by
  rw [keys_erase]
  exact h.sublist List.filter_sublist

end Entries

end Stencil
