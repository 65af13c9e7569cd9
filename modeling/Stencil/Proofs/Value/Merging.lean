import Mathlib.Data.List.Infix
import Stencil.Value.Table

/-!
# Writing entries over others

Writing a row of entries into others, one after the other, gives each key the value of its last
entry in the row (`get?_insertAll`). The keys stand in the order in which they occur for the first
time, those that were there before all others (`keys_insertAll`). Entries with distinct keys are
known from their keys and what these give (`ext_of_get?`), so two ways of writing leave the same if
they leave the same keys in the same order with the same values.
-/

namespace Stencil

/-! ## First occurrences -/

section FirstOccurrences

variable {α : Type} [BEq α] [LawfulBEq α]

/-- What comes last occurs there for the first time, or it has its place already. -/
theorem eraseDups_concat (xs : List α) (x : α) :
    (xs ++ [x]).eraseDups = if x ∈ xs then xs.eraseDups else xs.eraseDups ++ [x] := by
  rw [List.eraseDups_append]
  split
  · rename_i hmem
    have hnothing : [x].removeAll xs = [] := by simp [List.removeAll, hmem]
    rw [hnothing, List.eraseDups_nil, List.append_nil]
  · rename_i hmem
    have hitself : [x].removeAll xs = [x] := by simp [List.removeAll, hmem]
    simp [hitself, List.eraseDups_cons]

theorem nodup_eraseDups (xs : List α) : xs.eraseDups.Nodup := by
  induction xs using List.reverseRecOn with
  | nil => exact List.nodup_nil
  | append_singleton xs x ih =>
    rw [eraseDups_concat]
    split
    · exact ih
    · rename_i hmem
      rw [List.nodup_append]
      refine ⟨ih, by simp, ?_⟩
      rintro a ha b hb rfl
      rw [List.mem_singleton.1 hb] at ha
      exact hmem (List.mem_eraseDups.1 ha)

theorem eraseDups_of_nodup {xs : List α} (h : xs.Nodup) : xs.eraseDups = xs := by
  induction xs using List.reverseRecOn with
  | nil => rfl
  | append_singleton xs x ih =>
    rw [List.nodup_append] at h
    have hmem : x ∉ xs := fun hx => h.2.2 x hx x (by simp) rfl
    rw [eraseDups_concat, if_neg hmem, ih h.1]

end FirstOccurrences

namespace Entries

variable {α : Type} {es fs added : Entries α} {key : String} {v : α}

/-! ## What a key gives -/

/-- Among distinct keys, what a key gives is what stands beside it. -/
theorem get?_eq_some_iff_mem (h : (keys es).Nodup) : get? key es = some v ↔ (key, v) ∈ es := by
  induction es with
  | nil => simp [get?]
  | cons e rest ih =>
    obtain ⟨k, u⟩ := e
    simp only [keys, List.map_cons, List.nodup_cons] at h
    by_cases hk : k = key
    · subst hk
      have hrest : (k, v) ∉ rest := fun hmem => h.1 (List.mem_map_of_mem hmem)
      simp [get?, hrest, eq_comm]
    · simp [get?, hk, ih h.2, Ne.symm hk]

theorem get?_eq_none_iff : get? key es = none ↔ key ∉ keys es := by
  rw [mem_keys_iff, contains]
  simp

/-- Of distinct keys the order has no part in what they give. -/
theorem get?_eq_of_perm (h : (keys es).Nodup) (hperm : fs.Perm es) (key : String) :
    get? key fs = get? key es := by
  have hfs : (keys fs).Nodup := (hperm.map Prod.fst).nodup_iff.2 h
  apply Option.ext
  intro v
  rw [get?_eq_some_iff_mem hfs, get?_eq_some_iff_mem h]
  exact hperm.mem_iff

/-- Entries with distinct keys are known from the order of the keys and what each gives. -/
theorem ext_of_get? (h : (keys es).Nodup) (hkeys : keys es = keys fs)
    (hget : ∀ key, get? key es = get? key fs) : es = fs := by
  induction es generalizing fs with
  | nil => exact (List.map_eq_nil_iff.1 hkeys.symm).symm
  | cons e rest ih =>
    obtain ⟨k, v⟩ := e
    cases fs with
    | nil => cases hkeys
    | cons f others =>
      obtain ⟨l, u⟩ := f
      obtain ⟨rfl, hothers⟩ := List.cons.inj hkeys
      have hvalue : v = u := by
        have hk := hget k
        simpa [get?] using hk
      have hk := (List.nodup_cons.1 h).1
      have hrest : rest = others := by
        refine ih (List.nodup_cons.1 h).2 hothers fun key => ?_
        by_cases hkey : k = key
        · -- the first key stands in neither rest
          subst hkey
          have hother : k ∉ keys others := by
            rw [keys, ← hothers]
            exact hk
          rw [get?_eq_none_iff.2 hk, get?_eq_none_iff.2 hother]
        · have hboth := hget key
          simpa [get?, hkey] using hboth
      rw [hvalue, hrest]

/-! ## The last entry of a key -/

/-- The value in the last entry of a key. -/
def last? (key : String) (es : Entries α) : Option α :=
  get? key es.reverse

theorem last?_concat (key k : String) (v : α) (es : Entries α) :
    last? key (es ++ [(k, v)]) = if k = key then some v else last? key es := by
  rw [last?, List.reverse_concat]
  rfl

/-- The last entry of a key has the value, and no entry of the key stands behind it. -/
theorem last?_eq_some_iff :
    last? key es = some v ↔ ∃ front back, es = front ++ (key, v) :: back ∧ key ∉ keys back := by
  induction es using List.reverseRecOn with
  | nil => simp [last?, get?]
  | append_singleton es e ih =>
    obtain ⟨k, u⟩ := e
    rw [last?_concat]
    constructor
    · intro h
      split at h
      · rename_i hk
        cases h
        exact ⟨es, [], by rw [hk], by simp [keys]⟩
      · rename_i hk
        obtain ⟨front, back, rfl, hback⟩ := ih.1 h
        refine ⟨front, back ++ [(k, u)], by simp, ?_⟩
        simpa [keys, Ne.symm hk] using hback
    · rintro ⟨front, back, heq, hback⟩
      rcases List.eq_nil_or_concat back with rfl | ⟨rest, last, rfl⟩
      · obtain ⟨-, hlast⟩ := List.append_inj' heq rfl
        obtain ⟨rfl, rfl⟩ := Prod.mk.inj (List.cons.inj hlast).1
        rw [if_pos rfl]
      · rw [List.concat_eq_append, ← List.cons_append, ← List.append_assoc] at heq
        obtain ⟨rfl, hlast⟩ := List.append_inj' heq rfl
        obtain rfl : (k, u) = last := (List.cons.inj hlast).1
        simp only [keys, List.concat_eq_append, List.map_append, List.mem_append, not_or] at hback
        have hk : k ≠ key := by
          rintro rfl
          exact hback.2 (by simp)
        rw [if_neg hk]
        exact ih.2 ⟨front, rest, rfl, hback.1⟩

/-- Of distinct keys each has one entry, which is the last one. -/
theorem last?_of_nodup (h : (keys es).Nodup) (key : String) : last? key es = get? key es :=
  get?_eq_of_perm h (List.reverse_perm es) key

/-! ## What is left -/

theorem insertAll_append (front back es : Entries α) :
    insertAll (front ++ back) es = insertAll back (insertAll front es) :=
  List.foldl_append

theorem insertAll_concat (added : Entries α) (key : String) (v : α) (es : Entries α) :
    insertAll (added ++ [(key, v)]) es = insert key v (insertAll added es) :=
  insertAll_append added [(key, v)] es

/-- A key that is written gives the value of its last entry, and the others give what they gave. -/
theorem get?_insertAll (key : String) (added es : Entries α) :
    get? key (insertAll added es) = (last? key added).or (get? key es) := by
  induction added using List.reverseRecOn with
  | nil => rfl
  | append_singleton added e ih =>
    obtain ⟨k, v⟩ := e
    rw [insertAll_concat, get?_insert, last?_concat, ih]
    by_cases h : k = key
    · subst h
      simp
    · simp [h, Ne.symm h]

/-- The keys stand in the order in which they occur for the first time. -/
theorem keys_insertAll (h : (keys es).Nodup) (added : Entries α) :
    keys (insertAll added es) = (keys es ++ keys added).eraseDups := by
  induction added using List.reverseRecOn with
  | nil => simpa [keys, insertAll] using (eraseDups_of_nodup h).symm
  | append_singleton added e ih =>
    obtain ⟨k, v⟩ := e
    have hkeys : keys es ++ keys (added ++ [(k, v)]) = (keys es ++ keys added) ++ [k] := by
      simp [keys]
    rw [insertAll_concat, keys_insert, hkeys, eraseDups_concat, ih]
    simp only [List.mem_eraseDups]

/-- Entries written into nothing are known from the row: the keys in the order of their first
entries, each with the value of its last one. -/
theorem eq_insertAll_nil_iff {merged written : Entries α} :
    merged = insertAll written [] ↔
      keys merged = (keys written).eraseDups ∧ ∀ key, get? key merged = last? key written := by
  have hnil : (keys ([] : Entries α)).Nodup := List.nodup_nil
  have hkeys : keys (insertAll written []) = (keys written).eraseDups :=
    keys_insertAll hnil written
  have hget (key : String) : get? key (insertAll written []) = last? key written := by
    rw [get?_insertAll]
    exact Option.or_none
  constructor
  · rintro rfl
    exact ⟨hkeys, hget⟩
  · rintro ⟨hmerged, hvalues⟩
    have hnodup : (keys merged).Nodup := hmerged ▸ nodup_eraseDups (keys written)
    refine ext_of_get? hnodup (hmerged.trans hkeys.symm) fun key => ?_
    rw [hvalues, hget]

end Entries

namespace Table

variable {α : Type}

/-- A table is known from the order of its keys and what each gives. -/
theorem ext_of_get? {t u : Table α} (hkeys : t.keys = u.keys)
    (hget : ∀ key, t.get? key = u.get? key) : t = u := by
  ext1
  exact Entries.ext_of_get? t.nodup hkeys hget

/-- A key that is written gives the value of its last entry, and the others give what they gave. -/
theorem get?_insertAll (key : String) (added : Entries α) (t : Table α) :
    (t.insertAll added).get? key = (Entries.last? key added).or (t.get? key) :=
  Entries.get?_insertAll key added t.entries

/-- Present keys keep their places, and new ones follow in the order of their first entries. -/
theorem keys_insertAll (added : Entries α) (t : Table α) :
    (t.insertAll added).keys =
      t.keys ++ ((Entries.keys added).filter fun key => key ∉ t.keys).eraseDups := by
  have hkeys : (t.insertAll added).keys = (t.keys ++ Entries.keys added).eraseDups :=
    Entries.keys_insertAll t.nodup added
  have hold : t.keys.eraseDups = t.keys := eraseDups_of_nodup t.nodup
  have hnew : (Entries.keys added).removeAll t.keys =
      (Entries.keys added).filter fun key => key ∉ t.keys := by
    simp [List.removeAll]
  rw [hkeys, List.eraseDups_append, hold, hnew]

/-- The order of the entries of a table has no part in what its keys give. -/
theorem get?_eq_of_perm {t u : Table α} (h : t.entries.Perm u.entries) (key : String) :
    t.get? key = u.get? key :=
  Entries.get?_eq_of_perm u.nodup h key

/-! ## One table written into another -/

section Entries

variable (t u v : Table α)

theorem get?_insertAll_entries (key : String) :
    (t.insertAll u.entries).get? key = (u.get? key).or (t.get? key) := by
  rw [get?_insertAll, Entries.last?_of_nodup u.nodup]
  rfl

theorem keys_insertAll_entries :
    (t.insertAll u.entries).keys = t.keys ++ u.keys.filter fun key => key ∉ t.keys := by
  have hnodup : (u.keys.filter fun key => key ∉ t.keys).Nodup := u.nodup.filter _
  rw [keys_insertAll, ← eraseDups_of_nodup hnodup]
  rfl

/-- A table that holds what is written stays as it is. -/
theorem insertAll_entries_eq_self (hkeys : ∀ key ∈ u.keys, key ∈ t.keys)
    (hget : ∀ key v, u.get? key = some v → t.get? key = some v) : t.insertAll u.entries = t := by
  refine ext_of_get? ?_ fun key => ?_
  · rw [keys_insertAll_entries, List.append_right_eq_self, List.filter_eq_nil_iff]
    intro key hkey
    simpa using hkeys key hkey
  · rw [get?_insertAll_entries]
    cases hu : u.get? key with
    | none => rfl
    | some v => exact (hget key v hu).symm

/-- Writing a table and then another one is writing what the one becomes by the other. -/
theorem insertAll_entries_insertAll_entries :
    (t.insertAll u.entries).insertAll v.entries = t.insertAll (u.insertAll v.entries).entries := by
  refine ext_of_get? ?_ fun key => ?_
  · -- a key of the second table is new if it is new in both
    have hnew (key : String) : key ∉ t.keys ++ u.keys.filter (fun k => k ∉ t.keys) ↔
        key ∉ t.keys ∧ key ∉ u.keys := by
      rw [List.mem_append, List.mem_filter, decide_eq_true_iff]
      tauto
    simp only [keys_insertAll_entries, List.filter_append, List.append_assoc, List.filter_filter,
      hnew, Bool.decide_and]
  · simp only [get?_insertAll_entries, Option.or_assoc]

end Entries

end Table

end Stencil
