import Stencil.Path

/-!
# The insides of values

Two things are read off the tree that a value is: how deep its containers are nested, and which
values stand inside it. Both are recursive over items and members, and so is the induction that goes
with them. Each segment of a path leads into one container less, so no path but the empty one leads
from a value to itself (`navigate_eq_self_iff`). That no object inside a value has a key twice is
not said by the type of values, but it holds of every value that is read.
-/

namespace Stencil.Value

/-- Induction over a value: an array is reached from its items, and an object from the values of its
members. -/
@[elab_as_elim]
theorem induction {motive : Value → Prop} (null : motive .null) (bool : ∀ b, motive (.bool b))
    (number : ∀ n, motive (.number n)) (string : ∀ text, motive (.string text))
    (array : ∀ items, (∀ item ∈ items, motive item) → motive (.array items))
    (object : ∀ members : List (String × Value), (∀ m ∈ members, motive m.2) →
      motive (.object members))
    (v : Value) : motive v :=
  @Value.rec motive (fun items => ∀ item ∈ items, motive item)
    (fun members => ∀ m ∈ members, motive m.2) (fun m => motive m.2) null bool number string array
    object (by simp) (fun _ _ hitem hrest => List.forall_mem_cons.2 ⟨hitem, hrest⟩) (by simp)
    (fun _ _ hmember hrest => List.forall_mem_cons.2 ⟨hmember, hrest⟩) (fun _ _ hitem => hitem) v

mutual

/-- How many containers are nested in a value, itself included. -/
def nesting : Value → Nat
  | .array items => nestingOfItems items + 1
  | .object members => nestingOfMembers members + 1
  | .null | .bool _ | .number _ | .string _ => 0

/-- The deepest nesting of some items. -/
def nestingOfItems : List Value → Nat
  | [] => 0
  | item :: rest => max (nesting item) (nestingOfItems rest)

/-- The deepest nesting of the values of some members. -/
def nestingOfMembers : List (String × Value) → Nat
  | [] => 0
  | (_, item) :: rest => max (nesting item) (nestingOfMembers rest)

end

theorem nesting_array_le_iff {items : List Value} {n : Nat} :
    (array items).nesting ≤ n + 1 ↔ ∀ item ∈ items, item.nesting ≤ n := by
  rw [nesting, Nat.add_le_add_iff_right]
  induction items with
  | nil => simp [nestingOfItems]
  | cons item rest ih => rw [nestingOfItems, Nat.max_le, List.forall_mem_cons, ih]

theorem nesting_object_le_iff {members : List (String × Value)} {n : Nat} :
    (object members).nesting ≤ n + 1 ↔ ∀ m ∈ members, m.2.nesting ≤ n := by
  rw [nesting, Nat.add_le_add_iff_right]
  induction members with
  | nil => simp [nestingOfMembers]
  | cons m rest ih => rw [nestingOfMembers, Nat.max_le, List.forall_mem_cons, ih]

/-- What a segment leads to is nested less deep. -/
theorem nesting_lt_of_child? {segment : String} {v item : Value}
    (h : Path.child? segment v = some item) : item.nesting < v.nesting := by
  cases v with
  | array items =>
    obtain ⟨i, -, hitem⟩ := Option.bind_eq_some_iff.1 h
    have hle := nesting_array_le_iff.1 (Nat.le_refl (array items).nesting) item
      (List.mem_of_getElem? hitem)
    exact Nat.lt_succ_of_le hle
  | object members =>
    have hle := nesting_object_le_iff.1 (Nat.le_refl (object members).nesting) _
      (Entries.mem_of_get? h)
    exact Nat.lt_succ_of_le hle
  | _ => cases h

/-- A path leads as deep into a value as it has segments. -/
theorem nesting_navigate {path : List String} {v inside : Value}
    (h : Path.navigate path v = some inside) : inside.nesting + path.length ≤ v.nesting := by
  induction path generalizing v with
  | nil =>
    cases h
    exact Nat.le_refl _
  | cons segment rest ih =>
    obtain ⟨item, hitem, hrest⟩ := Option.bind_eq_some_iff.1 h
    have hlt := nesting_lt_of_child? hitem
    have hle := ih hrest
    rw [List.length_cons]
    omega

/-- Only the empty path leads from a value to itself. -/
theorem navigate_eq_self_iff {path : List String} {v : Value} :
    Path.navigate path v = some v ↔ path = [] := by
  constructor
  · intro h
    have hle := nesting_navigate h
    exact List.length_eq_zero_iff.1 (by omega)
  · rintro rfl
    rfl

mutual

/-- A value and all values inside it. -/
def parts : Value → List Value
  | .array items => .array items :: partsOfItems items
  | .object members => .object members :: partsOfMembers members
  | .null => [.null]
  | .bool b => [.bool b]
  | .number n => [.number n]
  | .string text => [.string text]

/-- Some items and all values inside them. -/
def partsOfItems : List Value → List Value
  | [] => []
  | item :: rest => parts item ++ partsOfItems rest

/-- The values of some members and all values inside them. -/
def partsOfMembers : List (String × Value) → List Value
  | [] => []
  | (_, item) :: rest => parts item ++ partsOfMembers rest

end

theorem forall_parts_array {p : Value → Prop} {items : List Value} :
    (∀ u ∈ (array items).parts, p u) ↔
      p (.array items) ∧ ∀ item ∈ items, ∀ u ∈ item.parts, p u := by
  have hitems : (∀ u ∈ partsOfItems items, p u) ↔ ∀ item ∈ items, ∀ u ∈ item.parts, p u := by
    induction items with
    | nil => simp [partsOfItems]
    | cons item rest ih => rw [partsOfItems, List.forall_mem_append, List.forall_mem_cons, ih]
  rw [parts, List.forall_mem_cons, hitems]

theorem forall_parts_object {p : Value → Prop} {members : List (String × Value)} :
    (∀ u ∈ (object members).parts, p u) ↔
      p (.object members) ∧ ∀ m ∈ members, ∀ u ∈ m.2.parts, p u := by
  have hmembers :
      (∀ u ∈ partsOfMembers members, p u) ↔ ∀ m ∈ members, ∀ u ∈ m.2.parts, p u := by
    induction members with
    | nil => simp [partsOfMembers]
    | cons m rest ih => rw [partsOfMembers, List.forall_mem_append, List.forall_mem_cons, ih]
  rw [parts, List.forall_mem_cons, hmembers]

/-- A value whose objects, itself and all inside it, have each key once, as every value that is read
(`hasDistinctKeys_of_ofJson`). -/
def HasDistinctKeys (v : Value) : Prop :=
  ∀ u ∈ v.parts, ∀ members, u = .object members → (Entries.keys members).Nodup

theorem hasDistinctKeys_of_nesting {v : Value} (h : v.nesting = 0) : v.HasDistinctKeys := by
  cases v with
  | array items => cases h
  | object members => cases h
  | _ => simp [HasDistinctKeys, parts]

theorem hasDistinctKeys_array {items : List Value} :
    (array items).HasDistinctKeys ↔ ∀ item ∈ items, item.HasDistinctKeys := by
  rw [HasDistinctKeys, forall_parts_array]
  simp [HasDistinctKeys]

theorem hasDistinctKeys_object {members : List (String × Value)} :
    (object members).HasDistinctKeys ↔
      (Entries.keys members).Nodup ∧ ∀ m ∈ members, m.2.HasDistinctKeys := by
  rw [HasDistinctKeys, forall_parts_object]
  simp [HasDistinctKeys]

/-- A value inside so many arrays. -/
def inArrays (v : Value) : Nat → Value
  | 0 => v
  | n + 1 => .array [v.inArrays n]

theorem nesting_inArrays (v : Value) (n : Nat) : (v.inArrays n).nesting = v.nesting + n := by
  induction n with
  | zero => rfl
  | succ n ih => simp [inArrays, nesting, nestingOfItems, ih, Nat.add_assoc]

theorem hasDistinctKeys_inArrays {v : Value} {n : Nat} :
    (v.inArrays n).HasDistinctKeys ↔ v.HasDistinctKeys := by
  induction n with
  | zero => rfl
  | succ n ih => simp [inArrays, hasDistinctKeys_array, ih]

end Stencil.Value
