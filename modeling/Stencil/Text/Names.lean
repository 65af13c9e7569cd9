/-!
# Sorted names

Sets of names, kept as strictly increasing lists. Names are ordered by their code points, which is
also the order of their UTF-8 bytes.
-/

namespace Stencil.Names

/-- Adds a name to a sorted list, unless it is there. -/
def insert (name : String) : List String → List String
  | [] => [name]
  | n :: rest =>
    if name = n then n :: rest
    else if name < n then name :: n :: rest
    else n :: insert name rest

/-- The distinct names of a list in increasing order. -/
def ofList (names : List String) : List String :=
  names.foldr insert []

theorem mem_insert {name other : String} {names : List String} :
    other ∈ insert name names ↔ other = name ∨ other ∈ names := by
  induction names with
  | nil => simp [insert]
  | cons n rest ih =>
    simp only [insert]
    split
    · rename_i h
      subst h
      simp
    · split
      · simp
      · simp only [List.mem_cons, ih]
        exact or_left_comm

theorem mem_ofList {name : String} {names : List String} : name ∈ ofList names ↔ name ∈ names := by
  induction names with
  | nil => simp [ofList]
  | cons n rest ih => simpa [ofList, mem_insert] using or_congr Iff.rfl ih

/-- Adding a name keeps the order strict. -/
theorem pairwise_insert {name : String} {names : List String} (h : names.Pairwise (· < ·)) :
    (insert name names).Pairwise (· < ·) := by
  induction names with
  | nil => simp [insert]
  | cons n rest ih =>
    rcases List.pairwise_cons.1 h with ⟨hn, hrest⟩
    simp only [insert]
    split
    · exact h
    · rename_i hne
      split
      · rename_i hlt
        apply List.pairwise_cons.2
        constructor
        · intro other hother
          rcases List.mem_cons.1 hother with rfl | hother
          · exact hlt
          · exact String.lt_trans hlt (hn other hother)
        · exact h
      · -- the new name goes behind the first one
        rename_i hnot
        have hlt : n < name := Std.lt_of_le_of_ne (String.not_lt.1 hnot) (Ne.symm hne)
        apply List.pairwise_cons.2
        constructor
        · intro other hother
          rcases mem_insert.1 hother with rfl | hother
          · exact hlt
          · exact hn other hother
        · exact ih hrest

/-- The distinct names of a list are in strictly increasing order. -/
theorem pairwise_ofList (names : List String) : (ofList names).Pairwise (· < ·) := by
  induction names with
  | nil => exact .nil
  | cons name rest ih => exact pairwise_insert ih

end Stencil.Names
