import Mathlib.Data.List.Infix
import Stencil.Value.Table

/-!
# Histories of tables

A history is the row of changes that a table went through, starting from the empty table. What the
table holds is read off the history alone: a key has the value of its last write unless it was
removed since, and the keys stand in the order of the moments at which they came in. One change
keeps this (`Follows.step`), and so does every history (`follows_table`).
-/

namespace Stencil

/-- A change of a table. -/
inductive Change (α : Type) where
  | write (key : String) (value : α)
  | remove (key : String)
  | clear

namespace Change

variable {α : Type}

/-- The table behind a change. -/
def apply : Change α → Table α → Table α
  | .write key value, t => t.insert key value
  | .remove key, t => t.erase key
  | .clear, _ => {}

/-- A change that gives a key a value. -/
def Writes (key : String) : Change α → Prop
  | .write k _ => key = k
  | .remove _ | .clear => False

/-- A change that leaves a key without a value. -/
def Removes (key : String) : Change α → Prop
  | .write _ _ => False
  | .remove k => key = k
  | .clear => True

end Change

/-- Changes in the order in which they were made. -/
abbrev History (α : Type) := List (Change α)

namespace History

variable {α : Type} {h : History α} {c : Change α} {key : String} {v : α} {n : Nat}

/-- What changes make of a table. -/
def applyTo (h : History α) (t : Table α) : Table α :=
  h.foldl (fun t c => c.apply t) t

/-- The table that a history leaves. -/
def table (h : History α) : Table α :=
  h.applyTo {}

/-- The last write of the key gave it this value, and the key was not removed since. -/
def LastWrote (h : History α) (key : String) (v : α) : Prop :=
  ∃ front back, h = front ++ .write key v :: back ∧
    ∀ c ∈ back, ¬ c.Writes key ∧ ¬ c.Removes key

/-- Each write of the key was followed by its removal. -/
def Lacks (h : History α) (key : String) : Prop :=
  ∀ front v back, h = front ++ .write key v :: back → ∃ c ∈ back, c.Removes key

/-- The change number `n` wrote the key when it was absent, and the key was not removed since. -/
def EnteredAt (h : History α) (key : String) (n : Nat) : Prop :=
  ∃ front v back, h = front ++ .write key v :: back ∧ front.length = n ∧ Lacks front key ∧
    ∀ c ∈ back, ¬ c.Removes key

theorem applyTo_append (front back : History α) (t : Table α) :
    applyTo (front ++ back) t = back.applyTo (front.applyTo t) :=
  List.foldl_append

theorem applyTo_cons (t : Table α) : applyTo (c :: h) t = h.applyTo (c.apply t) := rfl

/-! ## One more change -/

/-- A change in a history that was made longer is the new one or an older one. -/
theorem concat_eq_append_cons_iff {front back : History α} {d : Change α} :
    h ++ [c] = front ++ d :: back ↔
      (back = [] ∧ front = h ∧ d = c) ∨ ∃ rest, back = rest ++ [c] ∧ h = front ++ d :: rest := by
  rcases List.eq_nil_or_concat back with rfl | ⟨rest, last, rfl⟩
  · constructor
    · intro heq
      rcases List.append_inj' heq rfl with ⟨rfl, hlast⟩
      exact Or.inl ⟨rfl, rfl, (List.cons.inj hlast).1.symm⟩
    · rintro (⟨-, rfl, rfl⟩ | ⟨rest, hnil, -⟩)
      · rfl
      · simp at hnil
  · rw [List.concat_eq_append, ← List.cons_append, ← List.append_assoc]
    constructor
    · intro heq
      rcases List.append_inj' heq rfl with ⟨rfl, hlast⟩
      exact Or.inr ⟨rest, by rw [(List.cons.inj hlast).1], rfl⟩
    · rintro (⟨hnil, -, -⟩ | ⟨older, hrest, rfl⟩)
      · simp at hnil
      · rcases List.append_inj' hrest rfl with ⟨rfl, hlast⟩
        rw [hlast]

theorem lastWrote_concat_iff :
    LastWrote (h ++ [c]) key v ↔
      c = .write key v ∨ (¬ c.Writes key ∧ ¬ c.Removes key) ∧ LastWrote h key v := by
  constructor
  · rintro ⟨front, back, heq, hback⟩
    rcases concat_eq_append_cons_iff.1 heq with ⟨-, -, hc⟩ | ⟨rest, rfl, rfl⟩
    · exact Or.inl hc.symm
    · refine Or.inr ⟨hback c (by simp), front, rest, rfl, ?_⟩
      intro d hd
      exact hback d (List.mem_append_left _ hd)
  · rintro (rfl | ⟨hc, front, rest, rfl, hrest⟩)
    · exact ⟨h, [], rfl, by simp⟩
    · refine ⟨front, rest ++ [c], by simp, ?_⟩
      intro d hd
      rcases List.mem_append.1 hd with hd | hd
      · exact hrest d hd
      · rwa [List.mem_singleton.1 hd]

theorem lacks_concat_iff :
    Lacks (h ++ [c]) key ↔ c.Removes key ∨ ¬ c.Writes key ∧ Lacks h key := by
  constructor
  · intro hlacks
    by_cases hremoves : c.Removes key
    · exact Or.inl hremoves
    · refine Or.inr ⟨?_, ?_⟩
      · intro hwrites
        cases c with
        | write k w =>
          -- nothing follows the write that was made last
          obtain rfl : key = k := hwrites
          rcases hlacks h w [] rfl with ⟨d, hd, -⟩
          cases hd
        | remove k => exact hwrites
        | clear => exact hwrites
      · rintro front w back rfl
        rcases hlacks front w (back ++ [c]) (by simp) with ⟨d, hd, hdremoves⟩
        rcases List.mem_append.1 hd with hd | hd
        · exact ⟨d, hd, hdremoves⟩
        · rw [List.mem_singleton.1 hd] at hdremoves
          exact absurd hdremoves hremoves
  · intro hc front w back heq
    rcases concat_eq_append_cons_iff.1 heq with ⟨-, -, rfl⟩ | ⟨rest, rfl, rfl⟩
    · rcases hc with hremoves | ⟨hwrites, -⟩
      · cases hremoves
      · exact absurd rfl hwrites
    · rcases hc with hremoves | ⟨-, hlacks⟩
      · exact ⟨c, by simp, hremoves⟩
      · rcases hlacks front w rest rfl with ⟨d, hd, hdremoves⟩
        exact ⟨d, List.mem_append_left _ hd, hdremoves⟩

theorem enteredAt_concat_iff :
    EnteredAt (h ++ [c]) key n ↔
      (c.Writes key ∧ Lacks h key ∧ n = h.length) ∨ ¬ c.Removes key ∧ EnteredAt h key n := by
  constructor
  · rintro ⟨front, w, back, heq, rfl, hlacks, hback⟩
    rcases concat_eq_append_cons_iff.1 heq with ⟨-, rfl, rfl⟩ | ⟨rest, rfl, rfl⟩
    · exact Or.inl ⟨rfl, hlacks, rfl⟩
    · refine Or.inr ⟨hback c (by simp), front, w, rest, rfl, rfl, hlacks, ?_⟩
      intro d hd
      exact hback d (List.mem_append_left _ hd)
  · rintro (⟨hwrites, hlacks, rfl⟩ | ⟨hc, front, w, rest, rfl, hlength, hlacks, hrest⟩)
    · cases c with
      | write k w =>
        obtain rfl : key = k := hwrites
        exact ⟨h, w, [], rfl, rfl, hlacks, by simp⟩
      | remove k => cases hwrites
      | clear => cases hwrites
    · refine ⟨front, w, rest ++ [c], by simp, hlength, hlacks, ?_⟩
      intro d hd
      rcases List.mem_append.1 hd with hd | hd
      · exact hrest d hd
      · rwa [List.mem_singleton.1 hd]

/-- A key enters at a change of the history. -/
theorem EnteredAt.lt_length (hentered : EnteredAt h key n) : n < h.length := by
  rcases hentered with ⟨front, w, back, rfl, rfl, -, -⟩
  simp

/-- A key that entered, and was not removed since, is there. -/
theorem EnteredAt.not_lacks (hentered : EnteredAt h key n) : ¬ Lacks h key := by
  rcases hentered with ⟨front, w, back, heq, -, -, hback⟩
  intro hlacks
  rcases hlacks front w back heq with ⟨c, hc, hremoves⟩
  exact hback c hc hremoves

/-- A key is there if it entered at some moment and was not removed since. -/
theorem exists_enteredAt_iff : (∃ n, EnteredAt h key n) ↔ ¬ Lacks h key := by
  constructor
  · rintro ⟨n, hentered⟩
    exact hentered.not_lacks
  · intro hthere
    induction h using List.reverseRecOn with
    | nil =>
      refine absurd ?_ hthere
      intro front w back heq
      simp at heq
    | append_singleton h c ih =>
      rw [lacks_concat_iff, not_or] at hthere
      rcases hthere with ⟨hremoves, hthere⟩
      by_cases hlacks : Lacks h key
      · have hwrites : c.Writes key := by
          by_contra hwrites
          exact hthere ⟨hwrites, hlacks⟩
        exact ⟨h.length, enteredAt_concat_iff.2 (Or.inl ⟨hwrites, hlacks, rfl⟩)⟩
      · rcases ih hlacks with ⟨n, hentered⟩
        exact ⟨n, enteredAt_concat_iff.2 (Or.inr ⟨hremoves, hentered⟩)⟩

/-- There is one moment at which a key entered. -/
theorem EnteredAt.unique {m : Nat} (hm : EnteredAt h key m) (hn : EnteredAt h key n) : m = n := by
  induction h using List.reverseRecOn with
  | nil => exact absurd hm.lt_length (Nat.not_lt_zero m)
  | append_singleton h c ih =>
    rcases enteredAt_concat_iff.1 hm with ⟨-, hlacks, rfl⟩ | ⟨-, hm⟩
    · rcases enteredAt_concat_iff.1 hn with ⟨-, -, rfl⟩ | ⟨-, hn⟩
      · rfl
      · exact absurd hlacks hn.not_lacks
    · rcases enteredAt_concat_iff.1 hn with ⟨-, hlacks, -⟩ | ⟨-, hn⟩
      · exact absurd hlacks hm.not_lacks
      · exact ih hm hn

/-! ## What a table holds -/

/-- A table holds what a history says: the values of the last writes, and the keys in the order in
which they entered. -/
structure Follows (t : Table α) (h : History α) : Prop where
  get?_eq_some_iff : ∀ key v, t.get? key = some v ↔ h.LastWrote key v
  mem_keys_iff : ∀ key, key ∈ t.keys ↔ ∃ n, h.EnteredAt key n
  ordered : t.keys.Pairwise fun a b => ∀ m n, h.EnteredAt a m → h.EnteredAt b n → m < n

variable {t : Table α}

theorem Follows.lacks_iff (hf : Follows t h) : h.Lacks key ↔ key ∉ t.keys := by
  rw [hf.mem_keys_iff, exists_enteredAt_iff, not_not]

theorem follows_nil : Follows ({} : Table α) [] where
  get?_eq_some_iff key v := by
    constructor
    · intro hget
      cases hget
    · rintro ⟨front, back, heq, -⟩
      simp at heq
  mem_keys_iff key := by
    constructor
    · intro hkey
      cases hkey
    · rintro ⟨n, hentered⟩
      exact absurd hentered.lt_length (Nat.not_lt_zero n)
  ordered := List.Pairwise.nil

/-- Writing keeps a present key in its place, and puts a new one behind all others. -/
theorem Follows.write (hf : Follows t h) (key : String) (v : α) :
    Follows (t.insert key v) (h ++ [.write key v]) where
  get?_eq_some_iff other w := by
    rw [Table.get?_insert, lastWrote_concat_iff]
    by_cases heq : other = key
    · subst heq
      simp [Change.Writes]
    · simp [Change.Writes, Change.Removes, heq, Ne.symm heq, hf.get?_eq_some_iff]
  mem_keys_iff other := by
    have hmem : other ∈ (t.insert key v).keys ↔ other = key ∨ other ∈ t.keys := by
      rw [Table.keys_insert]
      split
      · rename_i hkey
        constructor
        · exact Or.inr
        · rintro (rfl | hother)
          · exact hkey
          · exact hother
      · simp [or_comm]
    rw [hmem, exists_enteredAt_iff, lacks_concat_iff, hf.lacks_iff]
    simp [Change.Writes, Change.Removes, Classical.or_iff_not_imp_left]
  ordered := by
    have hold : t.keys.Pairwise fun a b => ∀ m n, EnteredAt (h ++ [.write key v]) a m →
        EnteredAt (h ++ [.write key v]) b n → m < n := by
      refine hf.ordered.imp_of_mem ?_
      intro a b ha hb hab m n hm hn
      -- keys that were there did not enter with this change
      rcases enteredAt_concat_iff.1 hm with ⟨-, hlacks, -⟩ | ⟨-, hm⟩
      · exact absurd ha (hf.lacks_iff.1 hlacks)
      · rcases enteredAt_concat_iff.1 hn with ⟨-, hlacks, -⟩ | ⟨-, hn⟩
        · exact absurd hb (hf.lacks_iff.1 hlacks)
        · exact hab m n hm hn
    rw [Table.keys_insert]
    split
    · exact hold
    · rename_i hkey
      rw [List.pairwise_append]
      refine ⟨hold, List.pairwise_singleton _ _, ?_⟩
      intro a ha b hb m n hm hn
      obtain rfl : b = key := List.mem_singleton.1 hb
      have hlast : n = h.length := by
        rcases enteredAt_concat_iff.1 hn with ⟨-, -, hlast⟩ | ⟨-, hn⟩
        · exact hlast
        · exact absurd (hf.lacks_iff.2 hkey) hn.not_lacks
      rcases enteredAt_concat_iff.1 hm with ⟨-, hlacks, -⟩ | ⟨-, hm⟩
      · exact absurd ha (hf.lacks_iff.1 hlacks)
      · rw [hlast]
        exact hm.lt_length

/-- Removing a key leaves the others as they stand. -/
theorem Follows.remove (hf : Follows t h) (key : String) :
    Follows (t.erase key) (h ++ [.remove key]) where
  get?_eq_some_iff other w := by
    rw [Table.get?_erase, lastWrote_concat_iff]
    by_cases heq : other = key
    · subst heq
      simp [Change.Removes]
    · simp [Change.Writes, Change.Removes, heq, hf.get?_eq_some_iff]
  mem_keys_iff other := by
    rw [Table.keys_erase, exists_enteredAt_iff, lacks_concat_iff, hf.lacks_iff]
    simp [Change.Writes, Change.Removes, and_comm]
  ordered := by
    rw [Table.keys_erase]
    refine (hf.ordered.sublist List.filter_sublist).imp ?_
    intro a b hab m n hm hn
    rcases enteredAt_concat_iff.1 hm with ⟨hwrites, -⟩ | ⟨-, hm⟩
    · cases hwrites
    · rcases enteredAt_concat_iff.1 hn with ⟨hwrites, -⟩ | ⟨-, hn⟩
      · cases hwrites
      · exact hab m n hm hn

theorem follows_clear (h : History α) : Follows ({} : Table α) (h ++ [.clear]) where
  get?_eq_some_iff key v := by
    rw [lastWrote_concat_iff]
    constructor
    · intro hget
      cases hget
    · rintro (heq | ⟨⟨-, hremoves⟩, -⟩)
      · cases heq
      · exact absurd trivial hremoves
  mem_keys_iff key := by
    rw [exists_enteredAt_iff, lacks_concat_iff]
    constructor
    · intro hkey
      cases hkey
    · intro hthere
      exact absurd (Or.inl trivial) hthere
  ordered := List.Pairwise.nil

/-- One more change keeps a table what the history says. -/
theorem Follows.step (hf : Follows t h) (c : Change α) : Follows (c.apply t) (h ++ [c]) := by
  cases c with
  | write key v => exact hf.write key v
  | remove key => exact hf.remove key
  | clear => exact follows_clear h

/-- The table that a history leaves holds what the history says. -/
theorem follows_table (h : History α) : Follows (table h) h := by
  induction h using List.reverseRecOn with
  | nil => exact follows_nil
  | append_singleton h c ih =>
    have hlast : table (h ++ [c]) = c.apply (table h) := applyTo_append h [c] {}
    rw [hlast]
    exact ih.step c

end History

end Stencil
