import Stencil.Path
import Stencil.Proofs.Text.Quotes

/-!
# Writing paths

Every place of a stored value has a path: the name of the variable, and each further step in quotes
and brackets. It is read back into the name and the steps, whatever quotes, dots, backslashes and
blanks they hold (`segments_write`). Following the steps is taking a member of an object or an item
of an array at each of them (`navigate_eq_some_iff`).
-/

namespace Stencil.Path

/-- A name that a path can start with. -/
structure IsName (name : String) : Prop where
  ne_empty : name ≠ ""
  plain : ∀ c ∈ name.toList, c ≠ '.' ∧ c ≠ '[' ∧ c ≠ ']'
  head_ne_dollar : name.toList.head? ≠ some '$'
  head_not_blank : ∀ c ∈ name.toList.head?, Text.isBlank c = false
  last_not_blank : ∀ c ∈ name.toList.getLast?, Text.isBlank c = false

/-- A segment that can be written in quotes and brackets. -/
structure IsKey (key : String) : Prop where
  ne_empty : key ≠ ""
  no_bracket : ']' ∉ key.toList

theorem IsName.toList_ne_nil {name : String} (h : IsName name) : name.toList ≠ [] :=
  fun hnil => h.ne_empty (String.toList_eq_nil_iff.1 hnil)

theorem IsKey.toList_ne_nil {key : String} (h : IsKey key) : key.toList ≠ [] :=
  fun hnil => h.ne_empty (String.toList_eq_nil_iff.1 hnil)

/-- A segment in quotes and brackets. -/
def bracketed (key : String) : List Char :=
  '[' :: Text.inQuotes key.toList ++ [']']

/-- The path of a name and further segments. -/
def write (name : String) (keys : List String) : List Char :=
  name.toList ++ keys.flatMap bracketed

/-- Plain characters belong to the name that is being read. -/
theorem scan_name_append {cs : List Char} (h : ∀ c ∈ cs, c ≠ '.' ∧ c ≠ '[' ∧ c ≠ ']')
    (current rest : List Char) :
    scan (.name current) (cs ++ rest) = scan (.name (current ++ cs)) rest := by
  induction cs generalizing current with
  | nil => simp
  | cons c cs ih =>
    obtain ⟨hdot, hopen, hclose⟩ := h c List.mem_cons_self
    rw [List.cons_append, scan, if_neg hdot, if_neg hopen, if_neg hclose,
      ih fun d hd => h d (List.mem_cons_of_mem c hd)]
    simp

/-- Between brackets everything up to the closing one belongs to the index. -/
theorem scan_index_append {cs : List Char} (h : ']' ∉ cs) (inner rest : List Char) :
    scan (.index inner) (cs ++ rest) = scan (.index (inner ++ cs)) rest := by
  induction cs generalizing inner with
  | nil => simp
  | cons c cs ih =>
    simp only [List.mem_cons, not_or] at h
    rw [List.cons_append, scan, if_neg (Ne.symm h.1), ih h.2]
    simp

/-- A segment in quotes and brackets is read back. -/
theorem scan_index_inQuotes {key : String} (h : IsKey key) (rest : List Char) :
    scan (.index []) (Text.inQuotes key.toList ++ ']' :: rest) =
      (scan .behindIndex rest).map (key :: ·) := by
  have hbracket : ']' ∉ Text.inQuotes key.toList := by
    simpa [Text.inQuotes] using h.no_bracket
  rw [scan_index_append hbracket, List.nil_append, scan, if_pos rfl]
  simp [Text.unquote_trim_inQuotes, h.toList_ne_nil]

theorem scan_behindIndex_flatMap {keys : List String} (h : ∀ key ∈ keys, IsKey key) :
    scan .behindIndex (keys.flatMap bracketed) = .ok keys := by
  induction keys with
  | nil => rfl
  | cons key rest ih =>
    have hkey : IsKey key := h key List.mem_cons_self
    have hrest := ih fun k hk => h k (List.mem_cons_of_mem key hk)
    have hscan := scan_index_inQuotes hkey (rest.flatMap bracketed)
    rw [hrest] at hscan
    simpa [bracketed, scan, Except.map] using hscan

/-- A written path is read back. -/
theorem segments_write {name : String} {keys : List String} (hname : name ≠ "")
    (hplain : ∀ c ∈ name.toList, c ≠ '.' ∧ c ≠ '[' ∧ c ≠ ']') (hkeys : ∀ key ∈ keys, IsKey key) :
    segments (write name keys) = .ok (name :: keys) := by
  have hne : name.toList ≠ [] := fun hnil => hname (String.toList_eq_nil_iff.1 hnil)
  have hscan : scan (.name []) (write name keys) = .ok (name :: keys) := by
    rw [write, scan_name_append hplain, List.nil_append]
    cases keys with
    | nil => simp [scan, hne]
    | cons key rest =>
      -- the first bracket ends the name
      have hkey : IsKey key := hkeys key List.mem_cons_self
      have hindex := scan_index_inQuotes hkey (rest.flatMap bracketed)
      rw [scan_behindIndex_flatMap fun k hk => hkeys k (List.mem_cons_of_mem key hk)] at hindex
      simp only [List.flatMap_cons, bracketed, List.cons_append, List.append_assoc, scan]
      simp [hne, hindex, Except.map]
  simp [segments, hscan]

/-! ## Following segments -/

/-- A value reached from another one by taking segments as names of members of objects, and as
indices of items of arrays. -/
inductive Leads : List String → Value → Value → Prop where
  | here (v : Value) : Leads [] v v
  | member {key : String} {keys : List String} {members : List (String × Value)} {v target : Value}
      (hmember : Entries.get? key members = some v) (hrest : Leads keys v target) :
      Leads (key :: keys) (.object members) target
  | item {key : String} {keys : List String} {items : List Value} {i : Nat} {v target : Value}
      (hindex : index? key = some i) (hitem : items[i]? = some v) (hrest : Leads keys v target) :
      Leads (key :: keys) (.array items) target

theorem navigate_eq_some_iff {keys : List String} {root target : Value} :
    navigate keys root = some target ↔ Leads keys root target := by
  constructor
  · intro h
    induction keys generalizing root with
    | nil =>
      obtain rfl : root = target := Option.some.inj h
      exact .here root
    | cons key rest ih =>
      obtain ⟨v, hchild, hrest⟩ := Option.bind_eq_some_iff.1 h
      cases root with
      | object members => exact .member hchild (ih hrest)
      | array items =>
        obtain ⟨i, hindex, hitem⟩ := Option.bind_eq_some_iff.1 hchild
        exact .item hindex hitem (ih hrest)
      | null | bool _ | number _ | string _ => cases hchild
  · intro h
    induction h with
    | here v => rfl
    | member hmember hrest ih => simp [navigate, child?, hmember, ih]
    | item hindex hitem hrest ih => simp [navigate, child?, hindex, hitem, ih]

end Stencil.Path
