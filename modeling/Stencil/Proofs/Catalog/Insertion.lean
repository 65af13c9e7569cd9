import Mathlib.Data.List.Infix
import Stencil.Catalog.Basic

/-!
# What an insertion changes

An insertion puts a node at the end of its segments. What lies at these segments and behind them is
the node, what lies on the way to them is a group, and all other places hold what they held before
(`insert_frame`), also over a row of insertions.
-/

namespace Stencil

namespace Node

variable {added node : Node} {name segment : String} {path place front : List String}

/-! ## Members -/

/-- Writing a member changes what its name gives, and nothing else. -/
theorem get?_putMember (name other : String) (node : Node) (members : Entries Node) :
    Entries.get? other (putMember name node members) =
      if other = name then some node else Entries.get? other members := by
  induction members with
  | nil => simp [putMember, Entries.get?, eq_comm]
  | cons first rest ih =>
    obtain ⟨n, old⟩ := first
    rw [putMember]
    split
    · rename_i hname
      subst hname
      by_cases hother : other = name
      · simp [Entries.get?, hother]
      · simp [Entries.get?, hother, Ne.symm hother]
    · rename_i hname
      split
      · by_cases hother : other = name
        · simp [Entries.get?, hother]
        · simp [Entries.get?, hother, Ne.symm hother]
      · rw [Entries.get?, Entries.get?, ih]
        by_cases hn : n = other
        · have hother : other ≠ name := fun heq => hname (heq.symm.trans hn.symm)
          rw [if_pos hn, if_pos hn, if_neg hother]
        · rw [if_neg hn, if_neg hn]

/-- An insertion changes the member that its first segment names, and no other one. -/
theorem child?_insertAt (added node : Node) (segment name : String) (rest : List String) :
    (insertAt added (segment :: rest) node).child? name =
      if name = segment then
        some (insertAt added rest ((node.child? segment).getD (.group [])))
      else node.child? name :=
  get?_putMember segment name _ node.members

/-! ## Places -/

/-- Following segments and then others is following all of them. -/
theorem descend?_append (front back : List String) (node : Node) :
    descend? (front ++ back) node = (descend? front node).bind (descend? back) := by
  induction front generalizing node with
  | nil => rfl
  | cons segment front ih =>
    rw [List.cons_append, descend?, descend?, Option.bind_assoc]
    congr 1
    funext child
    exact ih child

theorem descend?_insertAt_self (added node : Node) (path : List String) :
    descend? path (insertAt added path node) = some added := by
  induction path generalizing node with
  | nil => rfl
  | cons segment rest ih => rw [descend?, child?_insertAt, if_pos rfl, Option.bind_some, ih]

/-- At the end of the segments and behind it lies what the inserted node holds. -/
theorem descend?_insertAt_behind (added node : Node) (path back : List String) :
    descend? (path ++ back) (insertAt added path node) = descend? back added := by
  rw [descend?_append, descend?_insertAt_self, Option.bind_some]

/-- What is on the way to the end of the segments is a group. -/
theorem exists_group_of_insertAt (hfront : front <+: path) (hne : front ≠ path)
    (added node : Node) :
    ∃ members, descend? front (insertAt added path node) = some (.group members) := by
  induction path generalizing front node with
  | nil => exact absurd (List.prefix_nil.1 hfront) hne
  | cons segment rest ih =>
    cases front with
    | nil => exact ⟨_, rfl⟩
    | cons first front =>
      obtain ⟨rfl, hrest⟩ := List.cons_prefix_cons.1 hfront
      have hproper : front ≠ rest := fun heq => hne (heq ▸ rfl)
      rw [descend?, child?_insertAt, if_pos rfl, Option.bind_some]
      exact ih hrest hproper _

/-- At all other places lies what was there before. -/
theorem descend?_insertAt_of_apart (hbefore : ¬ place <+: path) (hbehind : ¬ path <+: place)
    (added node : Node) :
    descend? place (insertAt added path node) = descend? place node := by
  induction path generalizing place node with
  | nil => exact absurd List.nil_prefix hbehind
  | cons segment rest ih =>
    cases place with
    | nil => exact absurd List.nil_prefix hbefore
    | cons first place =>
      rw [descend?, descend?, child?_insertAt]
      by_cases hfirst : first = segment
      · subst hfirst
        rw [List.cons_prefix_cons] at hbefore hbehind
        have hbelow := ih (fun h => hbefore ⟨rfl, h⟩) (fun h => hbehind ⟨rfl, h⟩)
          ((node.child? first).getD (.group []))
        rw [if_pos rfl, Option.bind_some, hbelow]
        cases node.child? first with
        | some child => rfl
        | none =>
          -- where nothing was, a new group has no members, and the place does not end there
          cases place with
          | nil => exact absurd ⟨rfl, List.nil_prefix⟩ hbefore
          | cons _ _ => rfl
      · rw [if_neg hfirst]

end Node

namespace Catalog

/-- The segments of a path are what stands between its dots: the only texts without a dot that give
the path when they are joined by dots. -/
theorem segments_eq_iff {path : String} {pieces : List String} :
    segments path = pieces ↔
      pieces ≠ [] ∧ String.intercalate "." pieces = path ∧
        ∀ piece ∈ pieces, '.' ∉ piece.toList := by
  have hchars : segments path = pieces ↔
      Text.splitAt '.' path.toList = pieces.map String.toList := by
    constructor
    · rintro rfl
      simp [segments]
    · intro h
      simp [segments, h]
  rw [hchars, Text.splitAt_eq_iff, ← String.toList_inj, String.toList_intercalate]
  simp

/-- The segments of a path that count when a node is put there. -/
def place (path : String) : List String :=
  (segments path).filter (· ≠ "")

/-- The node at the end of some segments. -/
def at? (catalog : Catalog) (segments : List String) : Option Node :=
  Node.descend? segments catalog.root

/-- Puts nodes at paths, one after the other. -/
def insertAll (entries : List (String × Node)) (catalog : Catalog) : Catalog :=
  entries.foldl (fun catalog e => catalog.insert e.1 e.2) catalog

/-- Places of which neither is on the way to the other. -/
def Apart (place other : List String) : Prop :=
  ¬ place <+: other ∧ ¬ other <+: place

instance (place other : List String) : Decidable (Apart place other) :=
  inferInstanceAs (Decidable (¬ place <+: other ∧ ¬ other <+: place))

variable {path : String} {other : List String}

theorem insert_of_place_eq_nil (h : place path = []) (node : Node) (catalog : Catalog) :
    catalog.insert path node = catalog := by
  rw [place] at h
  rw [insert, h]

theorem root_insert (h : place path ≠ []) (node : Node) (catalog : Catalog) :
    (catalog.insert path node).root = Node.insertAt node (place path) catalog.root := by
  unfold place at h ⊢
  rw [insert]
  split
  · rename_i hnil
    exact absurd hnil h
  · rfl

/-- An insertion leaves the places apart from its own as they are. -/
theorem at?_insert_of_apart (h : Apart other (place path)) (node : Node) (catalog : Catalog) :
    (catalog.insert path node).at? other = catalog.at? other := by
  rw [at?, root_insert, Node.descend?_insertAt_of_apart h.1 h.2, at?]
  intro hnil
  exact h.2 (hnil ▸ List.nil_prefix)

/-- A row of insertions leaves the places apart from all of theirs as they are. -/
theorem at?_insertAll_of_apart {entries : List (String × Node)}
    (h : ∀ e ∈ entries, place e.1 = [] ∨ Apart other (place e.1)) (catalog : Catalog) :
    (catalog.insertAll entries).at? other = catalog.at? other := by
  induction entries generalizing catalog with
  | nil => rfl
  | cons e rest ih =>
    have hrest := ih (fun e he => h e (List.mem_cons_of_mem _ he)) (catalog.insert e.1 e.2)
    have hstep : (catalog.insert e.1 e.2).at? other = catalog.at? other := by
      rcases h e List.mem_cons_self with hnil | hapart
      · rw [insert_of_place_eq_nil hnil]
      · exact at?_insert_of_apart hapart e.2 catalog
    exact hrest.trans hstep

/-- The segments of a path are the pieces between its dots, and those that are not empty are the
place of an insertion. After it the root is a group. The inserted node is at its place, and behind
it there is what the node holds and nothing else. On the way to it there are groups. At each place
apart from its own there is what was there before, also after a row of insertions. A path whose
segments are all empty changes nothing. -/
theorem insert_frame (path : String) (node : Node) (catalog : Catalog) :
    (∀ pieces, segments path = pieces ↔
        pieces ≠ [] ∧ String.intercalate "." pieces = path ∧
          ∀ piece ∈ pieces, '.' ∉ piece.toList) ∧
      (place path = [] → catalog.insert path node = catalog) ∧
      (place path ≠ [] →
        (∃ members, (catalog.insert path node).root = .group members) ∧
        (catalog.insert path node).at? (place path) = some node ∧
        (∀ back, (catalog.insert path node).at? (place path ++ back) = Node.descend? back node) ∧
        (∀ front, front <+: place path → front ≠ place path →
          ∃ members, (catalog.insert path node).at? front = some (.group members)) ∧
        ∀ other, Apart other (place path) →
          (catalog.insert path node).at? other = catalog.at? other) ∧
      ∀ later other, (∀ e ∈ later, place e.1 = [] ∨ Apart other (place e.1)) →
        ((catalog.insert path node).insertAll later).at? other =
          (catalog.insert path node).at? other := by
  refine ⟨fun pieces => segments_eq_iff, fun hnil => insert_of_place_eq_nil hnil node catalog,
    fun hne => ?_, ?_⟩
  · have hroot := root_insert hne node catalog
    have hway (front : List String) (hfront : front <+: place path) (hproper : front ≠ place path) :
        ∃ members, (catalog.insert path node).at? front = some (.group members) := by
      rw [at?, hroot]
      exact Node.exists_group_of_insertAt hfront hproper node catalog.root
    refine ⟨?_, ?_, fun back => ?_, hway, fun other hapart => ?_⟩
    · -- the root is where no segment leads
      obtain ⟨members, hmembers⟩ := hway [] List.nil_prefix hne.symm
      exact ⟨members, Option.some.inj hmembers⟩
    · rw [at?, hroot, Node.descend?_insertAt_self]
    · rw [at?, hroot, Node.descend?_insertAt_behind]
    · exact at?_insert_of_apart hapart node catalog
  · intro later other hlater
    exact at?_insertAll_of_apart hlater _

/-- A path with an empty segment that leads through a value, next to other nodes: the value becomes
a group, what lies apart stays, and so does the node behind later insertions. -/
theorem insert_frame_of_empty_segment :
    let before : Catalog :=
      ({} : Catalog).insertAll [("a", .value .null), ("c.d", .value (.bool false))]
    let node : Node := .group [("x", .value (.bool true))]
    let after : Catalog := before.insert "a..b" node
    let later := [("c.e", Node.value .null), ("..", .value .null)]
    segments "a..b" = ["a", "", "b"] ∧ place "a..b" = ["a", "b"] ∧
      before.at? ["a"] = some (.value .null) ∧
      (∃ members, after.root = .group members) ∧
      (∃ members, after.at? ["a"] = some (.group members)) ∧
      after.at? ["a", "b"] = some node ∧
      after.at? ["a", "b", "x"] = some (.value (.bool true)) ∧
      after.at? ["c", "d"] = some (.value (.bool false)) ∧
      (after.insertAll later).at? ["c", "e"] = some (.value .null) ∧
      (after.insertAll later).at? ["a", "b"] = some node ∧
      after.insert ".." (.value .null) = after := by
  intro before node after later
  obtain ⟨hsegments, -, hframe, hlater⟩ := insert_frame "a..b" node before
  have hpieces : segments "a..b" = ["a", "", "b"] :=
    (hsegments _).2 ⟨by decide, by decide, by decide⟩
  have hplace : place "a..b" = ["a", "b"] := by
    rw [place, hpieces]
    decide
  rw [hplace] at hframe
  obtain ⟨hroot, hself, hbehind, hway, hapart⟩ := hframe (by decide)
  refine ⟨hpieces, hplace, rfl, hroot, hway ["a"] (by decide) (by decide), hself,
    hbehind ["x"], ?_, rfl, ?_, ?_⟩
  · exact hapart ["c", "d"] (by decide)
  · rw [hlater later ["a", "b"] (by decide), hself]
  · obtain ⟨-, hnothing, -⟩ := insert_frame ".." (.value .null) after
    exact hnothing (by decide)

end Catalog

end Stencil
