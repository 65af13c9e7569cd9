import Stencil.Proofs.Catalog.Calls
import Stencil.Proofs.Placeholder.Calls
import Stencil.Proofs.Template.Evaluating
import Stencil.Proofs.Value.Insides

/-!
# Lookups behind insertions

An insertion passes over the empty segments of its path, and a lookup and a call follow them like
all others. So the node that was put at a path is found at that path if and only if no segment of it
is empty (`lookup?_insert_iff`), unless the catalog has names that are empty.
-/

namespace Stencil

namespace Node

variable {added node inside : Node} {name : String} {path place : List String}

/-! ## Nodes inside nodes -/

theorem sizeOf_lt_of_child? (h : node.child? name = some inside) : sizeOf inside < sizeOf node := by
  cases node with
  | value _ | generator _ => cases h
  | group members =>
    have hmem : (name, inside) ∈ members := Entries.mem_of_get? h
    have hmember := List.sizeOf_lt_of_mem hmem
    simp only [Prod.mk.sizeOf_spec, group.sizeOf_spec] at hmember ⊢
    omega

theorem sizeOf_le_of_descend? (h : descend? path node = some inside) :
    sizeOf inside ≤ sizeOf node := by
  induction path generalizing node with
  | nil =>
    cases h
    exact Nat.le_refl _
  | cons segment rest ih =>
    obtain ⟨child, hchild, hrest⟩ := Option.bind_eq_some_iff.1 h
    exact (ih hrest).trans (sizeOf_lt_of_child? hchild).le

/-- Only the empty path leads from a node to itself. -/
theorem descend?_eq_self_iff : descend? path node = some node ↔ path = [] := by
  constructor
  · intro h
    cases path with
    | nil => rfl
    | cons segment rest =>
      obtain ⟨child, hchild, hrest⟩ := Option.bind_eq_some_iff.1 h
      have hlt := sizeOf_lt_of_child? hchild
      have hle := sizeOf_le_of_descend? hrest
      omega
  · rintro rfl
    rfl

/-! ## Names -/

/-- A tree without empty names: no path with an empty segment leads to a node. -/
def IsNamed (node : Node) : Prop :=
  ∀ path, "" ∈ path → descend? path node = none

theorem isNamed_value (v : Value) : (value v).IsNamed := by
  intro path hpath
  cases path with
  | nil => cases hpath
  | cons segment rest => rfl

theorem isNamed_generator (g : Generator) : (generator g).IsNamed := by
  intro path hpath
  cases path with
  | nil => cases hpath
  | cons segment rest => rfl

theorem isNamed_emptyGroup : (group []).IsNamed := by
  intro path hpath
  cases path with
  | nil => cases hpath
  | cons segment rest => rfl

/-- An insertion below names that are not empty adds no empty names but those of the node. -/
theorem IsNamed.insertAt (hnode : node.IsNamed) (hadded : added.IsNamed) (hplace : "" ∉ place) :
    (insertAt added place node).IsNamed := by
  intro path hpath
  by_cases hbefore : path <+: place
  · exact absurd (hbefore.subset hpath) hplace
  · by_cases hbehind : place <+: path
    · obtain ⟨back, rfl⟩ := hbehind
      have hback : "" ∈ back := (List.mem_append.1 hpath).resolve_left hplace
      rw [descend?_insertAt_behind]
      exact hadded back hback
    · rw [descend?_insertAt_of_apart hbefore hbehind]
      exact hnode path hpath

end Node

namespace Catalog

variable {path : String} {node : Node} {catalog : Catalog}

theorem empty_not_mem_place (path : String) : "" ∉ place path := by
  simp [place]

/-- Segments of which none is empty all count. -/
theorem filter_eq_self {segments : List String} (h : "" ∉ segments) :
    segments.filter (· ≠ "") = segments := by
  rw [List.filter_eq_self]
  intro segment hsegment
  refine decide_eq_true ?_
  rintro rfl
  exact h hsegment

theorem place_eq_segments (h : "" ∉ segments path) : place path = segments path :=
  filter_eq_self h

/-- A path with an empty segment has more segments than count. -/
theorem not_segments_prefix_place (h : "" ∈ segments path) : ¬ segments path <+: place path := by
  intro hprefix
  have hmem : "" ∈ place path := hprefix.subset h
  exact empty_not_mem_place path hmem

/-- An insertion adds no empty names but those of the node. -/
theorem isNamed_insert (hroot : catalog.root.IsNamed) (hnode : node.IsNamed) (path : String) :
    (catalog.insert path node).root.IsNamed := by
  by_cases hplace : place path = []
  · rw [insert_of_place_eq_nil hplace]
    exact hroot
  · rw [root_insert hplace]
    exact hroot.insertAt hnode (empty_not_mem_place path)

/-- A catalog that is built of nodes without empty names has none. -/
theorem isNamed_insertAll {entries : List (String × Node)} (hroot : catalog.root.IsNamed)
    (hentries : ∀ e ∈ entries, e.2.IsNamed) : (catalog.insertAll entries).root.IsNamed := by
  induction entries generalizing catalog with
  | nil => exact hroot
  | cons e rest ih =>
    obtain ⟨hnode, hrest⟩ := List.forall_mem_cons.1 hentries
    exact ih (isNamed_insert hroot hnode e.1) hrest

/-! ## Lookups -/

/-- What the path of an insertion leads to afterwards: the node if no segment is empty, what the
node holds under empty names if only the last segments are empty, and otherwise what was there
before. -/
theorem lookup?_insert (hplace : place path ≠ []) (node : Node) (catalog : Catalog) :
    (∀ back, segments path = place path ++ back →
      (catalog.insert path node).lookup? path = Node.descend? back node) ∧
    (¬ place path <+: segments path →
      (catalog.insert path node).lookup? path = catalog.lookup? path) := by
  constructor
  · intro back hback
    rw [lookup?, hback, root_insert hplace, Node.descend?_insertAt_behind]
  · intro hbehind
    have hempty : "" ∈ segments path := by
      by_contra hnone
      rw [place_eq_segments hnone] at hbehind
      exact hbehind (List.prefix_refl _)
    exact at?_insert_of_apart ⟨not_segments_prefix_place hempty, hbehind⟩ node catalog

/-- The path of an insertion leads to the node afterwards if and only if no segment is empty, or the
segments that count do not start it and it led to such a node before. -/
theorem lookup?_insert_eq_some_iff (hplace : place path ≠ []) (node : Node) (catalog : Catalog) :
    (catalog.insert path node).lookup? path = some node ↔
      "" ∉ segments path ∨
        ¬ place path <+: segments path ∧ catalog.lookup? path = some node := by
  obtain ⟨hbehind, hapart⟩ := lookup?_insert hplace node catalog
  by_cases hempty : "" ∈ segments path
  · by_cases hprefix : place path <+: segments path
    · -- the node would be found inside itself
      obtain ⟨back, hback⟩ := hprefix
      have hne : back ≠ [] := by
        rintro rfl
        rw [List.append_nil] at hback
        exact empty_not_mem_place path (hback ▸ hempty)
      have hstarts : place path <+: segments path := ⟨back, hback⟩
      rw [hbehind back hback.symm, Node.descend?_eq_self_iff]
      simp [hempty, hne, hstarts]
    · rw [hapart hprefix]
      simp [hempty, hprefix]
  · have hwhole : segments path = place path ++ [] := by
      rw [place_eq_segments hempty, List.append_nil]
    rw [hbehind [] hwhole]
    simp [hempty, Node.descend?]

/-! ## Calls -/

/-- In a catalog without empty names, a path with an empty segment leads to no generator behind the
insertion of a value, and to no value but one inside another. -/
theorem follow_insert_of_empty_mem (hplace : place path ≠ []) (hnamed : catalog.root.IsNamed)
    (hempty : "" ∈ segments path) {v : Value} {target : Target}
    (h : follow (segments path) (catalog.insert path (.value v)).root = .ok target) :
    ∃ u, target = .value u ∧ u ≠ v := by
  have hroot := isNamed_insert hnamed (Node.isNamed_value v) path
  cases target with
  | generator g =>
    have hg := follow_eq_generator_iff.1 h
    rw [hroot _ hempty] at hg
    cases hg
  | value u =>
    refine ⟨u, rfl, ?_⟩
    rintro rfl
    obtain ⟨front, back, last, hsegments, hlast, hinside⟩ := follow_eq_value_iff.1 h
    have hfront : "" ∉ front := by
      intro hmem
      rw [hroot front hmem] at hlast
      cases hlast
    -- the segments up to the value that the path ends in are among those that count
    have hprefix : front <+: place path := by
      rw [place, hsegments, List.filter_append, filter_eq_self hfront]
      exact List.prefix_append _ _
    rw [root_insert hplace] at hlast
    by_cases hwhole : front = place path
    · -- the value that was put there is not found inside itself
      rw [hwhole, Node.descend?_insertAt_self] at hlast
      cases hlast
      rw [Value.navigate_eq_self_iff.1 hinside, List.append_nil] at hsegments
      exact hfront (hsegments ▸ hempty)
    · -- in front of the place there are groups only
      obtain ⟨members, hmembers⟩ :=
        Node.exists_group_of_insertAt hprefix hwhole (.value u) catalog.root
      rw [hmembers] at hlast
      cases hlast

end Catalog

/-- The text of a placeholder that calls a member of `faker` without arguments. -/
def Placeholder.CallsFaker (member text : String) : Prop :=
  ∃ call default source, Placeholder.parse text =
      .ok { expression := .function call, default, source } ∧
    call.ns = "faker" ∧ call.member = member ∧ call.arity = 0

/-- A member without parentheses and without blanks at its ends is called by its name, with a
backslash before each bar. -/
theorem Placeholder.callsFaker_bareCall {member : String} (hne : member ≠ "")
    (htrim : Text.trim member.toList = member.toList)
    (hplain : ∀ c ∈ member.toList, c ≠ '(' ∧ c ≠ ')') :
    CallsFaker member (String.ofList (escapeBars (bareCall "faker" member))) := by
  have hchars : "faker".toList.all isNamespaceChar = true := by decide
  have hparse := parse_bareCall (by decide) (List.all_eq_true.1 hchars) hne htrim hplain
  exact ⟨_, _, _, hparse, rfl, rfl, rfl⟩

/-- A placeholder that calls a member of `faker` evaluates what the path of the member leads to in
the catalog. -/
theorem Resolver.resolvePlaceholder_of_callsFaker {r : Resolver} {catalog : Catalog}
    {member text : String} (hfaker : r.functions.get? "faker" = some catalog.functions)
    (h : Placeholder.CallsFaker member text) :
    r.resolvePlaceholder text =
      match Catalog.follow (Catalog.segments member) catalog.root with
      | .ok (.value v) => pure v
      | .ok (.generator g) => modifyGet g.draw
      | .error fault => Eval.fail (.invalidFunctionPath member fault) := by
  obtain ⟨call, default, source, hparse, hns, rfl, harity⟩ := h
  rw [resolvePlaceholder_of_call hparse, Registry.dispatch, hns, hfaker]
  exact Catalog.call_of_arity harity

namespace Catalog

/-- The path at which a node was put leads to that node if and only if no segment of it is empty, in
every catalog without empty names; in the others it can lead to such a node only if it did so
before. The placeholder that calls the path gives the value that was put there under the same
condition. Every path without parentheses and blanks at its ends has such a placeholder. -/
theorem lookup?_insert_iff {path : String} (hplace : place path ≠ []) (node : Node)
    (catalog : Catalog) :
    ((catalog.insert path node).lookup? path = some node ↔
      "" ∉ segments path ∨
        ¬ place path <+: segments path ∧ catalog.lookup? path = some node) ∧
    (catalog.root.IsNamed →
      ((catalog.insert path node).lookup? path = some node ↔ "" ∉ segments path)) ∧
    (∀ (r : Resolver) (text : String) (v : Value), node = .value v →
      r.functions.get? "faker" = some (catalog.insert path node).functions →
      Placeholder.CallsFaker path text →
      ("" ∉ segments path → r.resolvePlaceholder text = pure v) ∧
      (catalog.root.IsNamed → (r.resolvePlaceholder text = pure v ↔ "" ∉ segments path))) ∧
    (Text.trim path.toList = path.toList → (∀ c ∈ path.toList, c ≠ '(' ∧ c ≠ ')') →
      Placeholder.CallsFaker path
        (String.ofList (Placeholder.escapeBars (Placeholder.bareCall "faker" path)))) := by
  have hlookup := lookup?_insert_eq_some_iff hplace node catalog
  refine ⟨hlookup, ?_, ?_, ?_⟩
  · intro hnamed
    rw [hlookup]
    constructor
    · rintro (hnone | ⟨-, hbefore⟩) hempty
      · exact hnone hempty
      · have hnothing : catalog.lookup? path = none := hnamed _ hempty
        rw [hnothing] at hbefore
        cases hbefore
    · exact Or.inl
  · rintro r text v rfl hfaker hcalls
    have hcall := Resolver.resolvePlaceholder_of_callsFaker hfaker hcalls
    have hgives (hnone : "" ∉ segments path) : r.resolvePlaceholder text = pure v := by
      have hfollow := follow_of_descend? (hlookup.2 (Or.inl hnone))
      rw [hcall, hfollow]
      rfl
    refine ⟨hgives, fun hnamed => ⟨?_, hgives⟩⟩
    intro hvalue hempty
    rw [hcall] at hvalue
    cases hfollow : follow (segments path) (catalog.insert path (.value v)).root with
    | error fault =>
      rw [hfollow] at hvalue
      exact Eval.pure_ne_fail _ _ hvalue.symm
    | ok target =>
      obtain ⟨u, rfl, hne⟩ := follow_insert_of_empty_mem hplace hnamed hempty hfollow
      rw [hfollow] at hvalue
      exact hne (Eval.pure_inj.1 hvalue)
  · intro htrim hplain
    refine Placeholder.callsFaker_bareCall ?_ htrim hplain
    rintro rfl
    exact hplace rfl

/-- A member with a bar in its name, below a value that stood there before, and next to a
generator. -/
theorem lookup?_insert_iff_of_bar :
    let catalog : Catalog :=
      ({} : Catalog).insertAll [("app", .value .null), ("next", .generator (.cycle 0 [.null]))]
    let added : Catalog := catalog.insert "app.a|b" (.value (.bool true))
    let r : Resolver := { store := {}, functions := .ofList [added.functions], settings := {} }
    place "app.a|b" ≠ [] ∧ catalog.root.IsNamed ∧ "" ∉ segments "app.a|b" ∧
      r.functions.get? "faker" = some added.functions ∧
      Placeholder.CallsFaker "app.a|b" "$faker.app.a\\|b" ∧
      added.lookup? "app.a|b" = some (.value (.bool true)) ∧
      r.resolvePlaceholder "$faker.app.a\\|b" = pure (.bool true) := by
  intro catalog added r
  have hplace : place "app.a|b" ≠ [] := by decide
  have hnamed : catalog.root.IsNamed := by
    refine isNamed_insertAll Node.isNamed_emptyGroup ?_
    simp [Node.isNamed_value, Node.isNamed_generator]
  have hempty : "" ∉ segments "app.a|b" := by decide
  have hfaker : r.functions.get? "faker" = some added.functions := rfl
  obtain ⟨-, hlookup, hcall, hwritten⟩ := lookup?_insert_iff hplace (.value (.bool true)) catalog
  have htext : String.ofList (Placeholder.escapeBars (Placeholder.bareCall "faker" "app.a|b")) =
      "$faker.app.a\\|b" := by decide
  have hcalls : Placeholder.CallsFaker "app.a|b" "$faker.app.a\\|b" := by
    rw [← htext]
    exact hwritten (by decide) (by simp)
  obtain ⟨hvalue, -⟩ := hcall r "$faker.app.a\\|b" (.bool true) rfl hfaker hcalls
  exact ⟨hplace, hnamed, hempty, hfaker, hcalls, (hlookup hnamed).2 hempty, hvalue hempty⟩

/-- A node that is put at a path with two dots in a row is found with one dot only, and the call of
that path is refused. -/
theorem lookup?_insert_of_doubled_dot :
    let catalog : Catalog := ({} : Catalog).insert "a..b" (.value (.bool true))
    let r : Resolver := { store := {}, functions := .ofList [catalog.functions], settings := {} }
    place "a..b" = ["a", "b"] ∧ catalog.lookup? "a.b" = some (.value (.bool true)) ∧
      catalog.lookup? "a..b" = none ∧
      r.resolvePlaceholder "$faker.a..b" =
        Eval.fail (.invalidFunctionPath "a..b" (.unknownMember "")) := by
  intro catalog r
  exact ⟨by decide, rfl, rfl, rfl⟩

end Catalog

end Stencil
