import Stencil.Proofs.Catalog.Draws
import Stencil.Proofs.Catalog.Insertion

/-!
# Calls and lookups

A lookup goes from node to node along a path, and a call of `faker` also goes on into a value that
stands on the way. Where the lookup finds a value or a generator, the call gives that value or one
draw; where it finds nothing because a value ends it early, the call gives what the rest of the path
finds in that value; and in all other cases the path is refused (`call_refines_lookup`).
-/

namespace Stencil

namespace Node

variable {node : Node} {path : List String}

/-- A path that leads to no node leaves the tree behind a last node, which has no member of the next
name. -/
theorem exists_last_of_descend?_eq_none (h : descend? path node = none) :
    ∃ front segment back last, path = front ++ segment :: back ∧
      descend? front node = some last ∧ last.child? segment = none := by
  induction path generalizing node with
  | nil => cases h
  | cons segment rest ih =>
    cases hchild : node.child? segment with
    | none => exact ⟨[], segment, rest, node, rfl, rfl, hchild⟩
    | some child =>
      rw [descend?, hchild, Option.bind_some] at h
      obtain ⟨front, next, back, last, rfl, hlast, hnext⟩ := ih h
      refine ⟨segment :: front, next, back, last, rfl, ?_, hnext⟩
      rw [descend?, hchild, Option.bind_some, hlast]

end Node

namespace Catalog

variable {catalog : Catalog} {call : Call} {node last : Node} {front : List String}
  {segment : String} {v : Value}

/-! ## Following a path -/

/-- A path goes on from the node that its first part leads to. -/
theorem follow_append (h : Node.descend? front node = some last) (back : List String) :
    follow (front ++ back) node = follow back last := by
  induction front generalizing node with
  | nil =>
    cases h
    rfl
  | cons segment rest ih =>
    obtain ⟨child, hchild, hrest⟩ := Option.bind_eq_some_iff.1 h
    cases node with
    | value _ | generator _ => cases hchild
    | group members =>
      have hmember : Entries.get? segment members = some child := hchild
      rw [List.cons_append, follow, hmember]
      exact ih hrest

/-- A path that ends at a node leads to what the node is. -/
theorem follow_of_descend? (h : Node.descend? front node = some last) :
    follow front node = follow [] last := by
  have hend := follow_append h []
  rwa [List.append_nil] at hend

/-- A path that goes on behind a value leads on inside it. -/
theorem follow_behind_value (h : Node.descend? front node = some (.value v)) (back : List String) :
    follow (front ++ back) node =
      (Path.navigate back v).elim (.error (.notFoundInValue (String.intercalate "." back)))
        fun inside => .ok (.value inside) := by
  rw [follow_append h, follow]
  cases Path.navigate back v <;> rfl

/-- No path leads on behind a generator. -/
theorem follow_behind_generator {g : Generator}
    (h : Node.descend? front node = some (.generator g)) (segment : String) (back : List String) :
    follow (front ++ segment :: back) node = .error (.behindGenerator segment) := by
  rw [follow_append h, follow]

/-- No path leads on to a member that a group does not have. -/
theorem follow_behind_group {members : List (String × Node)}
    (h : Node.descend? front node = some (.group members))
    (hsegment : Entries.get? segment members = none) (back : List String) :
    follow (front ++ segment :: back) node = .error (.unknownMember segment) := by
  rw [follow_append h, follow, hsegment]

theorem follow_value_eq_iff {path : List String} {v inside : Value} :
    follow path (.value v) = .ok (.value inside) ↔ Path.navigate path v = some inside := by
  rw [follow]
  cases Path.navigate path v with
  | none => simp
  | some found => simp

/-- A path leads to a value if and only if a value stands where its first part ends, and the rest
finds the other one inside it. -/
theorem follow_eq_value_iff {path : List String} {node : Node} {inside : Value} :
    follow path node = .ok (.value inside) ↔
      ∃ front back v, path = front ++ back ∧ Node.descend? front node = some (.value v) ∧
        Path.navigate back v = some inside := by
  constructor
  · intro h
    induction path generalizing node with
    | nil =>
      cases node with
      | value v => exact ⟨[], [], v, rfl, rfl, follow_value_eq_iff.1 h⟩
      | generator _ | group _ => cases h
    | cons segment rest ih =>
      cases node with
      | value v => exact ⟨[], segment :: rest, v, rfl, rfl, follow_value_eq_iff.1 h⟩
      | generator _ => cases h
      | group members =>
        rw [follow] at h
        split at h
        · rename_i child hchild
          obtain ⟨front, back, v, rfl, hv, hinside⟩ := ih h
          refine ⟨segment :: front, back, v, rfl, ?_, hinside⟩
          have hmember : (Node.group members).child? segment = some child := hchild
          rw [Node.descend?, hmember, Option.bind_some, hv]
        · cases h
  · rintro ⟨front, back, v, rfl, hv, hinside⟩
    rw [follow_append hv]
    exact follow_value_eq_iff.2 hinside

/-! ## Calls -/

/-- A call without arguments evaluates what its path leads to. -/
theorem call_of_arity (h : call.arity = 0) :
    catalog.call call =
      match follow (segments call.member) catalog.root with
      | .ok (.value v) => pure v
      | .ok (.generator g) => modifyGet g.draw
      | .error fault => Eval.fail (.invalidFunctionPath call.member fault) := by
  have hnone : call.expectNoArguments = .ok () := by
    simp [Call.expectNoArguments, h]
  cases hfollow : follow (segments call.member) catalog.root with
  | error fault => simp only [Catalog.call, hnone, Eval.ofExcept_ok_bind, hfollow]
  | ok target => cases target <;> simp only [Catalog.call, hnone, Eval.ofExcept_ok_bind, hfollow]

/-- Where a path leaves the tree, and why a call refuses it there: the next name stands behind a
generator, or the group in front of it has no such member. -/
inductive LeavesTree (catalog : Catalog) (path : List String) : CatalogFault → Prop where
  | generator (front back : List String) (segment : String) (g : Generator)
      (split : path = front ++ segment :: back) (last : catalog.at? front = some (.generator g)) :
      LeavesTree catalog path (.behindGenerator segment)
  | group (front back : List String) (segment : String) (members : List (String × Node))
      (split : path = front ++ segment :: back) (last : catalog.at? front = some (.group members))
      (absent : catalog.at? (front ++ [segment]) = none) :
      LeavesTree catalog path (.unknownMember segment)

/-- A path on which there is neither a node at the end nor a value before it leaves the tree. -/
theorem exists_leavesTree {path : List String} (hnone : catalog.at? path = none)
    (hvalue : ∀ front v, front <+: path → catalog.at? front ≠ some (.value v)) :
    ∃ fault, LeavesTree catalog path fault ∧ follow path catalog.root = .error fault := by
  obtain ⟨front, segment, back, last, rfl, hlast, hnext⟩ :=
    Node.exists_last_of_descend?_eq_none hnone
  cases last with
  | value v => exact absurd hlast (hvalue front v (List.prefix_append _ _))
  | generator g =>
    exact ⟨_, .generator front back segment g rfl hlast, follow_behind_generator hlast segment back⟩
  | group members =>
    have habsent : catalog.at? (front ++ [segment]) = none := by
      rw [at?, Node.descend?_append, hlast, Option.bind_some, Node.descend?, hnext,
        Option.bind_none]
    exact ⟨_, .group front back segment members rfl hlast habsent,
      follow_behind_group hlast hnext back⟩

/-- What a call without arguments gives, by what a lookup finds at its path: the value that is
there, one draw of the generator that is there, and a fault for a group. Where a value stands on the
way, the call gives what the rest of the path finds inside it, and every path that leaves the tree
elsewhere is refused. Only a call that ends at a generator draws. -/
theorem call_refines_lookup (catalog : Catalog) {call : Call} (h : call.arity = 0) :
    (∀ v, catalog.lookup? call.member = some (.value v) → catalog.call call = pure v) ∧
    (∀ g, catalog.lookup? call.member = some (.generator g) → ∀ w,
      (catalog.call call).runIn w = (.ok (g.draw w).1, (g.draw w).2)) ∧
    (∀ members, catalog.lookup? call.member = some (.group members) →
      catalog.call call = Eval.fail (.invalidFunctionPath call.member .namesGroup)) ∧
    (∀ front back v, segments call.member = front ++ back →
      catalog.at? front = some (.value v) →
      catalog.call call = (Path.navigate back v).elim
        (Eval.fail (.invalidFunctionPath call.member
          (.notFoundInValue (String.intercalate "." back)))) pure) ∧
    (catalog.lookup? call.member = none →
      (∀ front v, front <+: segments call.member → catalog.at? front ≠ some (.value v)) →
      ∃ fault, LeavesTree catalog (segments call.member) fault ∧
        catalog.call call = Eval.fail (.invalidFunctionPath call.member fault)) ∧
    ∀ w, ((catalog.call call).runIn w).2 = w ∨
      ∃ g, catalog.lookup? call.member = some (.generator g) := by
  refine ⟨?_, ?_, ?_, ?_, ?_, ?_⟩
  · intro v hv
    rw [call_of_arity h, follow_of_descend? hv]
    rfl
  · intro g hg
    exact runIn_call_of_generator h hg
  · intro members hmembers
    rw [call_of_arity h, follow_of_descend? hmembers]
    rfl
  · intro front back v hsegments hv
    rw [call_of_arity h, hsegments, follow_behind_value hv]
    cases Path.navigate back v <;> rfl
  · intro hnone hvalue
    obtain ⟨fault, hleaves, hfault⟩ := exists_leavesTree hnone hvalue
    refine ⟨fault, hleaves, ?_⟩
    rw [call_of_arity h, hfault]
  · intro w
    rw [call_of_arity h]
    cases hfollow : follow (segments call.member) catalog.root with
    | error fault => exact Or.inl rfl
    | ok target =>
      cases target with
      | value v => exact Or.inl rfl
      | generator g => exact Or.inr ⟨g, follow_eq_generator_iff.1 hfollow⟩

/-- A part of a value and a part that it does not have, a generator, its group, and a name behind
it. -/
theorem call_refines_lookup_of_sequence :
    let limits : Value := .object [("max", .array [.bool true, .null])]
    let g : Generator := .cycle 0 [.bool true, .bool false]
    let catalog : Catalog :=
      { root := .group
          [("app", .group [("limits", .value limits)]),
            ("sequence", .group [("next", .generator g)])] }
    let call (member : String) : Call :=
      { ns := "faker", member, args := none, source := "$faker." ++ member }
    (∀ member, (call member).arity = 0) ∧
      catalog.call (call "app.limits") = pure limits ∧
      catalog.call (call "app.limits.max.0") = pure (.bool true) ∧
      catalog.call (call "app.limits.min.0") =
        Eval.fail (.invalidFunctionPath "app.limits.min.0" (.notFoundInValue "min.0")) ∧
      (∀ w, (catalog.call (call "sequence.next")).runIn w = (.ok (g.draw w).1, (g.draw w).2)) ∧
      catalog.call (call "sequence") =
        Eval.fail (.invalidFunctionPath "sequence" .namesGroup) ∧
      ∃ fault, LeavesTree catalog ["sequence", "next", "x"] fault ∧
        catalog.call (call "sequence.next.x") =
          Eval.fail (.invalidFunctionPath "sequence.next.x" fault) := by
  intro limits g catalog call
  have harity (member : String) : (call member).arity = 0 := rfl
  have hlimits : catalog.lookup? "app.limits" = some (.value limits) := rfl
  have hgenerator : catalog.lookup? "sequence.next" = some (.generator g) := rfl
  have hsequence : catalog.lookup? "sequence" = some (.group [("next", .generator g)]) := rfl
  have hmax : segments "app.limits.max.0" = ["app", "limits"] ++ ["max", "0"] := by decide
  have hmin : segments "app.limits.min.0" = ["app", "limits"] ++ ["min", "0"] := by decide
  have hpath : segments "sequence.next.x" = ["sequence", "next", "x"] := by decide
  have hnone : catalog.lookup? "sequence.next.x" = none := by
    rw [lookup?, hpath]
    rfl
  -- no node on the way to the generator is a value, and there is none behind it
  have hgroups (front : List String) (v : Value) (hfront : front <+: segments "sequence.next.x") :
      catalog.at? front ≠ some (.value v) := by
    simp only [hpath, List.prefix_cons_iff, List.prefix_nil] at hfront
    rcases hfront with rfl | ⟨_, rfl, rfl | ⟨_, rfl, rfl | ⟨_, rfl, rfl⟩⟩⟩ <;> exact nofun
  obtain ⟨hvalue, -⟩ := call_refines_lookup catalog (harity "app.limits")
  obtain ⟨-, -, -, hinside, -⟩ := call_refines_lookup catalog (harity "app.limits.max.0")
  obtain ⟨-, -, -, hmissing, -⟩ := call_refines_lookup catalog (harity "app.limits.min.0")
  obtain ⟨-, hnext, -⟩ := call_refines_lookup catalog (harity "sequence.next")
  obtain ⟨-, -, hgroup, -⟩ := call_refines_lookup catalog (harity "sequence")
  obtain ⟨-, -, -, -, hleaves, -⟩ := call_refines_lookup catalog (harity "sequence.next.x")
  refine ⟨harity, hvalue limits hlimits, ?_, ?_, hnext g hgenerator, hgroup _ hsequence, ?_⟩
  · exact hinside ["app", "limits"] ["max", "0"] limits hmax rfl
  · exact hmissing ["app", "limits"] ["min", "0"] limits hmin rfl
  · exact hpath ▸ hleaves hnone hgroups

end Catalog

end Stencil
