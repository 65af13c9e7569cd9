import Stencil.Proofs.Template.Depth
import Stencil.Proofs.Value.Merging

/-!
# The shape of a resolved template

A template that is resolved keeps its shape, at every level. Its scalars stay, its strings become
what they resolve to, and its arrays keep their items in order. Only in objects something can be
lost: of the members whose keys resolve to the same text, the first gives the place and the last
gives the value (`resolve_merges_equal_keys`).
-/

namespace Stencil.Resolver

mutual

/-- What a template becomes, from the world before to the world behind it. -/
inductive Becomes (r : Resolver) : World → Value → Value → World → Prop where
  | null (w : World) : Becomes r w .null .null w
  | bool (w : World) (b : Bool) : Becomes r w (.bool b) (.bool b) w
  | number (w : World) (n : Number) : Becomes r w (.number n) (.number n) w
  | string {w w' : World} {text : String} {v : Value}
      (hvalue : (r.resolveString text).runIn w = (.ok v, w')) : Becomes r w (.string text) v w'
  | array {w w' : World} {items results : List Value}
      (hitems : ItemsBecome r w items results w') : Becomes r w (.array items) (.array results) w'
  | object {w w' : World} {members : List (String × Value)} {written merged : Entries Value}
      (hmembers : MembersBecome r w members written w')
      (hkeys : Entries.keys merged = (Entries.keys written).eraseDups)
      (hvalues : ∀ key, Entries.get? key merged = Entries.last? key written) :
      Becomes r w (.object members) (.object merged) w'

/-- What the items of an array become, one after the other. -/
inductive ItemsBecome (r : Resolver) : World → List Value → List Value → World → Prop where
  | nil (w : World) : ItemsBecome r w [] [] w
  | cons {w w₁ w' : World} {item v : Value} {rest results : List Value}
      (hitem : Becomes r w item v w₁) (hrest : ItemsBecome r w₁ rest results w') :
      ItemsBecome r w (item :: rest) (v :: results) w'

/-- What the members of an object become, one after the other and the key before the value. -/
inductive MembersBecome (r : Resolver) :
    World → List (String × Value) → Entries Value → World → Prop where
  | nil (w : World) : MembersBecome r w [] [] w
  | cons {w w₁ w₂ w' : World} {key text : String} {item v : Value}
      {rest : List (String × Value)} {written : Entries Value}
      (hkey : (r.resolveText key).runIn w = (.ok text, w₁)) (hitem : Becomes r w₁ item v w₂)
      (hrest : MembersBecome r w₂ rest written w') :
      MembersBecome r w ((key, item) :: rest) ((text, v) :: written) w'

end

variable {r : Resolver} {w w' : World} {depth n : Nat}

theorem ItemsBecome.length_eq {items results : List Value}
    (h : r.ItemsBecome w items results w') : results.length = items.length := by
  induction items generalizing w results with
  | nil =>
    cases h
    rfl
  | cons item rest ih =>
    cases h with
    | cons hitem hrest => rw [List.length_cons, List.length_cons, ih hrest]

theorem MembersBecome.length_eq {members : List (String × Value)} {written : Entries Value}
    (h : r.MembersBecome w members written w') : written.length = members.length := by
  induction members generalizing w written with
  | nil =>
    cases h
    rfl
  | cons m rest ih =>
    cases h with
    | cons hkey hitem hrest => rw [List.length_cons, List.length_cons, ih hrest]

/-- An object holds what its members become, written one over the other. -/
theorem becomes_object_iff {members : List (String × Value)} {u : Value} :
    r.Becomes w (.object members) u w' ↔
      ∃ written, r.MembersBecome w members written w' ∧
        u = .object (Entries.insertAll written []) := by
  constructor
  · rintro (_ | _ | _ | _ | _ | ⟨hmembers, hkeys, hvalues⟩)
    exact ⟨_, hmembers, congrArg Value.object (Entries.eq_insertAll_nil_iff.2 ⟨hkeys, hvalues⟩)⟩
  · rintro ⟨written, hmembers, rfl⟩
    have hmerged := Entries.eq_insertAll_nil_iff.1 (Eq.refl (Entries.insertAll written []))
    exact .object hmembers hmerged.1 hmerged.2

/-! ## What resolution gives -/

/-- Inside `depth` containers a value is resolved if and only if it is nested at most `n` deep, and
then to what it becomes. -/
def ResolvesTo (r : Resolver) (depth n : Nat) (v : Value) : Prop :=
  ∀ w u w', (r.resolveAt depth v).runIn w = (.ok u, w') ↔ v.nesting ≤ n ∧ r.Becomes w v u w'

theorem resolveItems_ok_iff {items results : List Value}
    (h : ∀ item ∈ items, ResolvesTo r depth n item) :
    (r.resolveItems depth items).runIn w = (.ok results, w') ↔
      (∀ item ∈ items, item.nesting ≤ n) ∧ r.ItemsBecome w items results w' := by
  induction items generalizing w results with
  | nil =>
    rw [resolveItems, Eval.runIn_pure]
    constructor
    · rintro ⟨⟩
      exact ⟨by simp, .nil _⟩
    · rintro ⟨-, ⟨⟩⟩
      rfl
  | cons item rest ih =>
    rw [List.forall_mem_cons] at h
    rw [resolveItems, List.forall_mem_cons]
    simp only [bind_pure_comp, Eval.runIn_bind_ok_iff, Eval.runIn_map_ok_iff]
    constructor
    · rintro ⟨v, w₁, hitem, results, hrest, rfl⟩
      have hv := (h.1 w v w₁).1 hitem
      have hresults := (ih h.2).1 hrest
      exact ⟨⟨hv.1, hresults.1⟩, .cons hv.2 hresults.2⟩
    · rintro ⟨⟨hnesting, hnestings⟩, hbecome⟩
      cases hbecome with
      | cons hitem hrest =>
        exact ⟨_, _, (h.1 w _ _).2 ⟨hnesting, hitem⟩, _, (ih h.2).2 ⟨hnestings, hrest⟩, rfl⟩

theorem resolveMembers_ok_iff {members : List (String × Value)} {done out : Entries Value}
    (h : ∀ m ∈ members, ResolvesTo r depth n m.2) :
    (r.resolveMembers depth done members).runIn w = (.ok out, w') ↔
      (∀ m ∈ members, m.2.nesting ≤ n) ∧
        ∃ written, r.MembersBecome w members written w' ∧
          out = Entries.insertAll written done := by
  -- `done` grows by each member before the rest is resolved
  induction members generalizing w done with
  | nil =>
    rw [resolveMembers, Eval.runIn_pure]
    constructor
    · rintro ⟨⟩
      exact ⟨by simp, [], .nil _, rfl⟩
    · rintro ⟨-, written, ⟨⟩, rfl⟩
      rfl
  | cons m rest ih =>
    obtain ⟨key, item⟩ := m
    rw [List.forall_mem_cons] at h
    rw [resolveMembers, List.forall_mem_cons]
    simp only [Eval.runIn_bind_ok_iff]
    constructor
    · rintro ⟨text, w₁, hkey, v, w₂, hitem, hrest⟩
      have hv := (h.1 w₁ v w₂).1 hitem
      obtain ⟨hnestings, written, hwritten, rfl⟩ := (ih h.2).1 hrest
      exact ⟨⟨hv.1, hnestings⟩, (text, v) :: written, .cons hkey hv.2 hwritten, rfl⟩
    · rintro ⟨⟨hnesting, hnestings⟩, written, hbecome, rfl⟩
      cases hbecome with
      | cons hkey hitem hrest =>
        exact ⟨_, _, hkey, _, _, (h.1 _ _ _).2 ⟨hnesting, hitem⟩,
          (ih h.2).2 ⟨hnestings, _, hrest, rfl⟩⟩

/-- A scalar is resolved to itself, and that is all it becomes. -/
theorem resolvesTo_of_scalar {v : Value} (hresolve : r.resolveAt depth v = pure v)
    (hnesting : v.nesting = 0) (hitself : ∀ w, r.Becomes w v v w)
    (honly : ∀ w u w', r.Becomes w v u w' → u = v ∧ w' = w) : ResolvesTo r depth n v := by
  intro w u w'
  rw [hresolve, Eval.runIn_pure, hnesting]
  constructor
  · rintro ⟨⟩
    exact ⟨Nat.zero_le n, hitself _⟩
  · rintro ⟨-, h⟩
    rcases honly w u w' h with ⟨rfl, rfl⟩
    rfl

/-- Nothing becomes of a container that is too deep inside others. -/
theorem resolvesTo_of_too_deep {v : Value} {f : Unit → Eval Value}
    (hresolve : r.resolveAt depth v = r.checkDepth depth >>= f)
    (hdepth : r.settings.maxDepth ≤ depth) (hnesting : 0 < v.nesting) :
    ResolvesTo r depth 0 v := by
  intro w u w'
  rw [hresolve, checkDepth_of_le hdepth, Eval.runIn_bind, Eval.runIn_fail]
  constructor
  · intro h
    cases h
  · intro h
    omega

/-- Where there is room for its nesting, a value resolves to what it becomes. -/
theorem resolvesTo (hroom : depth + n = r.settings.maxDepth) (v : Value) :
    ResolvesTo r depth n v := by
  -- one container further in, `depth` goes up and the room `n` down, so both must be general
  induction v using Value.induction generalizing depth n with
  | null =>
    refine resolvesTo_of_scalar rfl rfl .null ?_
    rintro w u w' ⟨⟩
    exact ⟨rfl, rfl⟩
  | bool b =>
    refine resolvesTo_of_scalar rfl rfl (.bool · b) ?_
    rintro w u w' ⟨⟩
    exact ⟨rfl, rfl⟩
  | number k =>
    refine resolvesTo_of_scalar rfl rfl (.number · k) ?_
    rintro w u w' ⟨⟩
    exact ⟨rfl, rfl⟩
  | string text =>
    intro w u w'
    rw [resolveAt]
    constructor
    · intro h
      exact ⟨Nat.zero_le n, .string h⟩
    · rintro ⟨-, ⟨⟩⟩
      assumption
  | array items ih =>
    cases n with
    | zero => exact resolvesTo_of_too_deep rfl hroom.ge (Nat.succ_pos _)
    | succ n =>
      have hitems : ∀ item ∈ items, ResolvesTo r (depth + 1) n item :=
        fun item hitem => ih item hitem (by omega)
      intro w u w'
      rw [resolveAt, checkDepth_of_lt (by omega), pure_bind, bind_pure_comp,
        Eval.runIn_map_ok_iff, Value.nesting_array_le_iff]
      constructor
      · rintro ⟨results, h, rfl⟩
        have hresults := (resolveItems_ok_iff hitems).1 h
        exact ⟨hresults.1, .array hresults.2⟩
      · rintro ⟨hnesting, hbecomes⟩
        cases hbecomes with
        | array h => exact ⟨_, (resolveItems_ok_iff hitems).2 ⟨hnesting, h⟩, rfl⟩
  | object members ih =>
    cases n with
    | zero => exact resolvesTo_of_too_deep rfl hroom.ge (Nat.succ_pos _)
    | succ n =>
      have hmembers : ∀ m ∈ members, ResolvesTo r (depth + 1) n m.2 :=
        fun m hm => ih m hm (by omega)
      intro w u w'
      rw [resolveAt, checkDepth_of_lt (by omega), pure_bind, bind_pure_comp,
        Eval.runIn_map_ok_iff, Value.nesting_object_le_iff, becomes_object_iff]
      simp only [resolveMembers_ok_iff hmembers]
      constructor
      · rintro ⟨merged, ⟨hnesting, written, h, rfl⟩, rfl⟩
        exact ⟨hnesting, written, h, rfl⟩
      · rintro ⟨hnesting, written, h, rfl⟩
        exact ⟨_, ⟨hnesting, written, h, rfl⟩, rfl⟩

/-- A template is resolved to what it becomes if its nesting is within the limit, and to nothing
else. An array keeps its length. The keys of an object stand in the order in which its resolved
members have them for the first time, each once; each has the value of the last member that has it;
and if all members have different keys, the object is these members. -/
theorem resolve_merges_equal_keys (r : Resolver) (template : Value) :
    (∀ w v w', (r.resolve template).runIn w = (.ok v, w') ↔
      template.nesting ≤ r.settings.maxDepth ∧ r.Becomes w template v w') ∧
    (∀ w items v w', r.Becomes w (.array items) v w' →
      ∃ results, v = .array results ∧ r.ItemsBecome w items results w' ∧
        results.length = items.length) ∧
    (∀ w members v w', r.Becomes w (.object members) v w' →
      ∃ written merged, v = .object merged ∧ r.MembersBecome w members written w' ∧
        written.length = members.length ∧
        Entries.keys merged = (Entries.keys written).eraseDups ∧ (Entries.keys merged).Nodup ∧
        (∀ key u, Entries.get? key merged = some u ↔
          ∃ front back, written = front ++ (key, u) :: back ∧ key ∉ Entries.keys back) ∧
        ((Entries.keys written).Nodup → merged = written)) := by
  refine ⟨?_, ?_, ?_⟩
  · exact resolvesTo (Nat.zero_add _) template
  · intro w items v w' h
    cases h with
    | array hitems => exact ⟨_, rfl, hitems, hitems.length_eq⟩
  · intro w members v w' h
    cases h with
    | @object _ _ _ written merged hmembers hkeys hvalues =>
      refine ⟨written, merged, rfl, hmembers, hmembers.length_eq, hkeys, ?_, ?_, ?_⟩
      · rw [hkeys]
        exact nodup_eraseDups _
      · intro key u
        rw [hvalues, Entries.last?_eq_some_iff]
      · intro hnodup
        rw [Entries.eq_insertAll_nil_iff.2 ⟨hkeys, hvalues⟩]
        exact Entries.insertAll_nil_of_nodup hnodup

/-- The number under `n` and the text of it are one key. -/
example :
    let one : Value := .number (.integer 1 (by decide))
    let r : Resolver :=
      { store := ({} : Store).set .locals "n" one, functions := {}, settings := {} }
    let member (key : String) : String × Value := (key, .string "\x7b\x7bn\x7d\x7d")
    ((r.resolve (.array
        [.object [("\x7b\x7bn\x7d\x7d", .null), member "k", ("1", .array [])]])).runIn
      (World.ofSeed 0)).1 = .ok (.array [.object [("1", .array []), ("k", one)]]) := rfl

end Stencil.Resolver
