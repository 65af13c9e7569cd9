import Stencil.Proofs.Namespaces
import Stencil.Proofs.Registry

/-!
# Who draws from a cycle

A cycle counts how often it was drawn from. The standard namespaces without a catalog leave every
counter as it is, and the namespace of a catalog advances the counters of the generators that are
called. A registry owns a cycle if that counter is advanced by calls of the cycle's places in the
catalog only.
-/

namespace Stencil

namespace Eval

variable {α β : Type} {number : Nat}

/-- An evaluation that leaves the counter of a cycle as it is. -/
def Spares (number : Nat) (m : Eval α) : Prop :=
  ∀ w, (m.runIn w).2.draws number = w.draws number

theorem Spares.pure (a : α) : Spares number (pure a : Eval α) :=
  fun _ => rfl

theorem Spares.fail (e : ResolveError) : Spares number (fail e : Eval α) :=
  fun _ => rfl

theorem Spares.ofExcept (result : Except ResolveError α) : Spares number (ofExcept result) := by
  cases result with
  | ok a => exact Spares.pure a
  | error e => exact Spares.fail e

theorem Spares.bind {m : Eval α} {f : α → Eval β} (hm : Spares number m)
    (hf : ∀ a, Spares number (f a)) : Spares number (m >>= f) := by
  intro w
  have hfirst := hm w
  rw [runIn_bind]
  rcases hrun : m.runIn w with ⟨outcome, w₁⟩
  rw [hrun] at hfirst
  cases outcome with
  | ok a => exact (hf a w₁).trans hfirst
  | error s => exact hfirst

/-- What uses entropy only leaves every counter as it is. -/
theorem EntropyOnly.spares {years : Int → Prop} {m : Eval α} (h : EntropyOnly years m) :
    Spares number m := by
  intro w
  rw [World.draws, World.draws, h.drawn_eq w]

end Eval

/-- A generator that leaves the counter of a cycle as it is. -/
def Generator.Spares (number : Nat) (g : Generator) : Prop :=
  ∀ w, (g.draw w).2.draws number = w.draws number

namespace Namespace

/-- A namespace whose calls leave the counter of a cycle as it is. -/
def Spares (number : Nat) (ns : Namespace) : Prop :=
  ∀ call, Eval.Spares number (ns.call call)

/-- The standard namespaces that have no catalog. -/
inductive IsStandard : Namespace → Prop where
  | math : IsStandard Arithmetic.functions
  | date (format : DateFormat) (now : Instant) : IsStandard (Calendar.functions format now)
  | random (alphabet : String) : IsStandard (Randomness.functions alphabet)
  | env (environment : Environment) : IsStandard environment.functions

end Namespace

theorem Namespace.IsStandard.spares {ns : Namespace} (h : ns.IsStandard) (number : Nat) :
    ns.Spares number := by
  intro call
  have hany : ∃ years, Eval.EntropyOnly years (ns.call call) := by
    cases h with
    | math => exact ⟨fun _ => False, Arithmetic.entropyOnly_call call⟩
    | date format now => exact ⟨_, Calendar.entropyOnly_call format now call⟩
    | random alphabet => exact ⟨fun _ => False, Randomness.entropyOnly_call alphabet call⟩
    | env environment => exact ⟨fun _ => False, environment.entropyOnly_call call⟩
  rcases hany with ⟨years, hyears⟩
  exact hyears.spares

/-! ## The catalog -/

namespace Catalog

/-- Segments lead to a generator exactly if it is the node at their end. -/
theorem follow_eq_generator_iff {segments : List String} {node : Node} {g : Generator} :
    follow segments node = .ok (.generator g) ↔
      Node.descend? segments node = some (.generator g) := by
  induction segments generalizing node with
  | nil => cases node <;> simp [follow, Node.descend?, Path.navigate]
  | cons segment rest ih =>
    cases node with
    | value v =>
      -- behind a value there are other values, and no node
      simp only [follow, Node.descend?, Node.child?, Node.members, Entries.get?]
      split <;> simp
    | generator other => simp [follow, Node.descend?, Node.child?, Node.members, Entries.get?]
    | group members =>
      simp only [follow, Node.descend?, Node.child?, Node.members]
      cases Entries.get? segment members with
      | none => simp
      | some node => simpa using ih

variable {catalog : Catalog} {call : Call}

/-- A call of a generator's member without arguments draws from the generator. -/
theorem runIn_call_of_generator {g : Generator} (harity : call.arity = 0)
    (hg : Node.descend? (segments call.member) catalog.root = some (.generator g)) (w : World) :
    (catalog.call call).runIn w = (.ok (g.draw w).1, (g.draw w).2) := by
  have hnone : call.expectNoArguments = .ok () := by
    simp [Call.expectNoArguments, harity]
  rw [Catalog.call, hnone, Eval.runIn_bind, Eval.runIn_ofExcept_ok]
  simp [follow_eq_generator_iff.2 hg]

/-- A call that draws from no generator that advances a counter leaves the counter as it is. -/
theorem spares_call {number : Nat}
    (h : call.arity = 0 → ∀ g,
      Node.descend? (segments call.member) catalog.root = some (.generator g) → g.Spares number) :
    Eval.Spares number (catalog.call call) := by
  by_cases harity : call.arity = 0
  · refine (Eval.Spares.ofExcept _).bind fun _ => ?_
    split
    · exact .pure _
    · rename_i g hg
      exact h harity g (follow_eq_generator_iff.1 hg)
    · exact .fail _
  · -- arguments are refused before the catalog is looked at
    have hrefused : call.expectNoArguments = call.error (.takesNoArguments call.member) := by
      simp [Call.expectNoArguments, harity]
    rw [Catalog.call, hrefused]
    exact fun _ => rfl

end Catalog

/-! ## The registry -/

/-- Whether a call names, without arguments, a member of `faker` at one of some places. -/
def Call.names (places : List (List String)) (call : Call) : Bool :=
  call.ns = "faker" && call.arity = 0 && Catalog.segments call.member ∈ places

/-- The counter of a cycle belongs to the generator at some places of a catalog: the registry has
the catalog as its namespace `faker`, the cycle is at all these places, and no generator elsewhere
and no other namespace advances its counter. -/
structure Registry.OwnsCycle (functions : Registry) (catalog : Catalog)
    (places : List (List String)) (number : Nat) (items : List Value) : Prop where
  items_ne_nil : items ≠ []
  faker : functions.get? "faker" = some catalog.functions
  cycle : ∀ place ∈ places,
    Node.descend? place catalog.root = some (.generator (.cycle number items))
  generators : ∀ other g, other ∉ places →
    Node.descend? other catalog.root = some (.generator g) → g.Spares number
  namespaces : ∀ name ns, name ≠ "faker" → functions.get? name = some ns →
    ns.IsStandard ∨ ns.Spares number

namespace Registry.OwnsCycle

variable {functions : Registry} {catalog : Catalog} {places : List (List String)} {number : Nat}
  {items : List Value} {call : Call}

/-- A call of the owned cycle gives the item whose turn it is, and counts. -/
theorem runIn_dispatch (h : functions.OwnsCycle catalog places number items)
    (hcall : call.names places = true) (w : World) :
    ∃ item, items[w.draws number % items.length]? = some item ∧
      (functions.dispatch call).runIn w = (.ok item, w.countDraw number) := by
  simp only [Call.names, Bool.and_eq_true, decide_eq_true_eq] at hcall
  obtain ⟨⟨hns, harity⟩, hplace⟩ := hcall
  have hindex : w.draws number % items.length < items.length :=
    Nat.mod_lt _ (List.length_pos_iff.2 h.items_ne_nil)
  refine ⟨items[w.draws number % items.length], List.getElem?_eq_getElem hindex, ?_⟩
  have hcycle := h.cycle _ hplace
  rw [dispatch, hns, h.faker]
  show (catalog.call call).runIn w = _
  rw [Catalog.runIn_call_of_generator harity hcycle]
  simp [Generator.cycle, List.getElem?_eq_getElem hindex]

/-- Every other call leaves the counter of the owned cycle as it is. -/
theorem spares_dispatch (h : functions.OwnsCycle catalog places number items)
    (hcall : call.names places = false) : Eval.Spares number (functions.dispatch call) := by
  unfold dispatch
  split
  · rename_i ns hns
    by_cases hfaker : call.ns = "faker"
    · rw [hfaker, h.faker] at hns
      cases hns
      refine Catalog.spares_call fun harity g hg => ?_
      refine h.generators _ g ?_ hg
      intro hplace
      simp [Call.names, hfaker, harity, hplace] at hcall
    · rcases h.namespaces _ ns hfaker hns with hstandard | hspares
      · exact hstandard.spares number call
      · exact hspares call
  · exact .ofExcept _

end Registry.OwnsCycle

/-- The standard namespaces with others that leave its counter alone own every cycle that the
generators at other places leave alone. -/
theorem Registry.ownsCycle_standard {settings : Settings} {sources : Sources}
    {custom : List Namespace} {places : List (List String)} {number : Nat} {items : List Value}
    (hitems : items ≠ [])
    (hcycle : ∀ place ∈ places,
      Node.descend? place sources.catalog.root = some (.generator (.cycle number items)))
    (hgenerators : ∀ other g, other ∉ places →
      Node.descend? other sources.catalog.root = some (.generator g) → g.Spares number)
    (hcustom : ∀ ns ∈ custom, ns.name ≠ "faker" ∧ ns.Spares number) :
    ((standard settings sources).extend (.ofList custom)).OwnsCycle sources.catalog places number
      items where
  items_ne_nil := hitems
  faker := by
    rw [get?_extend, get?_standard_faker]
    cases h : (ofList custom).get? "faker" with
    | none => rfl
    | some ns =>
      obtain ⟨hmem, hname⟩ := mem_of_get?_ofList h
      exact absurd hname (hcustom ns hmem).1
  cycle := hcycle
  generators := hgenerators
  namespaces := by
    intro name ns hname h
    rw [get?_extend, Option.or_eq_some_iff] at h
    rcases h with hin | ⟨-, hin⟩
    · exact Or.inr (hcustom ns (mem_of_get?_ofList hin).1).2
    · obtain ⟨hmem, rfl⟩ := mem_of_get?_ofList hin
      simp only [List.mem_cons, List.not_mem_nil, or_false] at hmem
      rcases hmem with rfl | rfl | rfl | rfl | rfl
      · exact absurd rfl hname
      · exact Or.inl .math
      · exact Or.inl (.date _ _)
      · exact Or.inl (.random _)
      · exact Or.inl (.env _)

end Stencil
