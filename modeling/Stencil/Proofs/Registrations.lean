import Stencil.Proofs.Registry
import Stencil.Template.Builder

/-!
# The last registration wins

The namespaces that a registry was given, in their order, are its log: those that it started with,
those that were registered, and those that came with other registries, which have logs of their
own. Under each name a registry answers by the last namespace of its log, whatever was done
(`last_registration_wins`).
-/

namespace Stencil

namespace Registry

variable {r added : Registry} {past back : List Namespace} {name : String} {ns : Namespace}

/-! ## Logs -/

/-- The last namespace with a name. -/
def lastNamed? (name : String) (log : List Namespace) : Option Namespace :=
  log.reverse.find? fun ns => ns.name = name

theorem lastNamed?_append (name : String) (front back : List Namespace) :
    lastNamed? name (front ++ back) = (lastNamed? name back).or (lastNamed? name front) := by
  rw [lastNamed?, List.reverse_append, List.find?_append]
  rfl

theorem lastNamed?_singleton (name : String) (ns : Namespace) :
    lastNamed? name [ns] = if name = ns.name then some ns else none := by
  by_cases h : name = ns.name
  · simp [lastNamed?, h]
  · simp [lastNamed?, h, Ne.symm h]

/-- A namespace is the last one with a name: it stands in the log, and none with that name stands
behind it. -/
def IsLast (ns : Namespace) (name : String) (log : List Namespace) : Prop :=
  ns.name = name ∧ ∃ front back, log = front ++ ns :: back ∧ ∀ other ∈ back, other.name ≠ name

theorem lastNamed?_eq_some_iff : lastNamed? name past = some ns ↔ IsLast ns name past := by
  rw [lastNamed?, List.find?_eq_some_iff_append]
  simp only [decide_eq_true_eq, Bool.not_eq_true', decide_eq_false_iff_not]
  constructor
  · rintro ⟨hname, back, front, hlog, hback⟩
    refine ⟨hname, front.reverse, back.reverse, ?_, ?_⟩
    · rw [← List.reverse_reverse past, hlog]
      simp
    · intro other hother
      exact hback other (List.mem_reverse.1 hother)
  · rintro ⟨hname, front, back, rfl, hback⟩
    refine ⟨hname, back.reverse, front.reverse, by simp, ?_⟩
    intro other hother
    exact hback other (List.mem_reverse.1 hother)

theorem lastNamed?_eq_none_iff : lastNamed? name past = none ↔ ∀ ns ∈ past, ns.name ≠ name := by
  simp [lastNamed?]

/-! ## What a registry holds -/

/-- Under each name a registry holds the last namespace of a log. -/
def Follows (r : Registry) (past : List Namespace) : Prop :=
  ∀ name, r.get? name = lastNamed? name past

theorem follows_empty : Follows {} [] :=
  fun _ => rfl

/-- A namespace that is added becomes the last one. -/
theorem Follows.adding (h : r.Follows past) (ns : Namespace) :
    (r.adding ns).Follows (past ++ [ns]) := by
  intro name
  rw [get?_adding, lastNamed?_append, lastNamed?_singleton, h name]
  split
  · rfl
  · rfl

/-- The log of a registry that comes in goes behind the other one. -/
theorem Follows.extend (h : r.Follows past) (hadded : added.Follows back) :
    (r.extend added).Follows (past ++ back) := by
  intro name
  rw [get?_extend, lastNamed?_append, h name, hadded name]

theorem Follows.foldl_adding (h : r.Follows past) (namespaces : List Namespace) :
    (namespaces.foldl Registry.adding r).Follows (past ++ namespaces) := by
  induction namespaces generalizing r past with
  | nil => rwa [List.append_nil]
  | cons ns rest ih =>
    have hrest := ih (h.adding ns)
    rwa [List.append_assoc] at hrest

theorem follows_ofList (namespaces : List Namespace) : (ofList namespaces).Follows namespaces :=
  follows_empty.foldl_adding namespaces

/-- The five standard namespaces in the order of their registration. -/
def standardNamespaces (settings : Settings) (sources : Sources) : List Namespace :=
  [ sources.catalog.functions,
    Arithmetic.functions,
    Calendar.functions settings.dateFormat sources.now,
    Randomness.functions settings.charset,
    sources.environment.functions ]

theorem follows_standard (settings : Settings) (sources : Sources) :
    (standard settings sources).Follows (standardNamespaces settings sources) :=
  follows_ofList _

/-- The names of a registry are those in its log. -/
theorem Follows.contains_iff (h : r.Follows past) (name : String) :
    r.contains name = true ↔ ∃ ns ∈ past, ns.name = name := by
  have hsome : r.contains name = (lastNamed? name past).isSome := by
    rw [← h name]
    rfl
  rw [hsome, ← not_iff_not, Bool.not_eq_true, Option.isSome_eq_false_iff, Option.isNone_iff_eq_none,
    lastNamed?_eq_none_iff]
  push Not
  rfl

/-! ## What a registry answers -/

/-- A registry answers by the last namespaces of a log: a call is evaluated by the last one with its
name, and fails if there is none; a registration gives back the one that it replaces; and the names
that are listed are those in the log. -/
structure AnswersBy (r : Registry) (past : List Namespace) : Prop where
  dispatch : ∀ call ns, IsLast ns call.ns past → r.dispatch call = ns.call call
  unknown : ∀ call : Call, (∀ ns ∈ past, ns.name ≠ call.ns) →
    r.dispatch call = Eval.fail (.invalidFunctionCall call.source (.unknownNamespace call.ns))
  replaced : ∀ ns old, (r.register ns).1 = some old ↔ IsLast old ns.name past
  fresh : ∀ ns, (r.register ns).1 = none ↔ ∀ old ∈ past, old.name ≠ ns.name
  contains : ∀ name, r.contains name = true ↔ ∃ ns ∈ past, ns.name = name
  names : ∀ name, name ∈ r.names ↔ ∃ ns ∈ past, ns.name = name
  sorted : r.names.Pairwise (· < ·)

theorem Follows.answersBy (h : r.Follows past) : r.AnswersBy past where
  dispatch := by
    intro call ns hlast
    rw [Registry.dispatch, h, lastNamed?_eq_some_iff.2 hlast]
  unknown := by
    intro call hnone
    rw [Registry.dispatch, h, lastNamed?_eq_none_iff.2 hnone]
    rfl
  replaced := by
    intro ns old
    rw [register, h, lastNamed?_eq_some_iff]
  fresh := by
    intro ns
    rw [register, h, lastNamed?_eq_none_iff]
  contains := h.contains_iff
  names := by
    intro name
    rw [Registry.names, Names.mem_ofList, ← Table.contains_iff]
    exact h.contains_iff name
  sorted := Names.pairwise_ofList _

/-! ## Runs -/

/-- What a registry starts with. -/
inductive Start where
  | empty
  | standard (settings : Settings) (sources : Sources)

/-- The registry at the start. -/
def Start.registry : Start → Registry
  | .empty => {}
  | .standard settings sources => Registry.standard settings sources

/-- The log at the start. -/
def Start.log : Start → List Namespace
  | .empty => []
  | .standard settings sources => standardNamespaces settings sources

/-- What is done to a registry: a namespace is registered, or added, or another registry is brought
in, which itself was made from a start by such operations. -/
inductive Operation where
  | register (ns : Namespace)
  | adding (ns : Namespace)
  | extend (start : Start) (operations : List Operation)

mutual

/-- What an operation makes of a registry. -/
def Operation.apply : Operation → Registry → Registry
  | .register ns, r => (r.register ns).2
  | .adding ns, r => r.adding ns
  | .extend start operations, r => r.extend (applyAll operations start.registry)

/-- What operations make of a registry, one after the other. -/
def applyAll : List Operation → Registry → Registry
  | [], r => r
  | operation :: rest, r => applyAll rest (operation.apply r)

end

mutual

/-- The namespaces that an operation brings in, in order. -/
def Operation.log : Operation → List Namespace
  | .register ns => [ns]
  | .adding ns => [ns]
  | .extend start operations => start.log ++ logAll operations

/-- The namespaces that operations bring in, in order. -/
def logAll : List Operation → List Namespace
  | [] => []
  | operation :: rest => operation.log ++ logAll rest

end

theorem follows_start (start : Start) : start.registry.Follows start.log := by
  cases start with
  | empty => exact follows_empty
  | standard settings sources => exact follows_standard settings sources

-- the recursion goes down the nesting of operations: a registry that comes in has a run of its own
mutual

/-- One operation keeps a registry to its log. -/
theorem Follows.apply {r : Registry} {past : List Namespace} (h : r.Follows past)
    (operation : Operation) : (operation.apply r).Follows (past ++ operation.log) := by
  cases operation with
  | register ns => exact h.adding ns
  | adding ns => exact h.adding ns
  | extend start operations => exact h.extend ((follows_start start).applyAll operations)

/-- Every run keeps a registry to its log. -/
theorem Follows.applyAll {r : Registry} {past : List Namespace} (h : r.Follows past)
    (operations : List Operation) :
    (Registry.applyAll operations r).Follows (past ++ logAll operations) := by
  cases operations with
  | nil =>
    rw [Registry.applyAll, logAll, List.append_nil]
    exact h
  | cons operation rest =>
    rw [Registry.applyAll, logAll, ← List.append_assoc]
    exact (h.apply operation).applyAll rest

end

end Registry

/-! ## Builders -/

namespace Resolver

namespace Setter

variable {b built : Builder} {setters : List Setter}

/-- The namespace that a setter adds. -/
def namespace? : Setter → Option Namespace
  | .function ns => some ns
  | .settings _ | .catalog _ | .environment _ | .now _ => none

/-- A setter adds its namespace to those that were added before. -/
theorem added_apply {setter : Setter} (h : setter.apply b = .ok built) :
    built.added = setter.namespace?.toList.foldl Registry.adding b.added := by
  cases setter with
  | settings given =>
    cases hvalidate : given.validate with
    | error fault => simp [apply, Builder.withSettings, hvalidate, Except.map] at h
    | ok settings =>
      simp only [apply, Builder.withSettings, hvalidate, Except.map, Except.ok.injEq] at h
      rw [← h]
      rfl
  | catalog _ | environment _ | now _ | function _ =>
    cases h
    rfl

theorem added_applyAll (h : applyAll setters b = .ok built) :
    built.added = (setters.filterMap namespace?).foldl Registry.adding b.added := by
  induction setters generalizing b with
  | nil =>
    cases h
    rfl
  | cons setter rest ih =>
    rw [applyAll] at h
    split at h
    · rename_i next hnext
      rw [ih h, added_apply hnext]
      cases hnamespace : setter.namespace? with
      | none => simp [hnamespace]
      | some ns => simp [hnamespace]
    · cases h

/-- Setters with valid settings only have no fault. -/
theorem exists_applyAll (h : ∀ given, .settings given ∈ setters → given.fault? = none)
    (b : Builder) : ∃ built, applyAll setters b = .ok built := by
  induction setters generalizing b with
  | nil => exact ⟨b, rfl⟩
  | cons setter rest ih =>
    have hrest := ih fun given hmem => h given (List.mem_cons_of_mem _ hmem)
    have hfirst : ∃ next, setter.apply b = .ok next := by
      cases setter with
      | settings given =>
        have hfault := h given List.mem_cons_self
        refine ⟨{ b with settings := given }, ?_⟩
        simp [apply, Builder.withSettings, Settings.validate, hfault, Except.map]
      | catalog _ | environment _ | now _ | function _ => exact ⟨_, rfl⟩
    obtain ⟨next, hnext⟩ := hfirst
    obtain ⟨built, hbuilt⟩ := hrest next
    refine ⟨built, ?_⟩
    rw [applyAll, hnext]
    exact hbuilt

end Setter

/-- The namespaces that were added to a builder come after the standard ones, wherever their setters
stand among the others. -/
theorem Builder.follows_build {store : Store} {setters : List Setter} {built : Builder}
    (h : Setter.applyAll setters { store } = .ok built) (process : Entries String) (now : Instant) :
    (built.build process now).functions.Follows
      (Registry.standardNamespaces built.settings (built.sources process now) ++
        setters.filterMap Setter.namespace?) := by
  have hadded : built.added.Follows (setters.filterMap Setter.namespace?) := by
    rw [Setter.added_applyAll h]
    exact Registry.follows_ofList _
  exact (Registry.follows_standard _ _).extend hadded

end Resolver

namespace Registry

/-- Whatever is done to a registry, it answers by the last of the namespaces that it started with,
that were registered, and that were brought in with other registries, in their order. So does the
registry of a resolver that is built: the namespaces that were added to its builder come after the
standard ones. -/
theorem last_registration_wins (start : Start) (operations : List Operation) :
    (applyAll operations start.registry).AnswersBy (start.log ++ logAll operations) ∧
    ∀ (store : Store) (setters : List Resolver.Setter),
      (∀ given, .settings given ∈ setters → given.fault? = none) →
      ∃ built, Resolver.Setter.applyAll setters { store } = .ok built ∧
        ∀ (process : Entries String) (now : Instant),
          (built.build process now).functions.AnswersBy
            (standardNamespaces built.settings (built.sources process now) ++
              setters.filterMap Resolver.Setter.namespace?) := by
  constructor
  · exact ((follows_start start).applyAll operations).answersBy
  · intro store setters hvalid
    obtain ⟨built, hbuilt⟩ := Resolver.Setter.exists_applyAll hvalid { store }
    refine ⟨built, hbuilt, ?_⟩
    intro process now
    exact (Resolver.Builder.follows_build hbuilt process now).answersBy

/-- Four namespaces of one name, two of which come with other registries, and one that is added to a
builder before its settings and its catalog. -/
theorem last_registration_wins_of_collisions :
    let sources : Sources :=
      { catalog := {}, environment := {}
        now := ⟨0, 0, by decide, by decide, by decide, by decide⟩ }
    let constant (n : Int) : Namespace := { name := "math", call := fun _ => pure (.ofInt n) }
    let operations : List Operation :=
      [.extend (.standard {} sources) [.adding (constant 1)], .register (constant 2),
        .extend .empty [.register (constant 3), .adding (constant 4)]]
    let setters : List Resolver.Setter :=
      [.function (constant 5), .settings { maxDepth := 1 }, .catalog {}]
    let call : Call := { ns := "math", member := "round", args := none, source := "$math.round" }
    (applyAll operations Start.empty.registry).dispatch call = pure (.ofInt 4) ∧
      (∀ given, .settings given ∈ setters → given.fault? = none) ∧
      ∃ built, Resolver.Setter.applyAll setters { store := {} } = .ok built ∧
        ∀ (process : Entries String) (now : Instant),
          (built.build process now).functions.dispatch call = pure (.ofInt 5) := by
  intro sources constant operations setters call
  have hvalid : ∀ given, .settings given ∈ setters → given.fault? = none := by
    intro given hmem
    simp only [setters, List.mem_cons, Resolver.Setter.settings.injEq, reduceCtorEq,
      List.not_mem_nil, or_false, false_or] at hmem
    rw [hmem]
    rfl
  obtain ⟨hrun, hbuilder⟩ := last_registration_wins .empty operations
  obtain ⟨built, hbuilt, hbuild⟩ := hbuilder {} setters hvalid
  refine ⟨?_, hvalid, built, hbuilt, ?_⟩
  · have hlast : IsLast (constant 4) call.ns (Start.empty.log ++ logAll operations) :=
      ⟨rfl, standardNamespaces {} sources ++ [constant 1, constant 2, constant 3], [], rfl, by simp⟩
    exact hrun.dispatch call (constant 4) hlast
  · intro process now
    have hlast : IsLast (constant 5) call.ns
        (standardNamespaces built.settings (built.sources process now) ++ [constant 5]) :=
      ⟨rfl, standardNamespaces built.settings (built.sources process now), [], rfl, by simp⟩
    exact (hbuild process now).dispatch call (constant 5) hlast

end Registry

end Stencil
