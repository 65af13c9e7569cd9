import Stencil.Catalog.English
import Stencil.Template.Resolver

/-!
# Building resolvers

A resolver can be built step by step: a setter gives the settings, what a standard namespace works
with, or one more namespace, in any order. What no setter gives is the English catalog, the
variables of the process and the time of the system. The namespaces that were added replace the
standard ones of the same names.
-/

namespace Stencil.Resolver

/-- A resolver that is being built. -/
structure Builder where
  store : Store
  settings : Settings := {}
  catalog : Option Catalog := none
  environment : Option Environment := none
  now : Option Instant := none
  added : Registry := {}

namespace Builder

/-- Sets the settings, which have to be valid. -/
def withSettings (settings : Settings) (b : Builder) : Except SettingsFault Builder :=
  settings.validate.map fun settings => { b with settings }

/-- Sets the catalog of `faker`. -/
def withCatalog (catalog : Catalog) (b : Builder) : Builder :=
  { b with catalog := some catalog }

/-- Sets the environment of `env`. -/
def withEnvironment (environment : Environment) (b : Builder) : Builder :=
  { b with environment := some environment }

/-- Sets the time of `date`. -/
def withNow (now : Instant) (b : Builder) : Builder :=
  { b with now := some now }

/-- Adds a namespace. -/
def withFunction (ns : Namespace) (b : Builder) : Builder :=
  { b with added := b.added.adding ns }

/-- What the standard namespaces work with, given the variables of the process and the time. -/
def sources (b : Builder) (process : Entries String) (now : Instant) : Sources where
  catalog := b.catalog.getD English.catalog
  environment := b.environment.getD { layers := [.process process] }
  now := b.now.getD now

/-- The finished resolver. -/
def build (b : Builder) (process : Entries String) (now : Instant) : Resolver where
  store := b.store
  functions := (Registry.standard b.settings (b.sources process now)).extend b.added
  settings := b.settings

end Builder

/-- A setter of the builder with what it is given. -/
inductive Setter where
  | settings (settings : Settings)
  | catalog (catalog : Catalog)
  | environment (environment : Environment)
  | now (now : Instant)
  | function (ns : Namespace)

namespace Setter

/-- What a setter makes of a builder. -/
def apply : Setter → Builder → Except SettingsFault Builder
  | .settings given, b => b.withSettings given
  | .catalog given, b => .ok (b.withCatalog given)
  | .environment given, b => .ok (b.withEnvironment given)
  | .now given, b => .ok (b.withNow given)
  | .function given, b => .ok (b.withFunction given)

/-- What setters make of a builder, one after the other. The first fault ends it. -/
def applyAll : List Setter → Builder → Except SettingsFault Builder
  | [], b => .ok b
  | setter :: rest, b =>
    match setter.apply b with
    | .ok b => applyAll rest b
    | .error fault => .error fault

/-- Setters of namespaces only add these. -/
theorem applyAll_functions (namespaces : List Namespace) (b : Builder) :
    applyAll (namespaces.map .function) b =
      .ok { b with added := namespaces.foldl Registry.adding b.added } := by
  induction namespaces generalizing b with
  | nil => rfl
  | cons ns rest ih => exact ih (b.withFunction ns)

end Setter

/-- A resolver that is given everything at once is the one that is built from it. -/
theorem create_eq_build (store : Store) (settings : Settings) (sources : Sources)
    (custom : List Namespace) (process : Entries String) (now : Instant) :
    create store settings sources custom =
      (Setter.applyAll
        ([.settings settings, .catalog sources.catalog, .environment sources.environment,
          .now sources.now] ++ custom.map .function) { store }).map
        fun b => b.build process now := by
  cases hfault : settings.fault? with
  | some fault =>
    have hvalidate : settings.validate = .error fault := by rw [Settings.validate, hfault]
    simp [create, Setter.applyAll, Setter.apply, Builder.withSettings, hvalidate, Except.map]
  | none =>
    have hvalidate : settings.validate = .ok settings := by rw [Settings.validate, hfault]
    simp only [create, Setter.applyAll, Setter.apply, Builder.withSettings, hvalidate, Except.map,
      List.cons_append, List.nil_append, Setter.applyAll_functions]
    rfl

end Stencil.Resolver
