import Stencil.Evaluation
import Stencil.Text.Inspection
import Stencil.Text.Names
import Stencil.Value.Table

/-!
# Function namespaces

A function namespace evaluates the calls `$ns.member(args)` under its name. A registry holds at most
one namespace per name; the one that was registered last is used.
-/

namespace Stencil

/-- Evaluates the calls under one name. -/
structure Namespace where
  name : String
  call : Call → Eval Value

namespace Namespace

/-- The failure of a call whose member the namespace does not have. -/
def unknownMember {α : Type} (call : Call) : Except ResolveError α :=
  call.error (.unknownMember call.member call.ns)

end Namespace

/-- Namespaces by their names. -/
structure Registry where
  table : Table Namespace := {}

namespace Registry

/-- The namespace of a name. -/
def get? (name : String) (r : Registry) : Option Namespace :=
  r.table.get? name

/-- Adds a namespace, and gives back the one that it replaces. -/
def register (ns : Namespace) (r : Registry) : Option Namespace × Registry :=
  (r.get? ns.name, { table := r.table.insert ns.name ns })

/-- The registry with one more namespace. -/
def adding (r : Registry) (ns : Namespace) : Registry :=
  (r.register ns).2

/-- The registry with all namespaces of another one, which replace those of the same names. -/
def extend (r added : Registry) : Registry :=
  { table := r.table.insertAll added.table.entries }

/-- The registry of the given namespaces, registered in order. -/
def ofList (namespaces : List Namespace) : Registry :=
  namespaces.foldl Registry.adding {}

/-- Whether a name has a namespace. -/
def contains (name : String) (r : Registry) : Bool :=
  r.table.contains name

/-- The names in increasing order. -/
def names (r : Registry) : List String :=
  Names.ofList r.table.keys

/-- Evaluates a call in its namespace. -/
def dispatch (call : Call) (r : Registry) : Eval Value :=
  match r.get? call.ns with
  | some ns => ns.call call
  | none => Eval.ofExcept (call.error (.unknownNamespace call.ns))

/-- The registry as it is shown for inspection. -/
def inspect (r : Registry) : String :=
  "FunctionRegistry \x7b namespaces: " ++
    Text.inspectList "[" "]" (r.names.map Text.inspect) ++ " \x7d"

end Registry

end Stencil
