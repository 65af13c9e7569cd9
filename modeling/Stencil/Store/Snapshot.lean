import Stencil.Store.Basic
import Stencil.Value.Printer
import Stencil.Value.Reader

/-!
# Snapshots

A snapshot is what a store holds, in a form that can be written as JSON: an object with the members
`global` and `local`. Reading passes other members over and takes an absent one as empty.
-/

namespace Stencil

/-- The variables of a store at one moment. -/
@[ext] structure Snapshot where
  globals : Table Value := {}
  locals : Table Value := {}

namespace Snapshot

/-- The names of the two members. -/
def fields : List String :=
  [Scope.globals.name, Scope.locals.name]

/-- The snapshot as a value. -/
def toValue (snapshot : Snapshot) : Value :=
  .object
    [ (Scope.globals.name, .object snapshot.globals.entries),
      (Scope.locals.name, .object snapshot.locals.entries) ]

/-- The variables that a value holds for a scope: none if the member is no object. -/
def scopeOf (scope : Scope) (v : Value) : Table Value :=
  match v.member? scope.name with
  | some (.object members) => .ofEntries members
  | _ => {}

/-- The snapshot that a value describes. -/
def ofValue (v : Value) : Snapshot :=
  { globals := scopeOf .globals v, locals := scopeOf .locals v }

/-- The text of a snapshot. -/
def toJson (snapshot : Snapshot) : String :=
  snapshot.toValue.toPrettyJson

/-- Reads the text of a snapshot. -/
def ofJson (text : String) : Except JsonFault Snapshot :=
  (Reader.read (.record fields) text.toList).map ofValue

/-- Whether the snapshot holds no variables. -/
def isEmpty (snapshot : Snapshot) : Bool :=
  snapshot.globals.isEmpty && snapshot.locals.isEmpty

theorem ofValue_toValue (snapshot : Snapshot) : ofValue snapshot.toValue = snapshot := by
  simp [ofValue, scopeOf, toValue, Value.member?, Entries.get?, Scope.name,
    Table.ofEntries_entries]

end Snapshot

namespace Store

/-- The snapshot of a store. -/
def snapshot (s : Store) : Snapshot :=
  { globals := s.globals, locals := s.locals }

/-- The store that holds exactly the variables of a snapshot. -/
def ofSnapshot (snapshot : Snapshot) : Store :=
  { globals := snapshot.globals, locals := snapshot.locals }

/-- Writes the variables of a snapshot into a store, in their order. -/
def importSnapshot (snapshot : Snapshot) (s : Store) : Store :=
  { globals := s.globals.insertAll snapshot.globals.entries
    locals := s.locals.insertAll snapshot.locals.entries }

end Store

end Stencil
