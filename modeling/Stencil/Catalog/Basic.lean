import Stencil.Path
import Stencil.Registry
import Stencil.Value.Inspection

/-!
# Fake data

A catalog is a tree of named nodes. Leaves are fixed values or generators, which give a fresh value
each time; inner nodes are groups, whose members are kept in the order of their names. Dotted paths
name nodes.
-/

namespace Stencil

/-- Gives a fresh value at each draw. -/
structure Generator where
  draw : World → Value × World

namespace Generator

/-- Gives the items of a list in turn, over and over. Cycles of different numbers advance
independently. -/
def cycle (number : Nat) (items : List Value) : Generator where
  draw w := (items[w.draws number % items.length]?.getD .null, w.countDraw number)

/-- Gives values drawn from the entropy. -/
def random (draw : Entropy → Value × Entropy) : Generator where
  draw := World.random draw

end Generator

/-- A node of a catalog. -/
inductive Node where
  | value (v : Value)
  | generator (g : Generator)
  | group (members : List (String × Node))

namespace Node

/-- The members of a group; a leaf has none. -/
def members : Node → Entries Node
  | .group members => members
  | .value _ | .generator _ => []

/-- The member of a group with the given name. -/
def child? (name : String) (node : Node) : Option Node :=
  Entries.get? name node.members

/-- Writes a member among others that are in the order of their names. -/
def putMember (name : String) (node : Node) : Entries Node → Entries Node
  | [] => [(name, node)]
  | (n, other) :: rest =>
    if name = n then (n, node) :: rest
    else if name < n then (name, node) :: (n, other) :: rest
    else (n, other) :: putMember name node rest

/-- The node at the end of some segments. -/
def descend? : List String → Node → Option Node
  | [], node => some node
  | segment :: rest, node => (node.child? segment).bind (descend? rest)

/-- Puts a node at the end of some segments. What is on the way becomes a group, if it is none. -/
def insertAt (added : Node) : List String → Node → Node
  | [], _ => added
  | segment :: rest, node =>
    let next := (node.child? segment).getD (.group [])
    .group (putMember segment (insertAt added rest next) node.members)

mutual

/-- A node as it is shown for inspection. -/
def inspect : Node → String
  | .value v => "Value(" ++ v.inspect ++ ")"
  | .generator _ => "Generator(..)"
  | .group members => inspectEntries (inspectMembers members)

/-- The members of a group, their nodes as they are shown for inspection. -/
def inspectMembers : List (String × Node) → List (String × String)
  | [] => []
  | (name, node) :: rest => (name, inspect node) :: inspectMembers rest

end

end Node

/-- A tree of fake data. -/
structure Catalog where
  root : Node := .group []

namespace Catalog

/-- The segments of a dotted path, empty ones included. -/
def segments (path : String) : List String :=
  (Text.splitAt '.' path.toList).map String.ofList

/-- The node at a path. -/
def lookup? (path : String) (catalog : Catalog) : Option Node :=
  Node.descend? (segments path) catalog.root

/-- Puts a node at a path. Empty segments do not count, and without others nothing changes. -/
def insert (path : String) (node : Node) (catalog : Catalog) : Catalog :=
  match (segments path).filter (· ≠ "") with
  | [] => catalog
  | segments => { root := Node.insertAt node segments catalog.root }

/-- What a path into fake data leads to. -/
inductive Target where
  | value (v : Value)
  | generator (g : Generator)

/-- Follows segments from a node. Behind a value they lead on into it; a generator has nothing
behind it, and a group is nothing by itself. -/
def follow : List String → Node → Except CatalogFault Target
  | segments, .value v =>
    match Path.navigate segments v with
    | some v => .ok (.value v)
    | none => .error (.notFoundInValue (String.intercalate "." segments))
  | [], .generator g => .ok (.generator g)
  | segment :: _, .generator _ => .error (.behindGenerator segment)
  | [], .group _ => .error .namesGroup
  | segment :: rest, .group members =>
    match Entries.get? segment members with
    | some node => follow rest node
    | none => .error (.unknownMember segment)

/-- Evaluates a call of `faker`: the member is a path. -/
def call (catalog : Catalog) (call : Call) : Eval Value := do
  Eval.ofExcept call.expectNoArguments
  match follow (segments call.member) catalog.root with
  | .ok (.value v) => return v
  | .ok (.generator g) => modifyGet g.draw
  | .error fault => Eval.fail (.invalidFunctionPath call.member fault)

/-- The namespace `faker`. -/
def functions (catalog : Catalog) : Namespace :=
  { name := "faker", call := catalog.call }

end Catalog

end Stencil
