import Stencil.Text.Names
import Stencil.Value.Basic
import Stencil.Value.Table

/-!
# Variables

A store holds variables in two scopes. Global variables last for a whole run, local ones are cleared
between its steps. A lookup prefers the local scope; writing to one scope leaves the other alone.
-/

namespace Stencil

/-- The scope of a variable. -/
inductive Scope where
  | globals
  | locals
deriving DecidableEq, Repr

namespace Scope

/-- The name of a scope. -/
def name : Scope → String
  | .globals => "global"
  | .locals => "local"

/-- The scope with exactly the given name. -/
def ofExactName? (name : String) : Option Scope :=
  if name = "global" then some .globals
  else if name = "local" then some .locals
  else none

/-- The scope with the given name, whatever the case of its ASCII letters. -/
def ofName? (name : String) : Option Scope :=
  ofExactName? (String.ofList (name.toList.map Char.toLower))

end Scope

/-- Variables in two scopes, each in the order of their first writing. -/
@[ext] structure Store where
  globals : Table Value := {}
  locals : Table Value := {}

namespace Store

/-- The variables of a scope. -/
def table (scope : Scope) (s : Store) : Table Value :=
  match scope with
  | .globals => s.globals
  | .locals => s.locals

/-- Replaces the variables of a scope. -/
def withTable (scope : Scope) (t : Table Value) (s : Store) : Store :=
  match scope with
  | .globals => { s with globals := t }
  | .locals => { s with locals := t }

/-- Writes a variable. -/
def set (scope : Scope) (key : String) (value : Value) (s : Store) : Store :=
  s.withTable scope ((s.table scope).insert key value)

/-- The variable of one scope. -/
def getIn? (scope : Scope) (key : String) (s : Store) : Option Value :=
  (s.table scope).get? key

/-- The local variable of that name, else the global one. -/
def get? (key : String) (s : Store) : Option Value :=
  (s.getIn? .locals key).or (s.getIn? .globals key)

/-- Whether a scope has a variable of that name. -/
def has (key : String) (s : Store) : Bool :=
  s.locals.contains key || s.globals.contains key

/-- Removes a variable from one scope, and says whether it was there. -/
def deleteFrom (scope : Scope) (key : String) (s : Store) : Bool × Store :=
  ((s.table scope).contains key, s.withTable scope ((s.table scope).erase key))

/-- Removes a variable from both scopes, and says whether it was in one of them. -/
def delete (key : String) (s : Store) : Bool × Store :=
  let (wasLocal, s) := s.deleteFrom .locals key
  let (wasGlobal, s) := s.deleteFrom .globals key
  (wasLocal || wasGlobal, s)

/-- Removes all variables of a scope. -/
def clear (scope : Scope) (s : Store) : Store :=
  s.withTable scope {}

/-- Removes all variables. -/
def clearAll (s : Store) : Store :=
  (s.clear .locals).clear .globals

/-- The names of all variables in increasing order. -/
def keys (s : Store) : List String :=
  Names.ofList (s.locals.keys ++ s.globals.keys)

/-- How many names the variables have. -/
def size (s : Store) : Nat :=
  s.keys.length

/-- Whether there are no variables. -/
def isEmpty (s : Store) : Bool :=
  s.locals.isEmpty && s.globals.isEmpty

@[simp] theorem table_withTable (scope : Scope) (t : Table Value) (s : Store) :
    (s.withTable scope t).table scope = t := by
  cases scope <;> rfl

theorem table_withTable_of_ne {scope other : Scope} (h : other ≠ scope) (t : Table Value)
    (s : Store) : (s.withTable scope t).table other = s.table other := by
  cases scope with
  | globals =>
    cases other with
    | globals => exact absurd rfl h
    | locals => rfl
  | locals =>
    cases other with
    | globals => rfl
    | locals => exact absurd rfl h

/-- Writing a variable changes that variable of that scope, and nothing else. -/
theorem getIn?_set (scope other : Scope) (key name : String) (value : Value) (s : Store) :
    (s.set scope key value).getIn? other name =
      if other = scope ∧ name = key then some value else s.getIn? other name := by
  by_cases h : other = scope
  · subst h
    simp [set, getIn?, Table.get?, Table.insert, Entries.get?_insert]
  · simp [set, getIn?, table_withTable_of_ne h, h]

end Store

end Stencil
