import Stencil.Catalog.Basic
import Stencil.Calendar.Functions
import Stencil.Environment.Basic
import Stencil.Placeholder.Parser
import Stencil.Randomness.Functions
import Stencil.Store.Basic
import Stencil.Template.Occurrence
import Stencil.Value.Printer

/-!
# Resolving templates

A resolver replaces the placeholders in the strings of a template. A string that is one placeholder
becomes its value, whatever the kind; a placeholder inside a longer text becomes text. Arrays and
objects are resolved item by item in their order, an object's key before its value, and the first
failure ends the resolution.
-/

namespace Stencil

/-- What templates are resolved with. -/
structure Resolver where
  store : Store
  functions : Registry
  settings : Settings

/-- What the standard function namespaces work with. -/
structure Sources where
  catalog : Catalog
  environment : Environment
  now : Instant

/-- The five standard namespaces. -/
def Registry.standard (settings : Settings) (sources : Sources) : Registry :=
  .ofList
    [ sources.catalog.functions,
      Arithmetic.functions,
      Calendar.functions settings.dateFormat sources.now,
      Randomness.functions settings.charset,
      sources.environment.functions ]

namespace Resolver

/-- The resolver with the standard namespaces and some more, which replace those of the same names;
the settings have to be valid. -/
def create (store : Store) (settings : Settings) (sources : Sources) (custom : List Namespace) :
    Except SettingsFault Resolver :=
  settings.validate.map fun settings =>
    { store
      functions := (Registry.standard settings sources).extend (.ofList custom)
      settings }

/-- The resolver with a prepared registry; the settings have to be valid. -/
def ofRegistry (store : Store) (functions : Registry) (settings : Settings) :
    Except SettingsFault Resolver :=
  settings.validate.map fun settings => { store, functions, settings }

/-- The value that segments lead to: the first one names a variable. -/
def lookup? (r : Resolver) : List String → Option Value
  | [] => none
  | name :: rest => (r.store.get? name).bind (Path.navigate rest)

/-- Evaluates the text between the braces of a placeholder. A variable has a name, and a default
stands in for an absent one only. -/
def resolvePlaceholder (r : Resolver) (text : String) : Eval Value := do
  let placeholder ← Eval.ofExcept (Placeholder.parse text)
  match placeholder.expression with
  | .function call => r.functions.dispatch call
  | .variable [] => Eval.fail (.malformedPlaceholder text .emptyPath)
  | .variable (name :: rest) =>
    match r.lookup? (name :: rest), placeholder.default with
    | some v, _ => return v  -- null is a value too, and no default stands in for it
    | none, some v => return v
    | none, none => Eval.fail (.unresolvedVariable placeholder.source)

/-- The text of an occurrence: its literal text and the text of its value. An escaped occurrence
loses the backslash and stays as it is. -/
def occurrenceText (r : Resolver) (o : Template.Occurrence) : Eval (List Char) :=
  if o.isEscaped ∧ r.settings.allowEscapes then return o.before.dropLast ++ o.braced
  else do
    let v ← r.resolvePlaceholder (String.ofList o.inner)
    return o.before ++ v.plainText.toList

/-- The texts of occurrences in their order, and a tail. -/
def occurrencesText (r : Resolver) (tail : List Char) :
    List Template.Occurrence → Eval (List Char)
  | [] => return tail
  | o :: rest => do
    let front ← r.occurrenceText o
    let back ← r.occurrencesText tail rest
    return front ++ back

/-- Replaces the placeholders in a text. -/
def interpolate (r : Resolver) (cs : List Char) : Eval (List Char) :=
  let pieces := Template.pieces cs
  r.occurrencesText pieces.tail pieces.occurrences

/-- Resolves a string. -/
def resolveString (r : Resolver) (text : String) : Eval Value :=
  match Template.whole? text.toList with
  | some inner => r.resolvePlaceholder (String.ofList inner)
  | none =>
    if Template.hasPair '{' text.toList then do
      return .string (String.ofList (← r.interpolate text.toList))
    else return .string text

/-- Resolves a string to a text. -/
def resolveText (r : Resolver) (text : String) : Eval String := do
  return (← r.resolveString text).plainText

/-- Fails if a container stands inside as many others as the limit allows. -/
def checkDepth (r : Resolver) (depth : Nat) : Eval Unit :=
  if r.settings.maxDepth ≤ depth then Eval.fail (.depthExceeded r.settings.maxDepth)
  else return ()

mutual

/-- Resolves a value that stands inside `depth` containers. -/
def resolveAt (r : Resolver) (depth : Nat) : Value → Eval Value
  | .null => return .null
  | .bool b => return .bool b
  | .number n => return .number n
  | .string text => r.resolveString text
  | .array items => do
    r.checkDepth depth
    return .array (← resolveItems r (depth + 1) items)
  | .object members => do
    r.checkDepth depth
    return .object (← resolveMembers r (depth + 1) [] members)

/-- Resolves the items of an array. -/
def resolveItems (r : Resolver) (depth : Nat) : List Value → Eval (List Value)
  | [] => return []
  | item :: rest => do
    let item ← resolveAt r depth item
    return item :: (← resolveItems r depth rest)

/-- Resolves the members of an object, key before value. Of members whose keys become equal the last
value is kept, in the place of the first one. -/
def resolveMembers (r : Resolver) (depth : Nat) (done : Entries Value) :
    List (String × Value) → Eval (List (String × Value))
  | [] => return done
  | (key, item) :: rest => do
    let key ← r.resolveText key
    let item ← resolveAt r depth item
    resolveMembers r depth (Entries.insert key item done) rest

end

/-- Resolves a template. -/
def resolve (r : Resolver) (template : Value) : Eval Value :=
  r.resolveAt 0 template

/-- Resolves templates one after the other. The error of one is its outcome, and the others are
resolved all the same. -/
def resolveEach (r : Resolver) : List Value → Eval (List (Except ResolveError Value))
  | [] => return []
  | template :: rest => do
    let outcome ← (r.resolve template).attempt
    return outcome :: (← r.resolveEach rest)

end Resolver

end Stencil
