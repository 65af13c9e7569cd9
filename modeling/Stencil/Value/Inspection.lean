import Stencil.Text.Inspection
import Stencil.Value.Printer

/-!
# Values for inspection

The form in which a value is shown for inspection names its kind: `Number(1)`, `String("s")`,
`Array [Null]`, `Object \{"k": Bool(true)}`.
-/

namespace Stencil

/-- Entries as they are shown for inspection, from names and shown values. -/
def inspectEntries (entries : List (String × String)) : String :=
  Text.inspectList "\x7b" "\x7d" <|
    entries.map fun (name, shown) => Text.inspect name ++ ": " ++ shown

namespace Value

mutual

/-- A value as it is shown for inspection. -/
def inspect : Value → String
  | .null => "Null"
  | .bool b => "Bool(" ++ String.ofList (boolText b) ++ ")"
  | .number n => "Number(" ++ String.ofList n.text ++ ")"
  | .string text => "String(" ++ Text.inspect text ++ ")"
  | .array items => "Array " ++ Text.inspectList "[" "]" (inspectItems items)
  | .object members => "Object " ++ inspectEntries (inspectMembers members)

/-- The items of an array as they are shown for inspection. -/
def inspectItems : List Value → List String
  | [] => []
  | item :: rest => inspect item :: inspectItems rest

/-- The members of an object, their values as they are shown for inspection. -/
def inspectMembers : List (String × Value) → List (String × String)
  | [] => []
  | (name, item) :: rest => (name, inspect item) :: inspectMembers rest

end

end Value

end Stencil
