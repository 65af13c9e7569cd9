import Stencil.Double.Shortest
import Stencil.Value.Basic

/-!
# Writing values as JSON

`Value.compact` writes a value without blanks, `Value.pretty` with one line per item and two spaces
of indentation. Strings escape the quote, the backslash and the characters below U+0020, and nothing
else. `Value.plainText` is the form that a value takes inside a longer text.
-/

namespace Stencil

/-- Writes a hexadecimal digit in lower case. -/
def hexDigit (n : Nat) : Char :=
  if n < 10 then Char.ofNat ('0'.toNat + n) else Char.ofNat ('a'.toNat + (n - 10))

/-- A character as it stands in a JSON string. -/
def escapeChar (c : Char) : List Char :=
  if c = '"' then ['\\', '"']
  else if c = '\\' then ['\\', '\\']
  else if c = '\n' then ['\\', 'n']
  else if c = '\r' then ['\\', 'r']
  else if c = '\t' then ['\\', 't']
  else if c.toNat = 0x08 then ['\\', 'b']
  else if c.toNat = 0x0C then ['\\', 'f']
  else if c.toNat < 0x20 then
    ['\\', 'u', '0', '0', hexDigit (c.toNat / 16), hexDigit (c.toNat % 16)]
  else [c]

/-- A text as a JSON string. -/
def quoteText (text : String) : List Char :=
  '"' :: text.toList.flatMap escapeChar ++ ['"']

/-- The decimal digits of an integer, behind a minus if it is negative. -/
def integerText (n : Int) : List Char :=
  (if n < 0 then ['-'] else []) ++ Nat.toDigits 10 n.natAbs

/-- A number as JSON. -/
def Number.text : Number → List Char
  | .integer n _ => integerText n
  | .double x => x.text

namespace Value

/-- A boolean as JSON. -/
def boolText : Bool → List Char
  | true => ['t', 'r', 'u', 'e']
  | false => ['f', 'a', 'l', 's', 'e']

mutual

/-- The compact JSON text. -/
def compact : Value → List Char
  | .null => ['n', 'u', 'l', 'l']
  | .bool b => boolText b
  | .number n => n.text
  | .string text => quoteText text
  | .array [] => ['[', ']']
  | .array (item :: rest) => '[' :: compact item ++ compactItems rest
  | .object [] => ['{', '}']
  | .object ((name, item) :: rest) =>
    '{' :: quoteText name ++ ':' :: compact item ++ compactMembers rest

/-- Further items of an array, each behind a comma, and the closing bracket. -/
def compactItems : List Value → List Char
  | [] => [']']
  | item :: rest => ',' :: compact item ++ compactItems rest

/-- Further members of an object, each behind a comma, and the closing brace. -/
def compactMembers : List (String × Value) → List Char
  | [] => ['}']
  | (name, item) :: rest => ',' :: quoteText name ++ ':' :: compact item ++ compactMembers rest

end

/-- A new line at the given indentation level. -/
def newLine (level : Nat) : List Char :=
  '\n' :: List.replicate (2 * level) ' '

mutual

/-- The indented JSON text of a value that stands at the given level. Empty containers stay on one
line. -/
def prettyAt (level : Nat) : Value → List Char
  | .null => ['n', 'u', 'l', 'l']
  | .bool b => boolText b
  | .number n => n.text
  | .string text => quoteText text
  | .array [] => ['[', ']']
  | .array (item :: rest) =>
    '[' :: newLine (level + 1) ++ prettyAt (level + 1) item ++ prettyItems level rest
  | .object [] => ['{', '}']
  | .object ((name, item) :: rest) =>
    '{' :: newLine (level + 1) ++ quoteText name ++ ':' :: ' ' :: prettyAt (level + 1) item ++
      prettyMembers level rest

/-- Further items of an array at the given level, each behind a comma and on a new line, and the
closing bracket. -/
def prettyItems (level : Nat) : List Value → List Char
  | [] => newLine level ++ [']']
  | item :: rest =>
    ',' :: newLine (level + 1) ++ prettyAt (level + 1) item ++ prettyItems level rest

/-- Further members of an object at the given level, each behind a comma and on a new line, and the
closing brace. -/
def prettyMembers (level : Nat) : List (String × Value) → List Char
  | [] => newLine level ++ ['}']
  | (name, item) :: rest =>
    ',' :: newLine (level + 1) ++ quoteText name ++ ':' :: ' ' :: prettyAt (level + 1) item ++
      prettyMembers level rest

end

/-- The compact JSON text of a value. -/
def toJson (v : Value) : String :=
  String.ofList v.compact

/-- The indented JSON text of a value. -/
def toPrettyJson (v : Value) : String :=
  String.ofList (v.prettyAt 0)

/-- The text of a value inside a longer text: a string stands for itself, and every other value is
written as compact JSON. -/
def plainText : Value → String
  | .string text => text
  | v => v.toJson

end Value

end Stencil
