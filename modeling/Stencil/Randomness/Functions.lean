import Stencil.Arithmetic

/-!
# The namespace `random`

Unique identifiers, texts over a given alphabet, integers, booleans, and a choice among arguments.
-/

namespace Stencil.Randomness

/-- The longest random text. -/
def lengthLimit : Nat := 1048576

/-- A random boolean as a value. -/
def booleanValue (e : Entropy) : Value × Entropy :=
  let (b, e) := e.coin
  (.bool b, e)

/-- A random text as a value. -/
def textValue (alphabet : String) (h : alphabet ≠ "") (length : Nat) (e : Entropy) :
    Value × Entropy :=
  let (text, e) := e.text alphabet h length
  (.string text, e)

/-- A random unique identifier as a value. -/
def identifierValue (e : Entropy) : Value × Entropy :=
  let (text, e) := e.identifier
  (.string text, e)

/-- Evaluates `string(length)`. -/
def text (alphabet : String) (call : Call) : Eval Value := do
  Eval.ofExcept (call.expectArity 1)
  let length ← Eval.ofExcept (call.integerAt 0)
  if length < 0 ∨ lengthLimit < length then
    Eval.ofExcept (call.error (.lengthOutOfRange lengthLimit length))
  else if h : alphabet = "" then Eval.ofExcept (call.error .emptyCharset)
  else Eval.random (textValue alphabet h length.toNat)

/-- Evaluates `pick(a, ...)`. -/
def pick (call : Call) : Eval Value :=
  match call.arguments with
  | [] => Eval.ofExcept (call.error .nothingToPick)
  | first :: rest => Eval.random (Entropy.choose first rest)

/-- Evaluates a call of `random`. -/
def call (alphabet : String) (call : Call) : Eval Value :=
  match call.member with
  | "uuid" => do
    Eval.ofExcept call.expectNoArguments
    Eval.random identifierValue
  | "string" => text alphabet call
  | "number" => do
    Eval.ofExcept (call.expectArity 2)
    let min ← Eval.ofExcept (call.integerAt 0)
    let max ← Eval.ofExcept (call.integerAt 1)
    Arithmetic.randomBetween call min max
  | "boolean" => do
    Eval.ofExcept call.expectNoArguments
    Eval.random booleanValue
  | "pick" => pick call
  | _ => Eval.ofExcept (Namespace.unknownMember call)

/-- The namespace `random` over an alphabet. -/
def functions (alphabet : String) : Namespace :=
  { name := "random", call := call alphabet }

end Stencil.Randomness
