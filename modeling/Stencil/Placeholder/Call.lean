import Stencil.Failure
import Stencil.Value.Basic

/-!
# Function calls

A call names a function namespace and a member of it, and has arguments if it was written with
parentheses. The accessors read one argument as a number, an integer or a text; a failure quotes the
call as it was written.
-/

namespace Stencil

/-- A call `$ns.member(args)`. Arguments are absent if there are no parentheses. -/
structure Call where
  ns : String
  member : String
  args : Option (List Value)
  source : String

namespace Call

/-- The arguments; a call without parentheses has none. -/
def arguments (call : Call) : List Value :=
  call.args.getD []

/-- How many arguments there are. -/
def arity (call : Call) : Nat :=
  call.arguments.length

/-- The failure of a call. -/
def error {α : Type} (call : Call) (fault : CallFault) : Except ResolveError α :=
  .error (.invalidFunctionCall call.source fault)

/-- Fails unless there are exactly as many arguments as expected. -/
def expectArity (call : Call) (expected : Nat) : Except ResolveError Unit :=
  if call.arity = expected then .ok () else call.error (.wrongArity expected call.arity)

/-- Fails if there are arguments. -/
def expectNoArguments (call : Call) : Except ResolveError Unit :=
  if call.arity = 0 then .ok () else call.error (.takesNoArguments call.member)

/-- The argument with the given index as a double. -/
def doubleAt (call : Call) (index : Nat) : Except ResolveError Double :=
  match call.arguments[index]?.bind Value.number? with
  | some n => .ok n.toDouble
  | none => call.error (.notANumber (index + 1))

/-- A number as an integer: one of 64 bits with a sign, or a double without fractional part whose
magnitude is below that of the smallest such integer. -/
def wholeNumber? (n : Number) : Option Int :=
  match n.toInt64? with
  | some k => some k
  | none => n.toDouble.toInt?.filter fun k => k.natAbs < 9223372036854775808

/-- The argument with the given index as an integer. -/
def integerAt (call : Call) (index : Nat) : Except ResolveError Int :=
  match (call.arguments[index]?.bind Value.number?).bind wholeNumber? with
  | some k => .ok k
  | none => call.error (.notAnInteger (index + 1))

/-- The argument with the given index as a text. -/
def textAt (call : Call) (index : Nat) : Except ResolveError String :=
  match call.arguments[index]?.bind Value.string? with
  | some text => .ok text
  | none => call.error (.notAString (index + 1))

end Call

end Stencil
