import Stencil.Calendar.Format
import Stencil.Registry

/-!
# The namespace `date`

The present instant as text or number, by a pattern, and shifted by days, hours, minutes or seconds.
-/

namespace Stencil.Calendar

/-- The seconds in a unit of time, by its name in the singular or plural. -/
def unitSeconds? (unit : String) : Option Int :=
  if unit = "days" ∨ unit = "day" then some 86400
  else if unit = "hours" ∨ unit = "hour" then some 3600
  else if unit = "minutes" ∨ unit = "minute" then some 60
  else if unit = "seconds" ∨ unit = "second" then some 1
  else none

/-- The largest shift, in milliseconds. -/
def shiftLimit : Nat := 9223372036854775807

/-- An instant shifted by a number of units, unless the shift or the result is out of range. -/
def shiftBy? (now : Instant) (amount unit : Int) : Option Instant :=
  let delta := amount * unit
  if (delta * 1000).natAbs ≤ shiftLimit then now.shift? delta else none

/-- The text of an instant as a value. -/
def render (format : DateFormat) (i : Instant) : Eval Value :=
  match format.write? i with
  | some text => pure (.string text)
  | none => throw (.unwritableYear i.date.year)

/-- Evaluates `add(amount, unit)`. -/
def add (format : DateFormat) (now : Instant) (call : Call) : Eval Value := do
  Eval.ofExcept (call.expectArity 2)
  let amount ← Eval.ofExcept (call.integerAt 0)
  let unit ← Eval.ofExcept (call.textAt 1)
  match unitSeconds? unit with
  | none => Eval.ofExcept (call.error (.unknownUnit unit))
  | some seconds =>
    match shiftBy? now amount seconds with
    | none => Eval.ofExcept (call.error .offsetOutOfRange)
    | some shifted => render format shifted

/-- Evaluates a call of `date`. -/
def call (format : DateFormat) (now : Instant) (call : Call) : Eval Value :=
  match call.member with
  | "now" => do
    Eval.ofExcept call.expectNoArguments
    render format now
  | "timestamp" => do
    Eval.ofExcept call.expectNoArguments
    return Value.ofInt now.seconds
  | "timestampMs" => do
    Eval.ofExcept call.expectNoArguments
    return Value.ofInt now.timestampMillis
  | "format" => do
    Eval.ofExcept (call.expectArity 1)
    let pattern ← Eval.ofExcept (call.textAt 0)
    return .string (formatTokens now pattern)
  | "add" => add format now call
  | _ => Eval.ofExcept (Namespace.unknownMember call)

/-- The namespace `date` at an instant. -/
def functions (format : DateFormat) (now : Instant) : Namespace :=
  { name := "date", call := call format now }

end Stencil.Calendar
