import Stencil.Registry

/-!
# The namespace `math`

Rounding functions take one number. An integer stays exact; a double is rounded as a double, and a
result without fractional part is an integer if every integer up to it is a double too. Halves are
rounded up.
-/

namespace Stencil.Arithmetic

/-- The largest integer up to which every integer is a double. -/
def largestExactInteger : Nat := 9007199254740991

/-- The value of a double result. -/
def ofResult (x : Double) : Value :=
  match x.toInt? with
  | some k => if k.natAbs ≤ largestExactInteger then Value.ofInt k else Value.ofDouble x
  | none => Value.ofDouble x

/-- The functions of one number. -/
inductive Unary where
  | round
  | floor
  | ceil
  | abs
deriving DecidableEq, Repr

namespace Unary

/-- The function on doubles. -/
def onDouble : Unary → Double → Double
  | .round, x => Double.ofInt x.addHalf.floor
  | .floor, x => Double.ofInt x.floor
  | .ceil, x => Double.ofInt x.ceil
  | .abs, x => x.abs

/-- The function on integers. -/
def onInteger : Unary → Int → Int
  | .abs, k => k.natAbs
  | _, k => k

/-- Applies the function to the only argument of a call. -/
def apply (f : Unary) (call : Call) : Except ResolveError Value :=
  match call.arguments with
  | [v] =>
    match v.number?.bind Number.toInt64? with
    | some k => .ok (Value.ofInt (f.onInteger k))
    | none => (call.doubleAt 0).map fun x => ofResult (f.onDouble x)
  | _ => call.error (.wrongArity 1 call.arity)

end Unary

/-- A random integer from `min` to `max`. -/
def randomBetween (call : Call) (min max : Int) : Eval Value :=
  if h : min ≤ max then
    Eval.random fun e =>
      let (k, e) := e.between min max h
      (Value.ofInt k, e)
  else Eval.ofExcept (call.error (.emptyRange min max))

/-- A random double from zero up to one, with 53 bits. -/
def randomFraction : Eval Value :=
  Eval.random fun e =>
    let (k, e) := e.below (largestExactInteger + 1) (Nat.succ_pos largestExactInteger)
    (ofResult (Double.ofUnits (k * Nat.pow 2 1021)), e)

/-- Evaluates `random()` and `random(min, max)`. -/
def random (call : Call) : Eval Value :=
  if call.arity = 0 then randomFraction
  else if call.arity = 2 then do
    let min ← Eval.ofExcept (call.integerAt 0)
    let max ← Eval.ofExcept (call.integerAt 1)
    randomBetween call min max
  else Eval.ofExcept (call.error (.wrongRangeArity call.arity))

/-- Evaluates a call of `math`. -/
def call (call : Call) : Eval Value :=
  match call.member with
  | "random" => random call
  | "round" => Eval.ofExcept (Unary.apply .round call)
  | "floor" => Eval.ofExcept (Unary.apply .floor call)
  | "ceil" => Eval.ofExcept (Unary.apply .ceil call)
  | "abs" => Eval.ofExcept (Unary.apply .abs call)
  | _ => Eval.ofExcept (Namespace.unknownMember call)

/-- The namespace `math`. -/
def functions : Namespace :=
  { name := "math", call }

end Stencil.Arithmetic
