import Stencil.Double.Basic

/-!
# Rounding doubles to integers

Floor and ceiling are exact, because a double is a whole number of units. Only the addition of one
half is rounded.
-/

namespace Stencil.Double

/-- The largest integer that is not above the number. -/
def floor (x : Double) : Int :=
  x.signedUnits.fdiv unitsInOne

/-- The smallest integer that is not below the number. -/
def ceil (x : Double) : Int :=
  -((-x.signedUnits).fdiv unitsInOne)

/-- The number plus one half, rounded to the nearest double. -/
def addHalf (x : Double) : Double :=
  ofUnits (x.signedUnits + Nat.pow 2 1073)

/-- The number without its sign. -/
def abs (x : Double) : Double :=
  { x with negative := false }

/-- The number as an integer, if it has no fractional part. -/
def toInt? (x : Double) : Option Int :=
  if x.units % unitsInOne = 0 then some x.floor else none

end Stencil.Double
