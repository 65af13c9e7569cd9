import Stencil.Double.Numeral

/-!
# The shortest decimal text of a double

Of all decimals that read back as a double, the text uses one with the fewest digits, and of those
the nearest. For each number of digits only the two neighbours of the exact value on that decimal
grid can be it. A text that no grid gives is the exact decimal expansion, so every text reads back.
-/

namespace Stencil.Double

/-- Digits without a zero at the end, and the power of ten of the first one. -/
structure Decimal where
  digits : List Char
  exponent : Int
deriving DecidableEq

/-- The digits of `coefficient * 10 ^ exponent`, which is not zero. -/
def Decimal.ofScaled (coefficient : Nat) (exponent : Int) : Decimal :=
  let digits := Nat.toDigits 10 coefficient
  { digits := (digits.reverse.dropWhile (· == '0')).reverse
    exponent := exponent + digits.length - 1 }

/-- The power of ten of the first digit of a positive number of units. A number `v` below one has as
many zeros before that digit, the one in front of the point included, as the largest integer below
`1 / v` has digits. -/
def leadingExponent (units : Nat) : Int :=
  if unitsInOne ≤ units then (Nat.toDigits 10 (units / unitsInOne)).length - 1
  else -(Nat.toDigits 10 ((unitsInOne - 1) / units)).length

/-- The nearest decimal with the given number of digits, the first of them at the power of ten
`leading`, that reads back as the given rank. The two neighbours of the value are tried; of two that
are equally near the even one is taken. -/
def decimalOfLength? (rank : Nat) (leading : Int) (length : Nat) : Option Decimal :=
  let units := unitsOfRank rank
  let exponent := leading - length + 1
  let n := units * Nat.pow 10 (-exponent).toNat
  let d := unitsInOne * Nat.pow 10 exponent.toNat
  let lower := n / d
  let excess := n % d
  let prefersLower := 2 * excess < d || (2 * excess == d && lower % 2 == 0)
  let readsBack (coefficient : Nat) : Bool := Numeral.decimalRank coefficient exponent == rank
  let nearer := if prefersLower then lower else lower + 1
  let farther := if prefersLower then lower + 1 else lower
  if readsBack nearer then some (Decimal.ofScaled nearer exponent)
  else if readsBack farther then some (Decimal.ofScaled farther exponent)
  else none

/-- All digits of the value with the given rank. -/
def exactDecimal (rank : Nat) : Decimal :=
  Decimal.ofScaled (unitsOfRank rank * Nat.pow 5 1074) (-1074)

/-- The shortest decimal that reads back as the given rank, which is not zero. -/
def shortestDecimal (rank : Nat) : Decimal :=
  let leading := leadingExponent (unitsOfRank rank)
  ((List.range 17).findSome? fun n => decimalOfLength? rank leading (n + 1)).getD
    (exactDecimal rank)

/-- The decimal exponents from `-5` to `15` are written with a point alone, and the others with a
power of ten. -/
def isPlainExponent (exponent : Int) : Bool :=
  -5 ≤ exponent && exponent < 16

/-- The text of a decimal. A whole number keeps `.0` unless it has a power of ten. -/
def Decimal.text (x : Decimal) : List Char :=
  if isPlainExponent x.exponent then
    if 0 ≤ x.exponent then
      let width := x.exponent.toNat + 1
      let whole := x.digits.take width
      let fraction := x.digits.drop width
      whole ++ List.replicate (width - whole.length) '0' ++ '.' ::
        (if fraction = [] then ['0'] else fraction)
    else '0' :: '.' :: List.replicate ((-x.exponent).toNat - 1) '0' ++ x.digits
  else
    let fraction := x.digits.drop 1
    x.digits.take 1 ++ (if fraction = [] then [] else '.' :: fraction) ++ 'e' ::
      (if x.exponent < 0 then '-' else '+') :: Nat.toDigits 10 x.exponent.natAbs

/-- The shortest text that reads back as the number. -/
def text (x : Double) : List Char :=
  (if x.negative then ['-'] else []) ++
    if x.rank = 0 then ['0', '.', '0'] else (shortestDecimal x.rank).text

end Stencil.Double
