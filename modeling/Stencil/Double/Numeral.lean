import Stencil.Double.Basic
import Stencil.Word

/-!
# Decimal numerals

A numeral is what a number looks like in a text: a sign, digits, perhaps a point with more digits,
perhaps a power of ten. `Numeral.ofText?` reads one and `Numeral.toDouble?` gives the double
nearest to it; `Numeral.toDoubleQuick?` is the cheaper reading that takes at most 64 bits of
digits and rounds once for the digits and once for the power of ten.
-/

namespace Stencil

/-- A decimal numeral. An absent fraction has no point, and an absent power no exponent mark. -/
structure Numeral where
  negative : Bool
  whole : List Char
  fraction : Option (List Char)
  power : Option Int
deriving DecidableEq

namespace Numeral

/-- The digits `0` to `9`. -/
def isDigit (c : Char) : Bool :=
  '0' ≤ c && c ≤ '9'

/-- The number that a row of digits stands for. -/
def valueOfDigits (digits : List Char) : Nat :=
  digits.foldl (fun n c => 10 * n + (c.toNat - '0'.toNat)) 0

/-- Takes an optional sign off; the sign is true for minus. -/
def takeSign : List Char → Bool × List Char
  | '-' :: rest => (true, rest)
  | '+' :: rest => (false, rest)
  | cs => (false, cs)

/-- Reads the power of ten behind the digits, which must end the text. -/
def power? : List Char → Option (Option Int)
  | [] => some none
  | mark :: rest =>
    if mark = 'e' ∨ mark = 'E' then
      let (negative, digits) := takeSign rest
      if digits = [] ∨ ¬ digits.all isDigit then none
      else
        let n : Int := valueOfDigits digits
        some (some (if negative then -n else n))
    else none

/-- Reads a numeral: an optional sign, digits with an optional point among, before or behind them,
and an optional power of ten. There is at least one digit. -/
def ofText? (cs : List Char) : Option Numeral :=
  let (negative, unsigned) := takeSign cs
  let whole := unsigned.takeWhile isDigit
  let (fraction, rest) :=
    match unsigned.dropWhile isDigit with
    | '.' :: rest => (some (rest.takeWhile isDigit), rest.dropWhile isDigit)
    | rest => (none, rest)
  if whole = [] ∧ fraction.getD [] = [] then none
  else (power? rest).map fun power => { negative, whole, fraction, power }

/-- The integer that a numeral without point and power stands for. -/
def toInt? (n : Numeral) : Option Int :=
  match n.fraction, n.power with
  | none, none =>
    let magnitude : Int := valueOfDigits n.whole
    some (if n.negative then -magnitude else magnitude)
  | _, _ => none

/-- All digits as one number. -/
def coefficient (n : Numeral) : Nat :=
  valueOfDigits (n.whole ++ n.fraction.getD [])

/-- The power of ten that the coefficient is to be multiplied by. -/
def exponent (n : Numeral) : Int :=
  n.power.getD 0 - (n.fraction.getD []).length

/-- The rank of the double nearest to `coefficient * 10 ^ exponent`. -/
def decimalRank (coefficient : Nat) (exponent : Int) : Nat :=
  Double.nearestRank (coefficient * Nat.pow 10 exponent.toNat * Double.unitsInOne)
    (Nat.pow 10 (-exponent).toNat)

/-- The double nearest to the numeral, if that is finite. A numeral of at least `10 ^ 309` is larger
than every double, and one below `10 ^ -330` rounds to zero; neither is computed. -/
def toDouble? (n : Numeral) : Option Double :=
  let magnitude := (Nat.toDigits 10 n.coefficient).length + n.exponent
  if n.coefficient = 0 ∨ magnitude < -329 then Double.ofRank? n.negative 0
  else if 309 < magnitude then none
  else Double.ofRank? n.negative (decimalRank n.coefficient n.exponent)

/-! ## The quick reading -/

/-- The leading digits of the whole part that fit in 64 bits, and how many digits do not. -/
def leadingWhole (n : Nat) : List Char → Nat × Nat
  | [] => (n, 0)
  | c :: rest =>
    let next := 10 * n + (c.toNat - '0'.toNat)
    if IsWord next then leadingWhole next rest else (n, rest.length + 1)

/-- Appends the digits of the fraction as long as 64 bits hold them, and counts those appended. -/
def leadingFraction (n used : Nat) : List Char → Nat × Nat
  | [] => (n, used)
  | c :: rest =>
    let next := 10 * n + (c.toNat - '0'.toNat)
    if IsWord next then leadingFraction next (used + 1) rest else (n, used)

/-- The rank of the product of a magnitude with a power of ten, both rounded. -/
def scaleUpRank (rank power : Nat) : Nat :=
  Double.nearestRank
    (Double.unitsOfRank rank * Double.unitsOfRank (decimalRank 1 power)) Double.unitsInOne

/-- The rank of the quotient of a magnitude by a power of ten, both rounded. -/
def scaleDownRank (rank power : Nat) : Nat :=
  Double.nearestRank (Double.unitsOfRank rank * Double.unitsInOne)
    (Double.unitsOfRank (decimalRank 1 power))

/-- The largest power of ten below the largest double. -/
def largestPower : Nat := 308

/-- The quick reading of a numeral: its leading digits are rounded to a double, and that is
multiplied or divided once by a rounded power of ten, twice if the power is out of a double's range.
The result can be one rank away from the nearest double. -/
def toDoubleQuick? (n : Numeral) : Option Double :=
  let (whole, dropped) := leadingWhole 0 n.whole
  let (digits, used) := leadingFraction whole 0 (n.fraction.getD [])
  let exponent : Int := n.power.getD 0 + dropped - used
  let rank := decimalRank digits 0
  if digits = 0 then Double.ofRank? n.negative 0
  else if largestPower < exponent then none
  else if 0 ≤ exponent then Double.ofRank? n.negative (scaleUpRank rank exponent.toNat)
  else
    let power := (-exponent).toNat
    if power ≤ largestPower then Double.ofRank? n.negative (scaleDownRank rank power)
    else if power ≤ 2 * largestPower then
      Double.ofRank? n.negative
        (scaleDownRank (scaleDownRank rank largestPower) (power - largestPower))
    else Double.ofRank? n.negative 0

end Numeral

end Stencil
