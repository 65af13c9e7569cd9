import Stencil.Double.Rounding
import Stencil.Double.Numeral
import Stencil.Value.Entries
import Stencil.Word

/-!
# Values

Templates, variables, response bodies and results are values: null, booleans, numbers, strings,
arrays and objects whose members keep their order. A number is an integer of at most 64 bits,
signed or unsigned, or a finite double; `1` and `1.0` are different numbers.
-/

namespace Stencil

/-- A number: an integer that fits in 64 bits with or without a sign, or a finite double. -/
inductive Number where
  | integer (value : Int) (inRange : IsWordSized value)
  | double (value : Double)
deriving DecidableEq

namespace Number

/-- The number for an integer, or the nearest double if 64 bits do not hold it. -/
def ofInt (n : Int) : Number :=
  if h : IsWordSized n then .integer n h else .double (Double.ofInt n)

/-- An integer that 64 bits hold is not rounded. -/
theorem ofInt_of_isWordSized {n : Int} (h : IsWordSized n) : ofInt n = .integer n h :=
  dif_pos h

/-- The integer that a number holds, if it is within the signed 64-bit range. -/
def toInt64? : Number → Option Int
  | .integer n _ => if IsSignedWord n then some n else none
  | .double _ => none

/-- The nearest double. -/
def toDouble : Number → Double
  | .integer n _ => Double.ofInt n
  | .double x => x

end Number

/-- A value of a template, a variable or a result. -/
inductive Value where
  | null
  | bool (b : Bool)
  | number (n : Number)
  | string (text : String)
  | array (items : List Value)
  | object (members : List (String × Value))

namespace Value

/-- The value of an integer. -/
def ofInt (n : Int) : Value :=
  .number (.ofInt n)

/-- The value of a double. -/
def ofDouble (x : Double) : Value :=
  .number (.double x)

/-- The number of a numeric value. -/
def number? : Value → Option Number
  | .number n => some n
  | _ => none

/-- The text of a string. -/
def string? : Value → Option String
  | .string s => some s
  | _ => none

/-- The member of an object with the given name. -/
def member? (name : String) : Value → Option Value
  | .object members => Entries.get? name members
  | _ => none

end Value

end Stencil
