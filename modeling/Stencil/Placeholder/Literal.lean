import Stencil.Text.Blank
import Stencil.Text.Cut
import Stencil.Value.Basic

/-!
# Literals

Arguments and defaults of placeholders are literals: quoted text, the words `true`, `false` and
`null`, numbers, or any other text, which stands for itself without the blanks around it.
-/

namespace Stencil.Literal

/-- The number that a text stands for: an integer if it has neither point nor power and fits in 64
bits with a sign, else the nearest double if that is finite. -/
def number? (cs : List Char) : Option Number :=
  (Numeral.ofText? cs).bind fun n =>
    match n.toInt? with
    | some k =>
      if h : IsSignedWord k then some (.integer k (IsSignedWord.isWordSized h))
      else n.toDouble?.map .double  -- an integer out of range is not refused
    | none => n.toDouble?.map .double

/-- The value of a literal without blanks around it. -/
def ofTrimmed (cs : List Char) : Value :=
  match Text.quoted? cs with
  | some inner => .string (String.ofList inner)
  | none =>
    if cs = ['t', 'r', 'u', 'e'] then .bool true
    else if cs = ['f', 'a', 'l', 's', 'e'] then .bool false
    else if cs = ['n', 'u', 'l', 'l'] then .null
    else match number? cs with
      | some n => .number n
      | none => .string (String.ofList cs)

/-- The value of a literal. -/
def ofChars (cs : List Char) : Value :=
  ofTrimmed (Text.trim cs)

/-- The value of a literal. -/
def parse (text : String) : Value :=
  ofChars text.toList

end Stencil.Literal
