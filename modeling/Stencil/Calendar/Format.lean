import Stencil.Calendar.Instant
import Stencil.Settings
import Stencil.Text.Cut

/-!
# Dates as text

An instant is written in one of three fixed formats (`DateFormat.write?`) or by a pattern whose
tokens `YYYY`, `MM`, `DD`, `HH`, `mm` and `ss` are replaced (`formatTokens`).
-/

namespace Stencil

/-- The decimal digits of a number, with zeros in front up to the given width. -/
def paddedDigits (width n : Nat) : List Char :=
  let digits := Nat.toDigits 10 n
  List.replicate (width - digits.length) '0' ++ digits

/-- An integer with at least the given width, in which the minus counts. -/
def paddedInteger (width : Nat) (n : Int) : List Char :=
  if n < 0 then '-' :: paddedDigits (width - 1) n.natAbs else paddedDigits width n.natAbs

/-- A year with four digits; years outside of these have a sign, and at least four digits. -/
def isoYear (year : Int) : List Char :=
  if 0 ≤ year ∧ year ≤ 9999 then paddedDigits 4 year.natAbs
  else (if year < 0 then '-' else '+') :: paddedDigits 4 year.natAbs

/-- The names of the days of a week, from Sunday. -/
def weekdayNames : List String :=
  ["Sun", "Mon", "Tue", "Wed", "Thu", "Fri", "Sat"]

/-- The names of the months. -/
def monthNames : List String :=
  ["Jan", "Feb", "Mar", "Apr", "May", "Jun", "Jul", "Aug", "Sep", "Oct", "Nov", "Dec"]

namespace Instant

/-- Hours, minutes and seconds with colons between them. A leap second is the second 60. -/
def clockText (i : Instant) : List Char :=
  paddedDigits 2 i.hour ++ ':' :: paddedDigits 2 i.minute ++ ':' :: paddedDigits 2 i.secondWithLeap

/-- The text `2024-01-31T12:00:00.000Z`. -/
def isoText (i : Instant) : String :=
  String.ofList
    (isoYear i.date.year ++ '-' :: paddedDigits 2 i.date.month ++
      '-' :: paddedDigits 2 i.date.day ++ 'T' :: i.clockText ++
      '.' :: paddedDigits 3 i.millis ++ ['Z'])

/-- The text `Wed, 31 Jan 2024 12:00:00 +0000`, which only years of four digits have. -/
def mailText? (i : Instant) : Option String :=
  if 0 ≤ i.date.year ∧ i.date.year ≤ 9999 then
    some <|
      weekdayNames[i.weekday]?.getD "" ++ ", " ++ i.date.day.repr ++ " " ++
        monthNames[i.date.month - 1]?.getD "" ++ " " ++
        String.ofList (paddedDigits 4 i.date.year.natAbs ++ ' ' :: i.clockText) ++ " +0000"
  else none

end Instant

/-- The text of an instant in a format, if the format has one for its year. -/
def DateFormat.write? (format : DateFormat) (i : Instant) : Option String :=
  match format with
  | .iso8601 => some i.isoText
  | .rfc2822 => i.mailText?
  | .timestamp => some i.seconds.repr

/-- The tokens of patterns with their texts, in the order in which they are replaced. -/
def patternTokens (i : Instant) : List (List Char × List Char) :=
  [ (['Y', 'Y', 'Y', 'Y'], paddedInteger 4 i.date.year),
    (['M', 'M'], paddedDigits 2 i.date.month),
    (['D', 'D'], paddedDigits 2 i.date.day),
    (['H', 'H'], paddedDigits 2 i.hour),
    (['m', 'm'], paddedDigits 2 i.minute),
    (['s', 's'], paddedDigits 2 i.second) ]

/-- Replaces the tokens of a pattern, one after the other. -/
def formatTokens (i : Instant) (pattern : String) : String :=
  String.ofList <|
    (patternTokens i).foldl (fun text (token, field) => Text.replaceAll token field text)
      pattern.toList

end Stencil
