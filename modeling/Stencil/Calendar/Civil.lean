/-!
# Civil dates

Days are counted from 1970-01-01. The civil date of a day follows the proleptic Gregorian calendar,
in which years repeat after 400 and each such period has 146097 days. Years are counted from March
here, so that the leap day is the last one of its year.
-/

namespace Stencil

/-- A date of the proleptic Gregorian calendar. -/
structure CivilDate where
  year : Int
  month : Nat
  day : Nat
deriving DecidableEq, Repr

namespace CivilDate

/-- Days from the first of March of year zero to the first of January 1970. -/
def epochShift : Int := 719468

/-- Days in 400 years. -/
def daysPerEra : Int := 146097

/-- The year inside a period of 400 years for a day inside it, counted from March. -/
def yearOfEra (dayOfEra : Nat) : Nat :=
  -- without the leap days that lie before it, a day is in a year of 365 days
  (dayOfEra - dayOfEra / 1460 + dayOfEra / 36524 - dayOfEra / 146096) / 365

/-- The first day of a year inside a period of 400 years. -/
def firstDayOfYear (yearOfEra : Nat) : Nat :=
  365 * yearOfEra + yearOfEra / 4 - yearOfEra / 100

/-- The date of a day. -/
def ofDay (day : Int) : CivilDate :=
  let shifted := day + epochShift
  let era := shifted / daysPerEra
  let dayOfEra := (shifted % daysPerEra).toNat
  let year := yearOfEra dayOfEra
  let dayOfYear := dayOfEra - firstDayOfYear year
  -- from March on, five months in a row have 153 days
  let monthFromMarch := (5 * dayOfYear + 2) / 153
  let month := if monthFromMarch < 10 then monthFromMarch + 3 else monthFromMarch - 9
  { year := era * 400 + year + if month ≤ 2 then 1 else 0
    month
    day := dayOfYear - (153 * monthFromMarch + 2) / 5 + 1 }

end CivilDate

end Stencil
