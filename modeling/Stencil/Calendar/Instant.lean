import Stencil.Calendar.Civil

/-!
# Instants

An instant is a number of seconds since 1970-01-01T00:00:00 and a number of nanoseconds. A leap
second is the second number 59 of a minute with a thousand million nanoseconds or more. Instants
have dates from -262143-01-01 to +262142-12-31.
-/

namespace Stencil

/-- A point in time. -/
structure Instant where
  seconds : Int
  nanos : Nat
  seconds_ge : -8334601228800 ≤ seconds
  seconds_le : seconds ≤ 8210266876799
  nanos_lt : nanos < 2000000000
  leap : 1000000000 ≤ nanos → seconds % 60 = 59

namespace Instant

/-- The instant with the given seconds and nanoseconds, if there is one. -/
def ofParts? (seconds : Int) (nanos : Nat) : Option Instant :=
  if h : (-8334601228800 ≤ seconds ∧ seconds ≤ 8210266876799) ∧ nanos < 2000000000 ∧
      (1000000000 ≤ nanos → seconds % 60 = 59) then
    some ⟨seconds, nanos, h.1.1, h.1.2, h.2.1, h.2.2⟩
  else none

/-- Whether the instant is in a leap second. -/
def isLeap (i : Instant) : Bool :=
  1000000000 ≤ i.nanos

/-- The date. -/
def date (i : Instant) : CivilDate :=
  CivilDate.ofDay (i.seconds / 86400)

/-- The seconds since midnight. -/
def secondOfDay (i : Instant) : Nat :=
  (i.seconds % 86400).toNat

/-- The hour. -/
def hour (i : Instant) : Nat :=
  i.secondOfDay / 3600

/-- The minute. -/
def minute (i : Instant) : Nat :=
  i.secondOfDay / 60 % 60

/-- The second; a leap second counts as the second before it. -/
def second (i : Instant) : Nat :=
  i.secondOfDay % 60

/-- The second, with 60 for a leap second. -/
def secondWithLeap (i : Instant) : Nat :=
  i.second + if i.isLeap then 1 else 0

/-- The milliseconds inside the second. -/
def millis (i : Instant) : Nat :=
  i.nanos % 1000000000 / 1000000

/-- The milliseconds since 1970-01-01T00:00:00. A leap second adds its extra second. -/
def timestampMillis (i : Instant) : Int :=
  i.seconds * 1000 + i.nanos / 1000000

/-- The day of the week, counted from Sunday. -/
def weekday (i : Instant) : Nat :=
  ((i.seconds / 86400 + 4) % 7).toNat

/-- The instant some seconds later, or earlier, if there is one. From inside a leap second, later
ones are counted from the second before it and earlier ones from the second after it. -/
def shift? (i : Instant) (delta : Int) : Option Instant :=
  if delta = 0 then some i
  else if i.isLeap then
    if 0 < delta then ofParts? (i.seconds + delta) (i.nanos - 1000000000)
    else ofParts? (i.seconds + 1 + delta) (i.nanos - 1000000000)
  else ofParts? (i.seconds + delta) i.nanos

end Instant

end Stencil
