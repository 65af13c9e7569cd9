import Mathlib.Algebra.Order.Group.Int
import Mathlib.Tactic.IntervalCases
import Stencil.Calendar.Civil

/-!
# The calendar

The date of the day that follows another one is the next date of the Gregorian calendar
(`ofDay_add_one`), and every date that is computed is one of the calendar (`isDate_ofDay`). So later
days have later dates (`before_ofDay`).
-/

namespace Stencil.CivilDate

/-! ## The rules of the calendar -/

/-- Every fourth year is a leap year, and of the years that end a century every fourth one. -/
abbrev IsLeapYear (year : Int) : Prop :=
  year % 4 = 0 ∧ (year % 100 ≠ 0 ∨ year % 400 = 0)

/-- The number of days in a month. -/
def monthLength (year : Int) (month : Nat) : Nat :=
  if month = 2 then if IsLeapYear year then 29 else 28
  else if month = 4 ∨ month = 6 ∨ month = 9 ∨ month = 11 then 30
  else 31

/-- A date that the calendar has. -/
structure IsDate (date : CivilDate) : Prop where
  month_pos : 1 ≤ date.month
  month_le : date.month ≤ 12
  day_pos : 1 ≤ date.day
  day_le : date.day ≤ monthLength date.year date.month

/-- The date of the following day. -/
def next (date : CivilDate) : CivilDate :=
  if date.day < monthLength date.year date.month then { date with day := date.day + 1 }
  else if date.month < 12 then { date with month := date.month + 1, day := 1 }
  else { year := date.year + 1, month := 1, day := 1 }

/-- An earlier date. -/
def Before (a b : CivilDate) : Prop :=
  a.year < b.year ∨
    a.year = b.year ∧ (a.month < b.month ∨ a.month = b.month ∧ a.day < b.day)

theorem monthLength_bounds (year : Int) (month : Nat) :
    28 ≤ monthLength year month ∧ monthLength year month ≤ 31 := by
  unfold monthLength
  split
  · split <;> decide
  · split <;> decide

theorem Before.trans {a b c : CivilDate} (hab : a.Before b) (hbc : b.Before c) : a.Before c := by
  unfold Before at *
  omega

theorem before_next (date : CivilDate) : date.Before date.next := by
  unfold Before next
  split
  · exact .inr ⟨rfl, .inr ⟨rfl, Nat.lt_succ_self _⟩⟩
  · split
    · exact .inr ⟨rfl, .inl (Nat.lt_succ_self _)⟩
    · exact .inl (Int.lt_succ _)

/-! ## Months from March -/

/-- The month with a number that is counted from March, zero for March itself. -/
def monthFromMarch (m : Nat) : Nat :=
  if m < 10 then m + 3 else m - 9

/-- A date in the year that starts in March; January and February belong to the next year. -/
def ofMonth (year : Int) (m day : Nat) : CivilDate :=
  { year := year + if monthFromMarch m ≤ 2 then 1 else 0, month := monthFromMarch m, day }

/-- The number of days in a month of the year that starts in March. -/
def lengthOfMonth (year : Int) (m : Nat) : Nat :=
  monthLength (year + if monthFromMarch m ≤ 2 then 1 else 0) (monthFromMarch m)

/-- The number of days before a month in the year that starts in March. -/
def daysBefore (m : Nat) : Nat :=
  (153 * m + 2) / 5

/-- The number of days in the year that starts in March; its leap day is the last one. -/
def marchLength (year : Int) : Nat :=
  if IsLeapYear (year + 1) then 366 else 365

variable {year : Int} {m day dayOfYear : Nat}

/-- The months before February have the same lengths in all years. -/
theorem daysBefore_add_one (hm : m ≤ 10) (year : Int) :
    daysBefore (m + 1) = daysBefore m + lengthOfMonth year m := by
  interval_cases m <;> rfl

/-- February is the rest of the year. -/
theorem daysBefore_february (year : Int) :
    marchLength year = daysBefore 11 + lengthOfMonth year 11 := by
  have hlength : lengthOfMonth year 11 = if IsLeapYear (year + 1) then 29 else 28 := rfl
  rw [hlength, marchLength]
  split <;> rfl

theorem lengthOfMonth_pos (year : Int) (m : Nat) : 0 < lengthOfMonth year m := by
  have hbounds : 28 ≤ lengthOfMonth year m := (monthLength_bounds _ _).1
  omega

theorem next_ofMonth_of_lt (h : day < lengthOfMonth year m) :
    (ofMonth year m day).next = ofMonth year m (day + 1) :=
  if_pos h

/-- The last day of a month before February is followed by the first one of the next month. -/
theorem next_ofMonth_lengthOfMonth (hm : m ≤ 10) (year : Int) :
    (ofMonth year m (lengthOfMonth year m)).next = ofMonth year (m + 1) 1 := by
  have hlast : ¬ lengthOfMonth year m < lengthOfMonth year m := Nat.lt_irrefl _
  refine (if_neg hlast).trans ?_
  interval_cases m
  case «9» => simp [ofMonth, monthFromMarch]
  all_goals rfl

/-- The last day of February is followed by the first one of March. -/
theorem next_ofMonth_february (year : Int) :
    (ofMonth year 11 (lengthOfMonth year 11)).next = ofMonth (year + 1) 0 1 := by
  have hlast : ¬ lengthOfMonth year 11 < lengthOfMonth year 11 := Nat.lt_irrefl _
  refine (if_neg hlast).trans ?_
  simp [ofMonth, monthFromMarch]

theorem isDate_ofMonth (hm : m ≤ 11) (hday : 1 ≤ day) (h : day ≤ lengthOfMonth year m) :
    (ofMonth year m day).IsDate where
  month_pos := by
    dsimp only [ofMonth, monthFromMarch]
    split <;> omega
  month_le := by
    dsimp only [ofMonth, monthFromMarch]
    split <;> omega
  day_pos := hday
  day_le := h

/-! ## Days of the year from March -/

/-- The date of a day in the year that starts in March. -/
def ofMarch (year : Int) (dayOfYear : Nat) : CivilDate :=
  ofMonth year ((5 * dayOfYear + 2) / 153)
    (dayOfYear - daysBefore ((5 * dayOfYear + 2) / 153) + 1)

/-- From March on, five months in a row have 153 days. -/
theorem monthOfDay_eq_iff : (5 * dayOfYear + 2) / 153 = m ↔
    daysBefore m ≤ dayOfYear ∧ dayOfYear < daysBefore (m + 1) := by
  unfold daysBefore
  omega

/-- A day of the year is in one of twelve months. -/
theorem exists_ofMonth (h : dayOfYear < marchLength year) :
    ∃ m day, m ≤ 11 ∧ day < lengthOfMonth year m ∧ dayOfYear = daysBefore m + day := by
  obtain ⟨hfirst, hlast⟩ := monthOfDay_eq_iff.1 (Eq.refl ((5 * dayOfYear + 2) / 153))
  have hm : (5 * dayOfYear + 2) / 153 ≤ 11 := by
    unfold marchLength at h
    split at h <;> omega
  refine ⟨(5 * dayOfYear + 2) / 153, dayOfYear - daysBefore ((5 * dayOfYear + 2) / 153), hm, ?_,
    by omega⟩
  rcases Nat.lt_or_eq_of_le hm with hlt | heq
  · have hlength := daysBefore_add_one (Nat.le_of_lt_succ hlt) year
    omega
  · rw [heq]
    have hlength := daysBefore_february year
    rw [heq] at hfirst
    omega

/-- A month ends inside the year, at its end or where the next month starts. -/
theorem daysBefore_add_lengthOfMonth_le (hm : m ≤ 11) (year : Int) :
    daysBefore m + lengthOfMonth year m ≤ marchLength year := by
  have hfebruary := daysBefore_february year
  rcases Nat.lt_or_eq_of_le hm with hlt | rfl
  · have hlength := daysBefore_add_one (Nat.le_of_lt_succ hlt) year
    have hnext : daysBefore (m + 1) ≤ daysBefore 11 := by
      unfold daysBefore
      omega
    omega
  · exact Nat.le_of_eq hfebruary.symm

theorem ofMarch_daysBefore_add (hm : m ≤ 11) (hday : day < lengthOfMonth year m) :
    ofMarch year (daysBefore m + day) = ofMonth year m (day + 1) := by
  have hlast : daysBefore m + day < daysBefore (m + 1) := by
    rcases Nat.lt_or_eq_of_le hm with hlt | rfl
    · have hlength := daysBefore_add_one (Nat.le_of_lt_succ hlt) year
      omega
    · -- the formula would give February thirty days
      have hyear := daysBefore_add_lengthOfMonth_le (Nat.le_refl 11) year
      have hend : daysBefore (11 + 1) = 367 := rfl
      unfold marchLength at hyear
      split at hyear <;> omega
  rw [ofMarch, monthOfDay_eq_iff.2 ⟨Nat.le_add_right _ _, hlast⟩, Nat.add_sub_cancel_left]

theorem ofMarch_daysBefore (hm : m ≤ 11) (year : Int) :
    ofMarch year (daysBefore m) = ofMonth year m 1 :=
  ofMarch_daysBefore_add hm (lengthOfMonth_pos year m)

theorem isDate_ofMarch (h : dayOfYear < marchLength year) : (ofMarch year dayOfYear).IsDate := by
  obtain ⟨m, day, hm, hday, rfl⟩ := exists_ofMonth h
  rw [ofMarch_daysBefore_add hm hday]
  exact isDate_ofMonth hm (Nat.le_add_left 1 day) hday

/-- The next date is that of the next day, or of the first day of the next year. -/
theorem next_ofMarch (h : dayOfYear < marchLength year) :
    (ofMarch year dayOfYear).next =
      if dayOfYear + 1 < marchLength year then ofMarch year (dayOfYear + 1)
      else ofMarch (year + 1) 0 := by
  obtain ⟨m, day, hm, hday, rfl⟩ := exists_ofMonth h
  rw [ofMarch_daysBefore_add hm hday, Nat.add_assoc]
  have hend : day + 1 < lengthOfMonth year m ∨ day + 1 = lengthOfMonth year m := by omega
  rcases hend with hinside | hlast
  · have hend := daysBefore_add_lengthOfMonth_le hm year
    rw [if_pos (by omega), ofMarch_daysBefore_add hm hinside, next_ofMonth_of_lt hinside]
  · have hfebruary := daysBefore_february year
    rcases Nat.lt_or_eq_of_le hm with hlt | rfl
    · have hlength := daysBefore_add_one (Nat.le_of_lt_succ hlt) year
      have hend : daysBefore (m + 1) + lengthOfMonth year (m + 1) ≤ marchLength year :=
        daysBefore_add_lengthOfMonth_le hlt year
      have hnext := lengthOfMonth_pos year (m + 1)
      rw [hlast, next_ofMonth_lengthOfMonth (Nat.le_of_lt_succ hlt), ← hlength,
        if_pos (by omega), ofMarch_daysBefore hlt]
    · have hmarch := ofMarch_daysBefore (Nat.zero_le 11) (year + 1)
      rw [hlast, next_ofMonth_february, ← hfebruary, if_neg (Nat.lt_irrefl _), ← hmarch]
      rfl

/-! ## Days since the first of March of year zero -/

/-- The number of days before the year that starts in March, from that of year zero on. -/
def firstMarch (year : Int) : Int :=
  365 * year + year / 4 - year / 100 + year / 400

theorem firstMarch_add_one (year : Int) :
    firstMarch (year + 1) = firstMarch year + marchLength year := by
  unfold firstMarch marchLength
  split <;> omega

theorem firstMarch_le {y z : Int} (h : y ≤ z) : firstMarch y ≤ firstMarch z := by
  unfold firstMarch
  omega

/-- A day is in one year only, and has one place in it. -/
theorem firstMarch_add_inj {y z : Int} {d e : Nat} (hd : d < marchLength y) (he : e < marchLength z)
    (h : firstMarch y + d = firstMarch z + e) : y = z ∧ d = e := by
  have hy := firstMarch_add_one y
  have hz := firstMarch_add_one z
  rcases Int.lt_trichotomy y z with hlt | rfl | hgt
  · have hle := firstMarch_le (Int.add_one_le_of_lt hlt)
    omega
  · exact ⟨rfl, by omega⟩
  · have hle := firstMarch_le (Int.add_one_le_of_lt hgt)
    omega

/-! ## Periods of 400 years -/

/-- A day of a period of 400 years lies in one of its centuries, in one of the rows of four years
of the century, in one of these years. -/
structure DayOfEra (n century row year day : Nat) : Prop where
  eq : n = 36524 * century + 1461 * row + 365 * year + day
  century_le : century ≤ 3
  row_le : row ≤ 24
  year_le : year ≤ 3
  day_le : day ≤ 365
  leap : day = 365 → year = 3 ∧ (row = 24 → century = 3)

theorem exists_dayOfEra {n : Nat} (h : n < 146097) :
    ∃ century row year day, DayOfEra n century row year day := by
  obtain ⟨century, hcentury⟩ : ∃ c, c = min (n / 36524) 3 := ⟨_, rfl⟩
  obtain ⟨row, hrow⟩ : ∃ q, q = (n - 36524 * century) / 1461 := ⟨_, rfl⟩
  obtain ⟨year, hyear⟩ : ∃ r, r = min ((n - 36524 * century - 1461 * row) / 365) 3 := ⟨_, rfl⟩
  exact ⟨century, row, year, n - 36524 * century - 1461 * row - 365 * year, by omega, by omega,
    by omega, by omega, by omega, by omega⟩

/-- Counting a leap day for each 1460 days before a day counts one too many if the day is late
enough in its year. -/
def correction (century row year day : Nat) : Nat :=
  (24 * century + row + 365 * year + day) / 1460

namespace DayOfEra

variable {n century row year day : Nat}

theorem correction_bounds (h : DayOfEra n century row year day) :
    correction century row year day ≤ day ∧ day < 365 + correction century row year day := by
  obtain ⟨-, hcentury, hrow, hyear, hday, hleap⟩ := h
  have hcases : correction century row year day = 0 ∧ 24 * century + row + 365 * year + day < 1460 ∨
      correction century row year day = 1 ∧ 1460 ≤ 24 * century + row + 365 * year + day := by
    unfold correction
    omega
  rcases hcases with ⟨hzero, hlt⟩ | ⟨hone, hge⟩
  · rw [hzero]
    omega
  · rw [hone]
    omega

/-- The rows of four years that are over. -/
theorem div_row_eq (h : DayOfEra n century row year day) :
    n / 1460 = 25 * century + row + correction century row year day := by
  have hsplit : n = 24 * century + row + 365 * year + day + 1460 * (25 * century + row) := by
    have hn := h.eq
    omega
  rw [hsplit, Nat.add_mul_div_left _ _ (by decide), Nat.add_comm, correction]

/-- The centuries that are over; the last day of the period would count as one more. -/
theorem div_century_eq (h : DayOfEra n century row year day) :
    n / 36524 = century + n / 146096 := by
  obtain ⟨hn, hcentury, hrow, hyear, hday, hleap⟩ := h
  obtain ⟨rest, hrest⟩ : ∃ rest, rest = 1461 * row + 365 * year + day := ⟨_, rfl⟩
  have hsplit : n = rest + 36524 * century := by omega
  have hlast : rest < 36524 ∨ rest = 36524 ∧ century = 3 := by omega
  rcases hlast with hlt | ⟨rfl, rfl⟩
  · have hinside : n / 146096 = 0 := Nat.div_eq_of_lt (by omega)
    rw [hinside, hsplit, Nat.add_mul_div_left _ _ (by decide), Nat.div_eq_of_lt hlt, Nat.zero_add,
      Nat.add_zero]
  · rw [hsplit]

/-- The year inside the period is computed from the day. -/
theorem yearOfEra_eq (h : DayOfEra n century row year day) :
    yearOfEra n = 100 * century + 4 * row + year := by
  have hn := h.eq
  obtain ⟨hlow, hhigh⟩ := h.correction_bounds
  have hdays : n - n / 1460 + n / 36524 - n / 146096 =
      (day - correction century row year day) + 365 * (100 * century + 4 * row + year) := by
    rw [h.div_century_eq, h.div_row_eq]
    generalize n / 146096 = last
    omega
  have hrest : day - correction century row year day < 365 := by
    clear hdays
    omega
  rw [yearOfEra, hdays, Nat.add_mul_div_left _ _ (by decide), Nat.div_eq_of_lt hrest, Nat.zero_add]

theorem firstDayOfYear_eq (h : DayOfEra n century row year day) :
    firstDayOfYear (yearOfEra n) = 36524 * century + 1461 * row + 365 * year := by
  have hcentury := h.century_le
  have hrow := h.row_le
  have hyear := h.year_le
  rw [h.yearOfEra_eq, firstDayOfYear]
  omega

end DayOfEra

/-! ## Dates of days -/

/-- The day in its period of 400 years. -/
def dayOfEra (day : Int) : Nat :=
  ((day + epochShift) % daysPerEra).toNat

/-- The year that starts in March in which a day lies. -/
def marchYear (day : Int) : Int :=
  (day + epochShift) / daysPerEra * 400 + yearOfEra (dayOfEra day)

/-- The place of a day in that year. -/
def marchDay (day : Int) : Nat :=
  dayOfEra day - firstDayOfYear (yearOfEra (dayOfEra day))

theorem ofDay_eq (day : Int) : ofDay day = ofMarch (marchYear day) (marchDay day) :=
  rfl

theorem marchDay_spec (day : Int) :
    day + epochShift = firstMarch (marchYear day) + marchDay day ∧
      marchDay day < marchLength (marchYear day) := by
  obtain ⟨era, hera⟩ : ∃ era, (day + epochShift) / daysPerEra = era := ⟨_, rfl⟩
  have hlt : dayOfEra day < 146097 := by
    unfold dayOfEra daysPerEra
    omega
  have hday : day + epochShift = era * 146097 + dayOfEra day := by
    unfold dayOfEra daysPerEra at *
    omega
  obtain ⟨century, row, year, rest, h⟩ := exists_dayOfEra hlt
  have hrest : marchDay day = rest := by
    rw [marchDay, h.firstDayOfYear_eq, h.eq, Nat.add_sub_cancel_left]
  have hyear : marchYear day = era * 400 + (100 * century + 4 * row + year : Nat) := by
    rw [marchYear, h.yearOfEra_eq, hera]
  rw [hyear, hrest, hday, h.eq]
  obtain ⟨-, hcentury, hrow, hyear, hday, hleap⟩ := h
  constructor
  · clear hera hleap
    unfold firstMarch
    omega
  · clear hera
    unfold marchLength
    split
    · omega
    · rename_i hno
      have hinner : rest ≠ 365 := by
        intro heq
        obtain ⟨rfl, hlast⟩ := hleap heq
        refine hno ⟨by omega, ?_⟩
        by_cases hrow24 : row = 24
        · have hthree := hlast hrow24
          omega
        · omega
      omega

theorem isDate_ofDay (day : Int) : (ofDay day).IsDate := by
  rw [ofDay_eq]
  exact isDate_ofMarch (marchDay_spec day).2

/-- The date of the following day is the next date of the calendar. -/
theorem ofDay_add_one (day : Int) : ofDay (day + 1) = (ofDay day).next := by
  obtain ⟨hday, hlt⟩ := marchDay_spec day
  obtain ⟨hsucc, hltsucc⟩ := marchDay_spec (day + 1)
  rw [ofDay_eq, ofDay_eq, next_ofMarch hlt]
  split
  · rename_i hinside
    have hplace : firstMarch (marchYear (day + 1)) + marchDay (day + 1) =
        firstMarch (marchYear day) + (marchDay day + 1 : Nat) := by omega
    obtain ⟨hyear, hrest⟩ := firstMarch_add_inj hltsucc hinside hplace
    rw [hyear, hrest]
  · have hnext := firstMarch_add_one (marchYear day)
    have hpos : 0 < marchLength (marchYear day + 1) := by
      unfold marchLength
      split <;> decide
    have hplace : firstMarch (marchYear (day + 1)) + marchDay (day + 1) =
        firstMarch (marchYear day + 1) + (0 : Nat) := by omega
    obtain ⟨hyear, hrest⟩ := firstMarch_add_inj hltsucc hpos hplace
    rw [hyear, hrest]

/-- The days are counted from the first of January 1970. -/
example : ofDay 0 = { year := 1970, month := 1, day := 1 } := by
  decide

/-- A later day has a later date. -/
theorem before_ofDay {a b : Int} (h : a < b) : (ofDay a).Before (ofDay b) := by
  have hstep (day : Int) : (ofDay day).Before (ofDay (day + 1)) := by
    rw [ofDay_add_one]
    exact before_next _
  induction b, Int.add_one_le_of_lt h using Int.leInduction with
  | base => exact hstep a
  | succ b hb ih => exact (ih (Int.lt_of_add_one_le hb)).trans (hstep b)

end Stencil.CivilDate
