/-! Dates of the Gregorian calendar, extended to all years in range.

A `Date` is a day that exists. Days are also counted: by their place in the year
(`ordinal`) and from 1970-01-01 (`dayNumber`), which fixes the day of the week. -/
namespace Criteria.Calendar

def minYear : Int := -262143
def maxYear : Int := 262142

def isLeap (year : Int) : Bool :=
  year % 4 == 0 && (year % 100 != 0 || year % 400 == 0)

def daysInMonth (year : Int) (month : Nat) : Nat :=
  if month = 2 then if isLeap year then 29 else 28
  else if month = 4 ∨ month = 6 ∨ month = 9 ∨ month = 11 then 30
  else 31

def daysInYear (year : Int) : Nat := if isLeap year then 366 else 365

/-- A day that exists. -/
structure Date where
  year : Int
  month : Nat
  day : Nat
  year_range : minYear ≤ year ∧ year ≤ maxYear
  month_range : 1 ≤ month ∧ month ≤ 12
  day_range : 1 ≤ day ∧ day ≤ daysInMonth year month
deriving DecidableEq

namespace Date

/-- The day, if it exists. -/
def of? (year : Int) (month day : Nat) : Option Date :=
  if h : (minYear ≤ year ∧ year ≤ maxYear) ∧ (1 ≤ month ∧ month ≤ 12) ∧
      (1 ≤ day ∧ day ≤ daysInMonth year month) then
    some ⟨year, month, day, h.1, h.2.1, h.2.2⟩
  else none

theorem of?_self (d : Date) : of? d.year d.month d.day = some d := by
  simp only [of?, d.year_range, d.month_range, d.day_range, and_self, dite_true]

/-- The day after, unless `d` is the last one in range. -/
def nextDay? (d : Date) : Option Date :=
  if d.day < daysInMonth d.year d.month then of? d.year d.month (d.day + 1)
  else if d.month < 12 then of? d.year (d.month + 1) 1
  else of? (d.year + 1) 1 1

/-- The day before, unless `d` is the first one in range. -/
def previousDay? (d : Date) : Option Date :=
  if 1 < d.day then of? d.year d.month (d.day - 1)
  else if 1 < d.month then of? d.year (d.month - 1) (daysInMonth d.year (d.month - 1))
  else of? (d.year - 1) 12 31

/-! ### The place in the year -/

-- the zero of a sum is core's, as powers are
attribute [local instance (2000)] Zero.ofOfNat0

/-- The days of the year before the month. -/
def daysBefore (year : Int) (month : Nat) : Nat :=
  ((List.range (month - 1)).map fun i => daysInMonth year (i + 1)).sum

def ordinal (d : Date) : Nat := daysBefore d.year d.month + d.day

/-- The day of a year by its place. -/
def ofOrdinal? (year : Int) (n : Nat) : Option Date :=
  (List.range 12).findSome? fun i =>
    let before := daysBefore year (i + 1)
    if before < n then of? year (i + 1) (n - before) else none

/-! ### Days from 1970-01-01 -/

/-- The days from the start of year 1 to the start of `year`, negative for the years before. -/
def daysBeforeYear (year : Int) : Int :=
  let y := year - 1
  365 * y + y / 4 - y / 100 + y / 400

/-- The number of the first day of any year, also of one out of range. -/
def newYear (year : Int) : Int := daysBeforeYear year - daysBeforeYear 1970

/-- Days from 1970-01-01. -/
def dayNumber (d : Date) : Int := newYear d.year + d.ordinal - 1

/-- Cycles of 400, 100, 4 years and 1 year, each of a known number of days, the last
of a cycle one day longer. -/
def ofDayNumber? (n : Int) : Option Date :=
  let n := n + daysBeforeYear 1970
  let r := (n % 146097).toNat
  let century := min 3 (r / 36524)
  let r := r - century * 36524
  let four := r / 1461
  let r := r % 1461
  let one := min 3 (r / 365)
  ofOrdinal? (400 * (n / 146097) + 100 * century + 4 * four + one + 1) (r - one * 365 + 1)

/-! ### The day of the week -/

/-- The weekday of the day with this number, from Monday, which is 0, to Sunday, which
is 6. -/
def weekdayOf (n : Int) : Nat := ((n + 3) % 7).toNat

/-- The day of the week, from Monday, which is 0. -/
def weekday (d : Date) : Nat := weekdayOf d.dayNumber

/-- The week of the year when weeks start on the weekday `start`; the days before the
first such day are in week 0. -/
def weekFrom (d : Date) (start : Nat) : Nat :=
  (d.ordinal + 6 - (d.weekday + 7 - start) % 7) / 7

/-- The year whose week it is when a week belongs to the year of its Thursday. -/
def isoWeekYear (d : Date) : Int × Nat :=
  let thursday : Int := d.ordinal + 3 - d.weekday
  if thursday < 1 then (d.year - 1, ((thursday + daysInYear (d.year - 1) + 6) / 7).toNat)
  else if daysInYear d.year < thursday then (d.year + 1, 1)
  else (d.year, ((thursday + 6) / 7).toNat)

end Date
end Criteria.Calendar
