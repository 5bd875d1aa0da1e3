import Criteria.Calendar.Date
import Criteria.Text.Digits

/-! Points in time, and how dates and times are written.

A second numbered 60 is a leap second and may end any minute. Times are shown with
as many digits of the second as are needed, in steps of three. -/
namespace Criteria.Calendar

open Text

/-- A time of day; the second 60 is a leap second. -/
structure TimeOfDay where
  hour : Nat
  minute : Nat
  second : Nat
  nanosecond : Nat
  hour_lt : hour < 24
  minute_lt : minute < 60
  second_le : second ≤ 60
  nanosecond_lt : nanosecond < 10 ^ 9
deriving DecidableEq

namespace TimeOfDay

/-- The time of day, if there is one. -/
def of? (hour minute second nanosecond : Nat) : Option TimeOfDay :=
  if h : hour < 24 ∧ minute < 60 ∧ second ≤ 60 ∧ nanosecond < 10 ^ 9 then
    some ⟨hour, minute, second, nanosecond, h.1, h.2.1, h.2.2.1, h.2.2.2⟩
  else none

theorem of?_self (t : TimeOfDay) : of? t.hour t.minute t.second t.nanosecond = some t := by
  simp only [of?, t.hour_lt, t.minute_lt, t.second_le, t.nanosecond_lt, and_self, dite_true]

def midnight : TimeOfDay := ⟨0, 0, 0, 0, by decide, by decide, by decide, by decide⟩

def minuteOfDay (t : TimeOfDay) : Nat := t.hour * 60 + t.minute

/-- The same seconds in another minute of the day. -/
def atMinute (t : TimeOfDay) (m : Nat) (h : m < 1440) : TimeOfDay :=
  { t with hour := m / 60, minute := m % 60, hour_lt := by omega, minute_lt := by omega }

end TimeOfDay

/-- A date and a time of day in UTC. -/
structure Instant where
  date : Date
  time : TimeOfDay
deriving DecidableEq

namespace Instant

/-- The instant that a clock `offset` minutes ahead of UTC shows as this one. The
offset is less than a day either way. -/
def behind? (i : Instant) (offset : Int) : Option Instant :=
  let m : Int := i.time.minuteOfDay - offset
  if h : 0 ≤ m ∧ m < 1440 then some ⟨i.date, i.time.atMinute m.toNat (by omega)⟩
  else if h : -1440 ≤ m ∧ m < 0 then
    i.date.previousDay?.map fun d => ⟨d, i.time.atMinute (m + 1440).toNat (by omega)⟩
  else if h : 1440 ≤ m ∧ m < 2880 then
    i.date.nextDay?.map fun d => ⟨d, i.time.atMinute (m - 1440).toNat (by omega)⟩
  else none

/-- Seconds from the start of 1970, a leap second counted as the one before it. -/
def timestamp (i : Instant) : Int :=
  i.date.dayNumber * 86400 + i.time.minuteOfDay * 60 + (min i.time.second 59 : Nat)

end Instant

/-! ### Text -/

/-- Four digits; outside the years 0 to 9999 also a sign, and more digits if needed. -/
def yearChars (year : Int) : List Char :=
  if 0 ≤ year ∧ year ≤ 9999 then padded 4 year.natAbs
  else (if year < 0 then '-' else '+') :: padded 4 year.natAbs

/-- A date as ISO 8601 writes it. -/
def Date.chars (d : Date) : List Char :=
  yearChars d.year ++ '-' :: padded 2 d.month ++ '-' :: padded 2 d.day

/-- The digits after the point, in groups of three as far as needed; nothing for whole seconds. -/
def fractionChars (nanosecond : Nat) : List Char :=
  if nanosecond = 0 then []
  else if nanosecond % 10 ^ 6 = 0 then '.' :: padded 3 (nanosecond / 10 ^ 6)
  else if nanosecond % 10 ^ 3 = 0 then '.' :: padded 6 (nanosecond / 10 ^ 3)
  else '.' :: padded 9 nanosecond

/-- A time of day with its seconds, and with a fraction only if there is one. -/
def TimeOfDay.chars (t : TimeOfDay) : List Char :=
  padded 2 t.hour ++ ':' :: padded 2 t.minute ++ ':' :: padded 2 t.second ++
    fractionChars t.nanosecond

/-- The text up to the offset, which is always that of UTC. -/
def Instant.chars (i : Instant) (offset : List Char) : List Char :=
  i.date.chars ++ 'T' :: i.time.chars ++ offset

def Date.text (d : Date) : String := String.ofList d.chars

/-- An instant with the offset spelled out. -/
def Instant.text (i : Instant) : String := String.ofList (i.chars "+00:00".toList)

/-- An instant with the letter that stands for UTC. -/
def Instant.zuluText (i : Instant) : String := String.ofList (i.chars ['Z'])

end Criteria.Calendar
