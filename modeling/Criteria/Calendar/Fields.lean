import Criteria.Calendar.Scan

/-! What a text has said about a date and a time.

A `Fields` gathers single statements, each at most once or always the same, and
then settles on the one date and time they describe. A date needs a year with a
month and day, with a day of the year, or with a week and weekday, and whatever
else was said must hold of it. A time needs an hour and a minute. -/
namespace Criteria.Calendar

/-- Numbers that a text can state. -/
inductive Numeric
  | year
  | century
  | yearOfCentury
  | weekYear
  | weekYearCentury
  | weekYearOfCentury
  | quarter
  | month
  | day
  | sundayWeek
  | mondayWeek
  | isoWeek
  | weekdayFromSunday
  | weekdayFromMonday
  | ordinal
  | hour
  | hour12
  | minute
  | second
  | nanosecond
  | timestamp
deriving DecidableEq

/-- What a text has stated so far. Later statements must agree with earlier ones. -/
structure Fields where
  year : Option Int := none
  century : Option Nat := none
  yearOfCentury : Option Nat := none
  weekYear : Option Int := none
  weekYearCentury : Option Nat := none
  weekYearOfCentury : Option Nat := none
  quarter : Option Nat := none
  month : Option Nat := none
  day : Option Nat := none
  sundayWeek : Option Nat := none
  mondayWeek : Option Nat := none
  isoWeek : Option Nat := none
  weekday : Option Nat := none
  ordinal : Option Nat := none
  afternoon : Option Bool := none
  hour12 : Option Nat := none
  minute : Option Nat := none
  second : Option Nat := none
  nanosecond : Option Nat := none
  timestamp : Option Int := none
  offset : Option Int := none

namespace Fields

/-! ### Statements -/

/-- The same statement may be made again, but not another one. -/
def agree [DecidableEq α] (old : Option α) (new : α) : Except Fault (Option α) :=
  match old with
  | none => .ok (some new)
  | some a => if a = new then .ok (some a) else .error .impossible

/-- A statement of a number within bounds. -/
def ranged (low high : Nat) (old : Option Nat) (new : Int) : Except Fault (Option Nat) :=
  if low ≤ new ∧ new ≤ high then agree old new.toNat else .error .outOfRange

/-- A statement of a year, which may be any number of 32 bits. -/
def int32 (old : Option Int) (new : Int) : Except Fault (Option Int) :=
  if -2 ^ 31 ≤ new ∧ new < 2 ^ 31 then agree old new else .error .outOfRange

/-- An hour of the full day says the half of the day and the hour in it. -/
def setHour (f : Fields) (v : Int) : Except Fault Fields :=
  if 0 ≤ v ∧ v ≤ 23 then do
    let afternoon ← agree f.afternoon (decide (12 ≤ v))
    let hour12 ← agree f.hour12 (v.toNat % 12)
    pure { f with afternoon, hour12 }
  else .error .outOfRange

/-- States the number `v`; each number has bounds of its own. -/
def set (f : Fields) (n : Numeric) (v : Int) : Except Fault Fields :=
  match n with
  | .year => do pure { f with year := ← int32 f.year v }
  | .century => do pure { f with century := ← ranged 0 (2 ^ 31 - 1) f.century v }
  | .yearOfCentury => do pure { f with yearOfCentury := ← ranged 0 99 f.yearOfCentury v }
  | .weekYear => do pure { f with weekYear := ← int32 f.weekYear v }
  | .weekYearCentury => do
    pure { f with weekYearCentury := ← ranged 0 (2 ^ 31 - 1) f.weekYearCentury v }
  | .weekYearOfCentury => do
    pure { f with weekYearOfCentury := ← ranged 0 99 f.weekYearOfCentury v }
  | .quarter => do pure { f with quarter := ← ranged 1 4 f.quarter v }
  | .month => do pure { f with month := ← ranged 1 12 f.month v }
  | .day => do pure { f with day := ← ranged 1 31 f.day v }
  | .sundayWeek => do pure { f with sundayWeek := ← ranged 0 53 f.sundayWeek v }
  | .mondayWeek => do pure { f with mondayWeek := ← ranged 0 53 f.mondayWeek v }
  | .isoWeek => do pure { f with isoWeek := ← ranged 1 53 f.isoWeek v }
  | .weekdayFromSunday =>
    if 0 ≤ v ∧ v ≤ 6 then do
      pure { f with weekday := ← agree f.weekday ((v.toNat + 6) % 7) }
    else .error .outOfRange
  | .weekdayFromMonday =>
    if 1 ≤ v ∧ v ≤ 7 then do pure { f with weekday := ← agree f.weekday (v.toNat - 1) }
    else .error .outOfRange
  | .ordinal => do pure { f with ordinal := ← ranged 1 366 f.ordinal v }
  | .hour => f.setHour v
  | .hour12 =>
    if 1 ≤ v ∧ v ≤ 12 then do pure { f with hour12 := ← agree f.hour12 (v.toNat % 12) }
    else .error .outOfRange
  | .minute => do pure { f with minute := ← ranged 0 59 f.minute v }
  | .second => do pure { f with second := ← ranged 0 60 f.second v }
  | .nanosecond => do pure { f with nanosecond := ← ranged 0 999999999 f.nanosecond v }
  | .timestamp => do pure { f with timestamp := ← agree f.timestamp v }

def setWeekday (f : Fields) (weekday : Nat) : Except Fault Fields := do
  pure { f with weekday := ← agree f.weekday weekday }

def setAfternoon (f : Fields) (afternoon : Bool) : Except Fault Fields := do
  pure { f with afternoon := ← agree f.afternoon afternoon }

/-- States the offset from UTC, in minutes. -/
def setOffset (f : Fields) (offset : Int) : Except Fault Fields := do
  pure { f with offset := ← agree f.offset offset }

/-! ### The year -/

/-- A year may be given in full, or by its century and its number in it. A number
alone means 1970 to 2069. -/
def fullYear (year : Option Int) (century inCentury : Option Nat) : Except Fault (Option Int) :=
  match year, century, inCentury with
  | y, none, none => .ok y
  | some y, c, n =>
    if y < 0 then .error .impossible
    else if c.getD (y.toNat / 100) = y.toNat / 100 ∧ n.getD (y.toNat % 100) = y.toNat % 100 then
      .ok (some y)
    else .error .impossible
  | none, some c, some n =>
    if c * 100 + n < 2 ^ 31 then .ok (some (c * 100 + n : Nat)) else .error .outOfRange
  | none, none, some n => .ok (some (if n < 70 then 2000 + n else 1900 + n : Nat))
  | none, some _, none => .error .notEnough

/-! ### The date -/

/-- What has not been stated cannot be wrong. -/
def matchesOption [DecidableEq α] (stated : Option α) (actual : α) : Bool :=
  stated.all (· == actual)

/-- A century is only known of a year that is not negative. -/
def matchesCentury (century inCentury : Option Nat) (year : Int) : Bool :=
  if 0 ≤ year then
    matchesOption century (year.toNat / 100) && matchesOption inCentury (year.toNat % 100)
  else century.isNone && inCentury.isNone

/-- Everything stated about a day is true of `d`. -/
def holdsOf (f : Fields) (d : Date) : Bool :=
  let week := d.isoWeekYear
  matchesOption f.year d.year && matchesCentury f.century f.yearOfCentury d.year &&
    matchesOption f.quarter ((d.month - 1) / 3 + 1) && matchesOption f.month d.month &&
    matchesOption f.day d.day && matchesOption f.ordinal d.ordinal &&
    matchesOption f.sundayWeek (d.weekFrom 6) && matchesOption f.mondayWeek (d.weekFrom 0) &&
    matchesOption f.weekday d.weekday && matchesOption f.weekYear week.1 &&
    matchesCentury f.weekYearCentury f.weekYearOfCentury week.1 &&
    matchesOption f.isoWeek week.2

/-- The day in the given week of a year whose weeks start on the weekday `start`. -/
def ofWeek? (year : Int) (start week weekday : Nat) : Option Date := do
  let newYear := Date.newYear year
  let firstStart : Int := (7 + start - Date.weekdayOf newYear) % 7
  let d ← Date.ofDayNumber?
    (newYear + firstStart + ((week : Int) - 1) * 7 + (weekday + 7 - start) % 7)
  if d.year = year then some d else none

/-- The day in the given week of a year whose first week holds 4 January. That week may
begin, and the last one end, in another year: only the day itself has to be in range. -/
def ofIsoWeek? (year : Int) (week weekday : Nat) : Option Date := do
  let fourth := Date.newYear year + 3
  let d ← Date.ofDayNumber? (fourth - Date.weekdayOf fourth + ((week : Int) - 1) * 7 + weekday)
  if d.isoWeekYear = (year, week) then some d else none

/-- The day that the most direct of the stated combinations names. -/
def candidate (f : Fields) (year weekYear : Option Int) : Except Fault Date :=
  let found := fun (d : Option Date) => d.elim (.error .outOfRange) Except.ok
  match year, f.month, f.day, f.ordinal, f.weekday, f.sundayWeek, f.mondayWeek, weekYear, f.isoWeek with
  | some y, some m, some d, _, _, _, _, _, _ => found (Date.of? y m d)
  | some y, _, _, some n, _, _, _, _, _ => found (Date.ofOrdinal? y n)
  | some y, _, _, _, some wd, some w, _, _, _ => found (ofWeek? y 6 w wd)
  | some y, _, _, _, some wd, _, some w, _, _ => found (ofWeek? y 0 w wd)
  | _, _, _, _, some wd, _, _, some y, some w => found (ofIsoWeek? y w wd)
  | _, _, _, _, _, _, _, _, _ => .error .notEnough

/-- The one day that the statements name. -/
def date (f : Fields) : Except Fault Date := do
  let year ← fullYear f.year f.century f.yearOfCentury
  let weekYear ← fullYear f.weekYear f.weekYearCentury f.weekYearOfCentury
  let d ← candidate f year weekYear
  if f.holdsOf d then pure d else throw .impossible

/-! ### The time -/

/-- The time of day. Seconds may be missing, but not when a fraction is stated. -/
def time (f : Fields) : Except Fault TimeOfDay := do
  let some afternoon := f.afternoon | throw .notEnough
  let some hour := f.hour12 | throw .notEnough
  let some minute := f.minute | throw .notEnough
  if f.nanosecond.isSome && f.second.isNone then throw .notEnough
  let hour := if afternoon then hour + 12 else hour
  match TimeOfDay.of? hour minute (f.second.getD 0) (f.nanosecond.getD 0) with
  | some t => pure t
  | none => throw .outOfRange

/-! ### Both -/

/-- The result is this error. -/
def severe : Except Fault α → Fault → Bool
  | .error g, f => g == f
  | .ok _, _ => false

/-- The date and time of a stated timestamp, which must be in range and which the other
statements must allow. A stated leap second belongs to the second before or after it. -/
def ofTimestamp (f : Fields) (timestamp : Int) : Except Fault Instant := do
  let some _ := Date.ofDayNumber? (timestamp / 86400) | throw .outOfRange
  let leap := f.second == some 60
  let secondOfDay := timestamp % 86400
  let stamp :=
    if leap && secondOfDay % 60 == 0 then timestamp - 1 else timestamp
  if leap && stamp % 60 != 59 then throw .impossible
  let some d := Date.ofDayNumber? (stamp / 86400) | throw .outOfRange
  let ofDay := (stamp % 86400).toNat
  let g ← if leap then pure f else f.set .second (ofDay % 60 : Nat)
  let g ← g.set .year d.year
  let g ← g.set .ordinal d.ordinal
  let g ← g.set .hour (ofDay / 3600 : Nat)
  let g ← g.set .minute (ofDay / 60 % 60 : Nat)
  pure ⟨← g.date, ← g.time⟩

/-- The instant that the statements name: a date and a time, which a timestamp must agree with
or may replace. -/
def instant (f : Fields) : Except Fault Instant :=
  match f.date, f.time, f.timestamp with
  | .ok d, .ok t, none => .ok ⟨d, t⟩
  | .ok d, .ok t, some stated =>
    let i : Instant := ⟨d, t⟩
    if stated = i.timestamp ∨ t.second = 60 ∧ stated = i.timestamp + 1 then .ok i
    else .error .impossible
  | d, t, some stated =>
    if severe d .outOfRange || severe t .outOfRange then .error .outOfRange
    else if severe d .impossible || severe t .impossible then .error .impossible
    else f.ofTimestamp stated
  | .error e, _, none => .error e
  | _, .error e, none => .error e

end Fields
end Criteria.Calendar
