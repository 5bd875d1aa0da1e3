import Criteria.Calendar.Scan

/-! Timestamps as RFC 3339 writes them.

A date, a separator, a time with an optional fraction and an offset, with nothing
left out and nothing around. The date is judged before the time is read, the time
before the offset. -/
namespace Criteria.Calendar

open Text

namespace Scan

/-- Exactly so many digits. -/
def fixedDigits : Nat → Scan (List Char)
  | 0 => pure []
  | n + 1 => do
    match ← get with
    | c :: r =>
      if c.isDigit then do
        set r
        pure (c :: (← fixedDigits n))
      else throw .invalid
    | [] => throw .invalid

def fixedNumber (n : Nat) : Scan Nat := do pure (ofDigits (← fixedDigits n))

def isSeparator (c : Char) : Bool := c == 'T' || c == 't' || c == ' '

/-- A date of four, two and two digits. -/
def fullDate : Scan Date := do
  let year ← fixedNumber 4
  one (· == '-')
  let month ← fixedNumber 2
  one (· == '-')
  let day ← fixedNumber 2
  orElseFault .outOfRange (Date.of? year month day)

def fullTime : Scan TimeOfDay := do
  let hour ← fixedNumber 2
  one (· == ':')
  let minute ← fixedNumber 2
  one (· == ':')
  let second ← fixedNumber 2
  let nanosecond ← match ← get with
    | '.' :: r => do set r; fraction
    | _ => pure 0
  orElseFault .outOfRange (TimeOfDay.of? hour minute second nanosecond)

/-- The letter for UTC, or an offset with a colon. -/
def fullOffset : Scan Int := do
  if ← zulu then pure 0 else offset (one (· == ':')) false

/-- A date and time as its own clock shows it, and how far that clock is ahead. -/
def timestamp : Scan (Instant × Int) := do
  let date ← fullDate
  one isSeparator
  let time ← fullTime
  let offset ← fullOffset
  pure (⟨date, time⟩, offset)

end Scan

/-- The instant of a timestamp. One that is too short is refused before anything else is looked
at. -/
def Instant.ofRfc3339 (s : List Char) : Except Fault Instant :=
  if byteLength s < 19 then .error .premature
  else do
    let (shown, offset) ← Scan.timestamp.all s
    if 1440 ≤ offset.natAbs then throw .outOfRange
    match shown.behind? offset with
    | some i => pure i
    | none => throw .outOfRange

end Criteria.Calendar
