import Criteria.Calendar.Instant
import Criteria.Text.Blank

/-! Reading dates and times from the left. -/
namespace Criteria.Calendar

open Text

/-- Why a text gives no date or time. -/
inductive Fault
  | premature
  | invalid
  | outOfRange
  | trailing
  | impossible
  | notEnough
  | badLayout
deriving DecidableEq

def Fault.message : Fault → String
  | .premature => "premature end of input"
  | .invalid => "input contains invalid characters"
  | .outOfRange => "input is out of range"
  | .trailing => "trailing input"
  | .impossible => "no possible date and time matching input"
  | .notEnough => "input is not enough for unique date and time"
  | .badLayout => "bad or unsupported format string"

/-- Takes something off the front of a text, or fails. -/
abbrev Scan (α : Type) := StateT (List Char) (Except Fault) α

namespace Scan

/-- A missing value is the fault `f`. -/
def orElseFault (f : Fault) : Option α → Scan α
  | some a => pure a
  | none => throw f

def blanks : Scan Unit := modify trimLeft

/-- One of the characters that `p` accepts. -/
def one (p : Char → Bool) : Scan Unit := do
  match ← get with
  | [] => throw .premature
  | c :: r => if p c then set r else throw .invalid

/-- The character `c`. A text too short for it is premature, any other one invalid. -/
def literal (c : Char) : Scan Unit := do
  match ← get with
  | d :: r =>
    if d = c then set r
    else if byteLength (d :: r) < c.utf8Size then throw .premature
    else throw .invalid
  | [] => throw .premature

/-- From `least` digits up to `most`, or as many as there are. The value must fit 63
bits. -/
def number (least : Nat) (most : Option Nat) : Scan Nat := do
  let s ← get
  let ds := (match most with | some n => s.take n | none => s).takeWhile Char.isDigit
  if byteLength s < least then throw .premature
  else if ds.length < least then throw .invalid
  else if 2 ^ 63 ≤ ofDigits ds then throw .outOfRange
  else
    set (s.drop ds.length)
    pure (ofDigits ds)

/-- Exactly so many digits after a decimal point, in nanoseconds. -/
def fractionOf (places : Nat) : Scan Nat := do
  let n ← number places (some places)
  pure (n * 10 ^ (9 - places))

/-- All digits after a decimal point, in nanoseconds; those after the ninth are dropped. -/
def fraction : Scan Nat := do
  let before := (← get).length
  let n ← number 1 (some 9)
  let after := (← get).length
  modify (·.dropWhile Char.isDigit)
  pure (n * 10 ^ (9 - (before - after)))

/-- Two digits of an offset. -/
def offsetDigits : Scan (Char × Char) := do
  let s ← get
  match s with
  | a :: b :: r => set r; pure (a, b)
  | _ => throw (if byteLength s < 2 then .premature else .invalid)

/-- Hours and minutes ahead of UTC, in minutes. `separator` reads what stands between
the two. -/
def offset (separator : Scan Unit) (minutesOptional : Bool) : Scan Int := do
  let negative ← match ← get with
    | '+' :: r => do set r; pure false
    | '-' :: r => do set r; pure true
    | '\u2212' :: r => do set r; pure true
    | [] => throw .premature
    | _ => throw .invalid
  let (a, b) ← offsetDigits
  if !(a.isDigit && b.isDigit) then throw .invalid
  separator
  if minutesOptional && (← get) == [] then
    let m : Int := ofDigits [a, b] * 60
    return if negative then -m else m
  let (c, d) ← offsetDigits
  if !(c.isDigit && d.isDigit) then throw .invalid
  if '6' ≤ c then throw .outOfRange
  let m : Int := ofDigits [a, b] * 60 + ofDigits [c, d]
  return if negative then -m else m

/-- Takes the letter for UTC, if it comes next, in either case. -/
def zulu : Scan Bool := do
  match ← get with
  | c :: r => if c = 'Z' ∨ c = 'z' then do set r; pure true else pure false
  | [] => pure false

/-- The whole text must be read. -/
def all (r : Scan α) (s : List Char) : Except Fault α := do
  let (a, rest) ← r.run s
  if rest = [] then pure a else throw .trailing

end Scan
end Criteria.Calendar
