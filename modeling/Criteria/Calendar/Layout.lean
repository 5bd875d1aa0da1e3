import Criteria.Calendar.Fields
import Criteria.Calendar.Rfc3339

/-! Layouts: how a date or time is written, as a pattern.

A layout is literal text with directives, each a percent sign and a letter or two.
White space in a layout stands for any white space or none. `Layout.date` and
`Layout.instant` read a text by a layout; a directive without a meaning makes every
text fail where it is reached. -/
namespace Criteria.Calendar

open Text

/-- One thing that a layout asks for. -/
inductive Item
  | space
  | literal (c : Char)
  | number (n : Numeric)
  | monthName (long : Bool)
  | weekdayName (long : Bool)
  | meridiem
  | fraction
  | fractionOf (places : Nat) (point : Bool)
  | zoneName
  | offset (minutesOptional : Bool)
  | offsetOrUtc
  | timeMark
  | bad
deriving DecidableEq

/-! ### Reading a layout -/

/-- What a directive means so far. -/
inductive Meaning
  | items (is : List Item)
  | unfinished
  | unknown

def isoDate : List Item :=
  [.number .year, .literal '-', .number .month, .literal '-', .number .day]

def slashDate : List Item :=
  [.number .month, .literal '/', .number .day, .literal '/', .number .yearOfCentury]

def clock : List Item :=
  [.number .hour, .literal ':', .number .minute, .literal ':', .number .second]

/-- A timestamp with more freedom than the standard gives. -/
def looseTimestamp : List Item :=
  [.number .year, .space, .literal '-', .number .month, .space, .literal '-', .number .day,
    .timeMark, .number .hour, .space, .literal ':', .number .minute, .space, .literal ':',
    .number .second, .fraction, .space, .offsetOrUtc]

/-- The directives that stand for a plain number. -/
def numeric? : Char → Option Numeric
  | 'C' => some .century
  | 'G' => some .weekYear
  | 'H' => some .hour
  | 'I' => some .hour12
  | 'M' => some .minute
  | 'S' => some .second
  | 'U' => some .sundayWeek
  | 'V' => some .isoWeek
  | 'W' => some .mondayWeek
  | 'Y' => some .year
  | 'd' => some .day
  | 'e' => some .day
  | 'f' => some .nanosecond
  | 'g' => some .weekYearOfCentury
  | 'j' => some .ordinal
  | 'k' => some .hour
  | 'l' => some .hour12
  | 'm' => some .month
  | 'q' => some .quarter
  | 's' => some .timestamp
  | 'u' => some .weekdayFromMonday
  | 'w' => some .weekdayFromSunday
  | 'y' => some .yearOfCentury
  | _ => none

/-- What a single letter means after a percent sign. -/
def Meaning.ofLetter (c : Char) : Meaning :=
  match numeric? c with
  | some n => .items [.number n]
  | none => match c with
    | 'A' => .items [.weekdayName true]
    | 'a' => .items [.weekdayName false]
    | 'B' => .items [.monthName true]
    | 'b' => .items [.monthName false]
    | 'h' => .items [.monthName false]
    | 'P' => .items [.meridiem]
    | 'p' => .items [.meridiem]
    | 'D' => .items slashDate
    | 'x' => .items slashDate
    | 'F' => .items isoDate
    | 'T' => .items clock
    | 'X' => .items clock
    | 'R' => .items [.number .hour, .literal ':', .number .minute]
    | 'r' => .items [.number .hour12, .literal ':', .number .minute, .literal ':',
        .number .second, .space, .meridiem]
    | 'c' => .items ([.weekdayName false, .space, .monthName false, .space, .number .day, .space] ++
        clock ++ [.space, .number .year])
    | 'v' => .items [.number .day, .literal '-', .monthName false, .literal '-', .number .year]
    | '+' => .items looseTimestamp
    | 'Z' => .items [.zoneName]
    | 'z' => .items [.offset false]
    | 't' => .items [.space]
    | 'n' => .items [.space]
    | '%' => .items [.literal '%']
    | _ => .unknown

/-- How many digits of a fraction a directive asks for. -/
def places? : Char → Option Nat
  | '3' => some 3
  | '6' => some 6
  | '9' => some 9
  | _ => none

/-- The meaning of what follows a percent sign. A filler only goes with a number. -/
def Meaning.of : List Char → Meaning
  | [] => .unfinished
  | [c] => if c ∈ ['-', '_', '0', '#', ':', '.', '3', '6', '9'] then .unfinished else ofLetter c
  | ['.', c] =>
    if c = 'f' then .items [.fraction] else if (places? c).isSome then .unfinished else .unknown
  | ['.', c, 'f'] => match places? c with
    | some n => .items [.fractionOf n true]
    | none => .unknown
  | ['#', 'z'] => .items [.offset true]
  | [':', 'z'] => .items [.offset false]
  | [':', ':', 'z'] => .items [.offset false]
  | [':', ':', ':', 'z'] => .items [.offset false]
  | [':', ':'] => .unfinished
  | [':', ':', ':'] => .unfinished
  | [c, d] =>
    if c ∈ ['-', '_', '0'] then match numeric? d with
      | some n => .items [.number n]
      | none => .unknown
    else if d = 'f' then match places? c with
      | some n => .items [.fractionOf n false]
      | none => .unknown
    else .unknown
  | _ => .unknown

/-- The items of a layout; `directive` holds what has been read of one. Nothing can be
read past an item that is `bad`. -/
def itemsFrom (directive : Option (List Char)) : List Char → List Item
  | [] => if directive.isSome then [.bad] else []
  | c :: r => match directive with
    | none =>
      if c = '%' then itemsFrom (some []) r
      else (if isBlank c then .space else .literal c) :: itemsFrom none r
    | some d => match Meaning.of (d ++ [c]) with
      | .items is => is ++ itemsFrom none r
      | .unfinished => itemsFrom (some (d ++ [c])) r
      | .unknown => [.bad]

/-- A layout, directive by directive. -/
def items (layout : String) : List Item := itemsFrom none layout.toList

/-! ### Reading by a layout -/

/-- The most digits that are read; a timestamp has no limit. -/
def Numeric.width : Numeric → Option Nat
  | .year => some 4
  | .weekYear => some 4
  | .ordinal => some 3
  | .nanosecond => some 9
  | .quarter => some 1
  | .weekdayFromSunday => some 1
  | .weekdayFromMonday => some 1
  | .timestamp => none
  | _ => some 2

/-- Whether a sign may stand before the digits. -/
def Numeric.isSigned (n : Numeric) : Bool := n == .year || n == .weekYear

/-- The months, their short names apart from what makes them long. -/
def monthNames : List (String × String) :=
  [("jan", "uary"), ("feb", "ruary"), ("mar", "ch"), ("apr", "il"), ("may", ""), ("jun", "e"),
    ("jul", "y"), ("aug", "ust"), ("sep", "tember"), ("oct", "ober"), ("nov", "ember"),
    ("dec", "ember")]

/-- The days of the week, their short names apart from what makes them long. -/
def weekdayNames : List (String × String) :=
  [("mon", "day"), ("tue", "sday"), ("wed", "nesday"), ("thu", "rsday"), ("fri", "day"),
    ("sat", "urday"), ("sun", "day")]

namespace Scan

/-- A number with its sign, if the field has one. A sign lifts the limit on digits. -/
def numeric (n : Numeric) : Scan Int := do
  blanks
  match n.isSigned, ← get with
  | true, '-' :: r => do
    set r
    pure (-(← number 1 none))
  | true, '+' :: r => do
    set r
    pure (← number 1 none)
  | _, _ => do pure (← number 1 n.width)

def small (cs : List Char) : List Char := cs.map Char.toLower

/-- A name by its first three letters, in any case, with or without the others. -/
def name (names : List (String × String)) (long : Bool) : Scan Nat := do
  let s ← get
  if byteLength s < 3 then throw .premature
  match names.findIdx? (·.1.toList == small (s.take 3)) with
  | none => throw .invalid
  | some i =>
    let rest := s.drop 3
    let ending := (names[i]?.map (·.2.toList)).getD []
    set (if long && small (rest.take ending.length) == ending then rest.drop ending.length else rest)
    pure i

/-- Whether it is the second half of the day. -/
def meridiem : Scan Bool := do
  let s ← get
  if byteLength s < 2 then throw .premature
  match small (s.take 2) with
  | ['a', 'm'] => do set (s.drop 2); pure false
  | ['p', 'm'] => do set (s.drop 2); pure true
  | _ => throw .invalid

/-- What `r` reads when a point comes first; otherwise nothing is taken. -/
def afterPoint (r : Scan Nat) : Scan (Option Nat) := do
  match ← get with
  | '.' :: rest => do
    set rest
    pure (some (← r))
  | _ => pure none

/-- Passes over colons and white space. -/
def colonOrBlank : Scan Unit := modify (·.dropWhile fun c => c == ':' || isBlank c)

/-- Takes the name of UTC, if it comes next, in small letters or capitals. -/
def utc : Scan Bool := do
  let s ← get
  if small (s.take 3) = "utc".toList then do set (s.drop 3); pure true else pure false

/-- Reads one item and states what it says. -/
def item (f : Fields) : Item → Scan Fields
  | .space => do blanks; pure f
  | .literal c => do literal c; pure f
  | .number n => do f.set n (← numeric n)
  | .monthName long => do f.set .month ((← name monthNames long) + 1 : Nat)
  | .weekdayName long => do f.setWeekday (← name weekdayNames long)
  | .meridiem => do f.setAfternoon (← meridiem)
  | .fraction => do
    match ← afterPoint fraction with
    | some n => f.set .nanosecond n
    | none => pure f
  | .fractionOf places true => do
    match ← afterPoint (fractionOf places) with
    | some n => f.set .nanosecond n
    | none => pure f
  | .fractionOf places false => do f.set .nanosecond (← fractionOf places)
  | .zoneName => do
    modify (·.dropWhile fun c => !isBlank c)
    pure f
  | .offset minutesOptional => do
    blanks
    if minutesOptional && (← zulu) then f.setOffset 0
    else f.setOffset (← offset colonOrBlank minutesOptional)
  | .offsetOrUtc => do
    blanks
    if ← utc then f.setOffset 0
    else if ← zulu then f.setOffset 0
    else f.setOffset (← offset colonOrBlank false)
  | .timeMark => do
    one isSeparator
    pure f
  | .bad => throw .badLayout

/-- Reads item by item, each in the light of what has been stated before. -/
def sequence (f : Fields) : List Item → Scan Fields
  | [] => pure f
  | i :: is => do sequence (← item f i) is

end Scan

namespace Layout

/-- Everything that a text states by a layout. Nothing may be left over. -/
def fields (layout : String) (s : List Char) : Except Fault Fields :=
  (Scan.sequence {} (items layout)).all s

def date (layout : String) (s : List Char) : Except Fault Date := do (← fields layout s).date

/-- The instant of a text by a layout. An offset is read, but moves nothing. -/
def instant (layout : String) (s : List Char) : Except Fault Instant := do
  (← fields layout s).instant

end Layout
end Criteria.Calendar
