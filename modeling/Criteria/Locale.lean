import Criteria.Binary64.Literal
import Criteria.Calendar.Layout
import Criteria.Text.Integer
import Criteria.Text.Lowercase

/-! Locales: how numbers and dates are written where a filter comes from.

A number may have a decimal separator and groups of three digits. `Locale.plain`
puts it with a point and without groups, and refuses a group separator anywhere
but between a digit of the whole part and a full group. An instant is read as RFC 3339
first, then by the locale's layouts for dates with a time, then by those for dates,
which mean midnight. Everything is UTC. -/
namespace Criteria

open Text

/-- How numbers, dates and instants are written. Layouts are tried in order. -/
structure Locale where
  decimal : Char
  group : Option Char
  datetimeLayouts : List String
  dateLayouts : List String
deriving DecidableEq

namespace Locale

/-- A point, commas between groups, and dates in the order of ISO 8601 or with the
month first. -/
def invariant : Locale where
  decimal := '.'
  group := some ','
  datetimeLayouts :=
    ["%Y-%m-%dT%H:%M:%S%.f", "%Y-%m-%d %H:%M:%S%.f", "%Y-%m-%dT%H:%M", "%Y-%m-%d %H:%M",
      "%m/%d/%Y %H:%M:%S", "%m/%d/%Y %H:%M"]
  dateLayouts := ["%Y-%m-%d", "%m/%d/%Y"]

instance : Inhabited Locale := ⟨invariant⟩

/-! ### Numbers -/

/-- Why a text is no number or truth value under a locale. -/
inductive Fault
  | misplacedGroup (separator : Char)
  | integer (f : IntegerFault)
  | emptyFloat
  | invalidFloat
  | notBoolean (text : String)
deriving DecidableEq

def Fault.message : Fault → String
  | .misplacedGroup c => "misplaced group separator '" ++ c.toString ++ "'"
  | .integer f => f.message
  | .emptyFloat => "cannot parse float from empty string"
  | .invalidFloat => "invalid float literal"
  | .notBoolean s => "'" ++ s ++ "' is not a boolean"

/-- Three digits and no more. -/
def startsGroup : List Char → Bool
  | a :: b :: c :: r => a.isDigit && b.isDigit && c.isDigit && !(r.head?.any Char.isDigit)
  | _ => false

/-- `whole` tells that no decimal separator and no exponent has come yet, `afterDigit`
that the last character was a digit. -/
def plainFrom (l : Locale) (whole afterDigit : Bool) : List Char → Except Fault (List Char)
  | [] => .ok []
  | c :: r =>
    if some c = l.group then
      if whole && afterDigit && startsGroup r then plainFrom l whole c.isDigit r
      else .error (.misplacedGroup c)
    else if c = l.decimal then do pure ('.' :: (← plainFrom l false c.isDigit r))
    else do pure (c :: (← plainFrom l (whole && c != 'e' && c != 'E') c.isDigit r))

/-- The text of a number without white space around it and without separators of groups, its
decimal mark a point. -/
def plain (l : Locale) (s : String) : Except Fault (List Char) :=
  plainFrom l true false (trim s.toList)

/-- The integer of a text. -/
def integer (l : Locale) (s : String) : Except Fault Int := do
  match readSigned (← l.plain s) with
  | .ok n => pure n
  | .error f => throw (.integer f)

/-- No name of what is not a number is read, and so no letter but that of an exponent. -/
def float (l : Locale) (s : String) : Except Fault Binary64 := do
  let cs ← l.plain s
  if cs.any (fun c => c.isAlpha && c != 'e' && c != 'E') then throw .invalidFloat
  else if cs = [] then throw .emptyFloat
  else match Binary64.ofLiteral? cs with
    | some x => pure x
    | none => throw .invalidFloat

/-- Two words in any case of ASCII, the same in every locale. -/
def boolean (s : String) : Except Fault Bool :=
  let word := asciiLower (String.ofList (trim s.toList))
  if word = "true" then .ok true
  else if word = "false" then .ok false
  else .error (.notBoolean word)

/-! ### Dates and times -/

/-- By the first layout that fits. -/
def dateBy? (layouts : List String) (s : List Char) : Option Calendar.Date :=
  layouts.findSome? fun layout => (Calendar.Layout.date layout (trim s)).toOption

/-- The instant of a text: as RFC 3339 writes it, by a layout for instants, or the midnight of a
date by a layout for dates. The empty text has none. -/
def instantBy? (datetimeLayouts dateLayouts : List String) (s : List Char) :
    Option Calendar.Instant :=
  let s := trim s
  if s = [] then none
  else
    (Calendar.Instant.ofRfc3339 s).toOption.or <|
      (datetimeLayouts.findSome? fun layout => (Calendar.Layout.instant layout s).toOption).or <|
        (dateBy? dateLayouts s).map (⟨·, .midnight⟩)

/-- The instant of a text by the layouts of the locale. -/
def instant? (l : Locale) (s : String) : Option Calendar.Instant :=
  instantBy? l.datetimeLayouts l.dateLayouts s.toList

/-- A date, or the day of an instant. -/
def date? (l : Locale) (s : String) : Option Calendar.Date :=
  (dateBy? l.dateLayouts s.toList).or ((l.instant? s).map (·.date))

end Locale
end Criteria
