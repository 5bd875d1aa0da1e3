import Criteria.Diagnostics
import Criteria.Tree
import Criteria.Value

/-! From the text that a client sent to the value that is bound.

The first rule that applies decides: a comparison of text that ignores case lowers its
operand; a test for absence without an operand needs no value; dates and times are
read as the locale reads them; everything else, and dates that the locale cannot
read, is read strictly by the type of the field. -/
namespace Criteria

namespace Coercion

/-- Both sides of this comparison are lowered. -/
def folds (type : FieldType) (operator : Operator) (caseSensitive : Bool) : Bool :=
  type.isString && !caseSensitive && operator.foldsCase

def isBlank (s : String) : Bool := Text.allBlank s.toList

/-- What the locale makes of a date or time. -/
def lenient? (l : Locale) (type : FieldType) (s : String) : Option Value :=
  match type with
  | .datetime => (l.instant? s).map .datetime
  | .date => (l.date? s).map .date
  | _ => none

/-- The layout of dates when nothing else has read them. -/
def strictDate : String := "%Y-%m-%d"

/-- The value of a text by the type of its field alone. -/
def strict (l : Locale) (type : FieldType) (s : String) : Except Reason Value :=
  match type with
  | .string => .ok (.string s)
  | .boolean => ((Locale.boolean s).map .boolean).mapError .locale
  | .integer => ((l.integer s).map .integer).mapError .locale
  | .float => ((l.float s).map .float).mapError .locale
  | .datetime => ((Calendar.Instant.ofRfc3339 s.toList).map .datetime).mapError .calendar
  | .date => ((Calendar.Layout.date strictDate s.toList).map .date).mapError .calendar
  | .uuid => ((Uuid.read (Text.trim s.toList)).map .uuid).mapError .uuid

/-- The value of an operand that must suit its field. -/
def convert (l : Locale) (field : Field) (operand : Option String) : Except Error Value :=
  let failed := fun (r : Reason) => Error.conversion field.name operand field.type r
  match operand with
  | none => if field.permitsAbsence then .ok .null else .error (failed .absent)
  | some s => match lenient? l field.type s with
    | some v => .ok v
    | none => (strict l field.type s).mapError failed

end Coercion

open Coercion in
/-- The value bound for a comparison with `field`. -/
def coerce (l : Locale) (field : Field) (operator : Operator) (caseSensitive : Bool)
    (operand : Option String) : Except Error Value :=
  if folds field.type operator caseSensitive then
    .ok (operand.elim .null fun s => .string (Text.lower s))
  else if operator.isValueless && operand.all isBlank then .ok .null
  else convert l field operand

end Criteria
