import Criteria.Binary64.Text
import Criteria.Calendar.Instant
import Criteria.Json
import Criteria.Text.Quoted
import Criteria.Uuid

/-! Values bound to the placeholders of a predicate, and their two texts.

`text` shows a value to a reader, `jsonText` sends it on. They differ for text, which
is quoted each in its own way, for numbers with a point and for instants. -/
namespace Criteria

/-- What an operand becomes. -/
inductive Value
  | null
  | string (s : String)
  | boolean (b : Bool)
  | integer (n : Int)
  | float (x : Binary64)
  | datetime (i : Calendar.Instant)
  | date (d : Calendar.Date)
  | uuid (u : Uuid)
deriving DecidableEq

namespace Value

def typeName : Value → String
  | null => "null"
  | string _ => "string"
  | boolean _ => "boolean"
  | integer _ => "integer"
  | float _ => "float"
  | datetime _ => "datetime"
  | date _ => "date"
  | uuid _ => "uuid"

/-- A value as a person reads it. -/
def text : Value → String
  | null => "null"
  | string s => Text.quoted s
  | boolean b => String.ofList (Json.wordChars b)
  | integer n => String.ofList (Text.signedDigits n)
  | float x => x.plainText
  | datetime i => i.text
  | date d => d.text
  | uuid u => u.text

def jsonText : Value → String
  | null => "null"
  | string s => Json.stringText s
  | boolean b => String.ofList (Json.wordChars b)
  | integer n => String.ofList (Text.signedDigits n)
  | float x => x.jsonText
  | datetime i => Json.stringText i.zuluText
  | date d => Json.stringText d.text
  | uuid u => Json.stringText u.text

def isNull : Value → Bool
  | null => true
  | _ => false

/-- The text, of a value that is one. -/
def asString? : Value → Option String
  | string s => some s
  | _ => none

end Value
end Criteria
