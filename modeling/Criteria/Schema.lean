import Criteria.Text.Lowercase

/-! Record schemas: the fields that a filter may compare.

Fields keep the order in which they are declared. A name that a client writes finds
the first field that differs from it in case only. -/
namespace Criteria

/-- What the values of a field are. -/
inductive FieldType
  | string
  | boolean
  | integer
  | float
  | datetime
  | date
  | uuid
deriving DecidableEq

namespace FieldType

def all : List FieldType := [string, boolean, integer, float, datetime, date, uuid]

def name : FieldType → String
  | string => "string"
  | boolean => "boolean"
  | integer => "integer"
  | float => "float"
  | datetime => "datetime"
  | date => "date"
  | uuid => "uuid"

/-- The type of that name, which is written in small letters. -/
def ofName? (s : String) : Option FieldType := all.find? (·.name == s)

def isString (t : FieldType) : Bool := t == string

/-- The values lie on a calendar. -/
def isTemporal (t : FieldType) : Bool := t == datetime || t == date

theorem ofName?_name (t : FieldType) : ofName? t.name = some t := by
  cases t <;> decide

end FieldType

/-- A field of a record, by the name that a predicate uses. -/
structure Field where
  name : String
  type : FieldType
  nullable : Bool
deriving DecidableEq

/-- A string field is as good as nullable. -/
def Field.permitsAbsence (f : Field) : Bool := f.nullable || f.type.isString

/-- The fields that a filter may refer to. -/
structure Schema where
  fields : List Field
deriving DecidableEq

namespace Schema

def empty : Schema := ⟨[]⟩

/-- The schema with one more field at the end. -/
def declare (s : Schema) (name : String) (type : FieldType) (nullable : Bool) : Schema :=
  ⟨s.fields ++ [⟨name, type, nullable⟩]⟩

/-- The first field of that name, whatever the case of its letters. -/
def resolve? (s : Schema) (name : String) : Option Field :=
  s.fields.find? fun f => Text.lower f.name == Text.lower name

def typeOf? (s : Schema) (name : String) : Option FieldType := (s.resolve? name).map (·.type)

/-- Names that differ in case only are the same to a schema. -/
theorem resolve?_lower {s : Schema} {a b : String} (h : Text.lower a = Text.lower b) :
    s.resolve? a = s.resolve? b := by
  simp only [resolve?, h]

end Schema
end Criteria
