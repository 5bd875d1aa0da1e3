import Criteria.Descriptor
import Criteria.Json.Typed
import Criteria.Schema

/-! Descriptors and schemas in JSON.

Both may be written as objects, whose unknown keys are passed over, or as arrays of
their fields in order. The value of a descriptor may be any scalar and is kept as
text. -/
namespace Criteria

open Json Json.Reader

/-! ### Descriptors -/

namespace Descriptor

/-- A scalar as text, null as no value. -/
def scalar : Json → Json.Reader (Option String)
  | .null => pure none
  | .boolean b => pure (some (String.ofList (wordChars b)))
  | .number n => pure (some n.text)
  | .string s => pure (some s)
  | other => fail (.notScalar other)

/-- The value of a descriptor that leaves so many levels to open. -/
def operand (depth : Nat) : Json.Reader (Option String) := do scalar (← Json.Reader.value depth)

/-- The fields of an object as far as they have been read. -/
structure Draft where
  field : Option (Option String) := none
  operator : Option (Option String) := none
  value : Option (Option String) := none
  logic : Option (Option String) := none
  filters : Option (Option (List Descriptor)) := none
  caseSensitive : Option Bool := none

/-- What has not been stated takes its default. -/
def Draft.finish (d : Draft) : Descriptor :=
  { field := d.field.join
    operator := d.operator.join
    value := d.value.join
    logic := d.logic.join
    filters := d.filters.join
    caseSensitive := d.caseSensitive.getD false }

/-- What a member of the object adds. A part is stated once at most, in either spelling of its
name; members of other names are passed over. -/
def member (depth : Nat) (children : Json.Reader (List Descriptor)) (d : Draft) (key : String) :
    Json.Reader Draft :=
  match key with
  | "field" => do pure { d with field := ← once "field" d.field (optional text) }
  | "operator" => do pure { d with operator := ← once "operator" d.operator (optional text) }
  | "value" => do pure { d with value := ← once "value" d.value (operand depth) }
  | "logic" => do pure { d with logic := ← once "logic" d.logic (optional text) }
  | "filters" => do
    pure { d with filters := ← once "filters" d.filters (optional (sequence children)) }
  | "casesensitive" => do
    pure { d with caseSensitive := ← once "casesensitive" d.caseSensitive flag }
  | "caseSensitive" => do
    pure { d with caseSensitive := ← once "casesensitive" d.caseSensitive flag }
  | _ => do
    ignored
    pure d

def keyed (depth : Nat) (children : Json.Reader (List Descriptor)) : Json.Reader Descriptor := do
  pure (← members (member depth children) {}).finish

/-- An element that must be there. -/
def place (position : Nat) (item : Json.Reader α) : Json.Reader α :=
  Reader.place position "FilterDescriptor" 6 item

/-- A descriptor as a list of its parts in order. -/
def positional (depth : Nat) (children : Json.Reader (List Descriptor)) :
    Json.Reader Descriptor := do
  let field ← place 0 (optional text)
  let operator ← place 1 (optional text)
  let value := (← slot false (operand depth)).join
  let logic ← place 3 (optional text)
  let filters ← place 4 (optional (sequence children))
  let caseSensitive := (← slot false flag).getD false
  closeList
  pure { field, operator, value, logic, filters, caseSensitive }

/-- A descriptor in either form, given how to read its children. -/
def recordAt (depth : Nat) (children : Json.Reader (List Descriptor)) : Json.Reader Descriptor :=
  record "FilterDescriptor" (positional depth children) (keyed depth children)

/-- A descriptor, with so many levels left to open. Its own bracket takes one of them
and the list of its children another. -/
def reader : Nat → Json.Reader Descriptor
  | 0 => record "FilterDescriptor" (fail .tooDeep) (fail .tooDeep)
  | 1 => recordAt 0 (fail .tooDeep)
  | depth + 2 => recordAt (depth + 1) (elements (reader depth))

/-- The descriptor that a JSON text states. -/
def ofJson (text : String) : Except Problem Descriptor := (reader maxDepth).run text

end Descriptor

/-! ### Schemas -/

namespace FieldType

/-- The type of that name, or the names there are. -/
def ofNameReader (name : String) : Json.Reader FieldType :=
  match ofName? name with
  | some t => pure t
  | none => fail (.unknownVariant name (all.map (·.name)))

/-- A name, alone or as the only key of an object, with null. -/
def reader (depth : Nat) : Json.Reader FieldType := do
  space
  match ← peek with
  | none => fail .endInValue
  | some '"' => do ofNameReader (← text)
  | some '\x7b' =>
    if depth = 0 then fail .tooDeep
    else do
      let _ ← next
      let t ← ofNameReader (← onlyKey)
      colon
      nothing
      space
      match ← next with
      | some '\x7d' => pure t
      | some _ => fail .expectedValue
      | none => fail .endInObject
  | some _ => fail .expectedValue

end FieldType

namespace Field

/-- A field while its object is read. -/
structure Draft where
  name : Option String := none
  type : Option FieldType := none
  nullable : Option Bool := none

/-- What a member of the object adds. Members of other names are passed over. -/
def member (depth : Nat) (d : Draft) (key : String) : Json.Reader Draft :=
  match key with
  | "name" => do pure { d with name := ← once "name" d.name text }
  | "type" => do pure { d with type := ← once "type" d.type (FieldType.reader depth) }
  | "nullable" => do pure { d with nullable := ← once "nullable" d.nullable flag }
  | _ => do
    ignored
    pure d

def keyed (depth : Nat) : Json.Reader Field := do
  let d ← members (member depth) {}
  let name ← required "name" d.name
  let type ← required "type" d.type
  pure ⟨name, type, d.nullable.getD false⟩

/-- A field as a list of its parts in order. -/
def positional (depth : Nat) : Json.Reader Field := do
  let name ← place 0 "FieldDef" 3 text
  let type ← place 1 "FieldDef" 3 (FieldType.reader depth)
  let nullable := (← slot false flag).getD false
  closeList
  pure ⟨name, type, nullable⟩

/-- A field, with so many levels left inside it. -/
def reader (depth : Nat) : Json.Reader Field :=
  record "FieldDef" (positional depth) (keyed depth)

end Field

def Schema.ofJson (text : String) : Except Problem Schema :=
  (do pure ⟨← list (Field.reader (maxDepth - 2))⟩ : Json.Reader Schema).run text

end Criteria
