import Criteria.Json.Problem
import Criteria.Locale
import Criteria.Schema
import Criteria.Uuid

/-! What is reported: to a client about its filter, and to the log.

Every `Error` of a filter is the client's. Its `message` is for people; programs go by its
`code`. Which messages of the log are wanted is up to the environment
(`Diagnostics.activeFilter`). -/
namespace Criteria

/-- Why a value does not suit the type of its field. -/
inductive Reason
  | absent
  | locale (f : Locale.Fault)
  | calendar (f : Calendar.Fault)
  | uuid (f : Uuid.Fault)
deriving DecidableEq

def Reason.message : Reason → String
  | .absent => "a value is required for a non-nullable field"
  | .locale f => f.message
  | .calendar f => f.message
  | .uuid f => f.message

/-- Why a node is neither a comparison nor a group. -/
inductive Malformation
  | mixed
  | missingField
  | missingOperator
  | noChildren
  | stranger
deriving DecidableEq

def Malformation.message : Malformation → String
  | .mixed => "node has both child filters and a field comparison"
  | .missingField => "leaf filter is missing a field"
  | .missingOperator => "leaf filter is missing an operator"
  | .noChildren => "composite filter has no children"
  | .stranger => "leaf is not part of the compiled tree"

/-- What can be wrong with a filter, from its text to its values. -/
inductive Error
  | unknownOperator (code : String)
  | unresolvedField (name : String)
  | conversion (field : String) (operand : Option String) (target : FieldType) (reason : Reason)
  | invalidJson (problem : Json.Problem)
  | jsonTooLarge (maxBytes : Nat)
  | tooDeep (maxDepth : Nat)
  | tooManyLeaves (maxLeaves : Nat)
  | malformed (why : Malformation)
  | invalidLogic (text : String)

namespace Error

/-- An operand within a message, so that one that is missing can be told from an empty one. -/
def operandText : Option String → String
  | none => "None"
  | some s => "Some(" ++ Text.quoted s ++ ")"

/-- What a person is told. -/
def message : Error → String
  | unknownOperator code => "Unknown filter operator: " ++ code
  | unresolvedField name => "Cannot filter by field: " ++ name
  | conversion field operand target reason =>
    "Cannot convert " ++ operandText operand ++ " for field " ++ field ++ " to " ++ target.name ++
      ": " ++ reason.message
  | invalidJson problem => "Invalid filter JSON: " ++ problem.message
  | jsonTooLarge n => "Filter JSON exceeds maximum size of " ++ Text.decimal n ++ " bytes"
  | tooDeep n => "Filter tree exceeds maximum depth of " ++ Text.decimal n
  | tooManyLeaves n => "Maximum " ++ Text.decimal n ++ " filters allowed"
  | malformed why => "Malformed filter node: " ++ why.message
  | invalidLogic text => "Unknown filter logic: " ++ text

/-- What a program is told, one code for each kind of error. -/
def code : Error → String
  | unknownOperator _ => "UNKNOWN_FILTER_OPERATOR"
  | unresolvedField _ => "INVALID_FILTER_FIELD"
  | conversion .. => "INVALID_FILTER_VALUE"
  | invalidJson _ => "INVALID_FILTER_JSON"
  | jsonTooLarge _ => "FILTER_JSON_TOO_LARGE"
  | tooDeep _ => "FILTER_TOO_DEEP"
  | tooManyLeaves _ => "TOO_MANY_FILTERS"
  | malformed _ => "MALFORMED_FILTER"
  | invalidLogic _ => "INVALID_FILTER_LOGIC"

end Error

/-! ### The log -/

namespace Diagnostics

/-- What is wanted when the environment says nothing. -/
def defaultFilter : String := "info,gridfilter=info"

/-- The variable of the program itself comes before the general one. As for `Settings`, one whose
value is not Unicode counts as not set. -/
def activeFilter (env : String → Option String) : String :=
  ((env "GRIDFILTER_LOG").or (env "RUST_LOG")).getD defaultFilter

end Diagnostics
end Criteria
