import Criteria.Json
import Criteria.Text.Quoted

/-! What can be wrong with a JSON text, and how it is said. -/
namespace Criteria.Json

/-- How a value starts: the whole of a scalar, or the bracket of a container. -/
inductive Start
  | null
  | boolean (b : Bool)
  | number (n : Number)
  | string (s : String)
  | array
  | object

/-- What can be wrong with a JSON text, be it no JSON at all or not what was expected there. -/
inductive Problem
  | endInValue
  | endInList
  | endInObject
  | endInString
  | expectedValue
  | expectedWord
  | expectedColon
  | expectedCommaOrBracket
  | expectedCommaOrBrace
  | trailingComma
  | trailingCharacters
  | keyNotString
  | invalidEscape
  | invalidNumber
  | numberOutOfRange
  | controlCharacter
  | loneSurrogate
  | unfinishedSurrogate
  | tooDeep
  | invalidType (found : Start) (expected : String)
  | invalidValue (found : Start) (expected : String)
  | invalidLength (length : Nat) (expected : String)
  | missingField (name : String)
  | duplicateField (name : String)
  | unknownVariant (name : String) (expected : List String)
  | notScalar (value : Json)

/-- What was found, in a message about a type. -/
def Start.text : Start → String
  | .null => "null"
  | .boolean b => "boolean `" ++ String.ofList (wordChars b) ++ "`"
  | .number (.float x) => "floating point `" ++ x.jsonText ++ "`"
  | .number n => "integer `" ++ n.text ++ "`"
  | .string s => "string " ++ Text.quoted s
  | .array => "sequence"
  | .object => "map"

/-- What is said of a problem. Only where in the text it was met is left out: the line and the
column that a reader of JSON may add at the end are no part of a `Problem`. -/
def Problem.message : Problem → String
  | .endInValue => "EOF while parsing a value"
  | .endInList => "EOF while parsing a list"
  | .endInObject => "EOF while parsing an object"
  | .endInString => "EOF while parsing a string"
  | .expectedValue => "expected value"
  | .expectedWord => "expected ident"
  | .expectedColon => "expected `:`"
  | .expectedCommaOrBracket => "expected `,` or `]`"
  | .expectedCommaOrBrace => "expected `,` or `\x7d`"
  | .trailingComma => "trailing comma"
  | .trailingCharacters => "trailing characters"
  | .keyNotString => "key must be a string"
  | .invalidEscape => "invalid escape"
  | .invalidNumber => "invalid number"
  | .numberOutOfRange => "number out of range"
  | .controlCharacter => "control character (\\u0000-\\u001F) found while parsing a string"
  | .loneSurrogate => "lone leading surrogate in hex escape"
  | .unfinishedSurrogate => "unexpected end of hex escape"
  | .tooDeep => "recursion limit exceeded"
  | .invalidType found expected => "invalid type: " ++ found.text ++ ", expected " ++ expected
  | .invalidValue found expected => "invalid value: " ++ found.text ++ ", expected " ++ expected
  | .invalidLength n expected => "invalid length " ++ Text.decimal n ++ ", expected " ++ expected
  | .missingField name => "missing field `" ++ name ++ "`"
  | .duplicateField name => "duplicate field `" ++ name ++ "`"
  | .unknownVariant name expected =>
    "unknown variant `" ++ name ++ "`, expected one of " ++
      ", ".intercalate (expected.map fun v => "`" ++ v ++ "`")
  | .notScalar value => "filter value must be a scalar, got " ++ value.text

end Criteria.Json
