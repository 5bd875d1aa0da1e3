import Criteria.Json.Number

/-! JSON values and their compact text.

An object keeps its members in the order in which their keys first came; `put` gives
a key that is already there a new value in its old place. -/
namespace Criteria

/-- A JSON value. The members of an object keep their order. -/
inductive Json
  | null
  | boolean (b : Bool)
  | number (n : Json.Number)
  | string (s : String)
  | array (items : List Json)
  | object (members : List (String × Json))

namespace Json

open Text

/-! ### Members -/

/-- A member with this key and value. The value takes the place of an earlier one with that key. -/
def put (members : List (String × α)) (key : String) (value : α) : List (String × α) :=
  if members.any (·.1 == key) then
    members.map fun m => if m.1 == key then (key, value) else m
  else members ++ [(key, value)]

/-! ### Text -/

/-- A control character is written by a letter or its code, a quote and a backslash
after a backslash, and all else as it stands. -/
def escapeChar (c : Char) : List Char :=
  if c = '"' then ['\\', '"']
  else if c = '\\' then ['\\', '\\']
  else if c = '\x08' then ['\\', 'b']
  else if c = '\x0c' then ['\\', 'f']
  else if c = '\n' then ['\\', 'n']
  else if c = '\r' then ['\\', 'r']
  else if c = '\t' then ['\\', 't']
  else if c.toNat < 0x20 then
    ['\\', 'u', '0', '0', hexChar (c.toNat / 16), hexChar (c.toNat % 16)]
  else [c]

def stringChars (s : String) : List Char :=
  '"' :: s.toList.flatMap escapeChar ++ ['"']

def stringText (s : String) : String := String.ofList (stringChars s)

def wordChars (b : Bool) : List Char := if b then "true".toList else "false".toList

/-- Parts with a comma between each two. -/
def listed : List (List Char) → List Char
  | [] => []
  | [x] => x
  | x :: y :: r => x ++ ',' :: listed (y :: r)

mutual

def chars : Json → List Char
  | .null => "null".toList
  | .boolean b => wordChars b
  | .number n => n.chars
  | .string s => stringChars s
  | .array items => '[' :: listed (itemChars items) ++ [']']
  | .object members => '\x7b' :: listed (memberChars members) ++ ['\x7d']

def itemChars : List Json → List (List Char)
  | [] => []
  | x :: r => x.chars :: itemChars r

def memberChars : List (String × Json) → List (List Char)
  | [] => []
  | (k, x) :: r => (stringChars k ++ ':' :: x.chars) :: memberChars r

end

def text (j : Json) : String := String.ofList j.chars

end Json
end Criteria
