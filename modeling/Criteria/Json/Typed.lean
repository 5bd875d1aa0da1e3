import Criteria.Json.Skip

/-! Readers for values of a known type.

Each looks at the `Start` of a value and refuses every other type at once, before
anything behind it is read. Containers count the levels that may still be opened;
with none left, an opening bracket is refused. -/
namespace Criteria.Json.Reader

/-! ### Scalars -/

/-- A value of another type than expected. -/
def mismatch (found : Start) (expected : String) : Reader α := fail (.invalidType found expected)

def text : Reader String := do
  match ← start with
  | .string s => pure s
  | other => mismatch other "a string"

def flag : Reader Bool := do
  match ← start with
  | .boolean b => pure b
  | other => mismatch other "a boolean"

/-- A natural number of 64 bits. -/
def count : Reader Nat := do
  match ← start with
  | .number (.natural n) => pure n
  | .number (.negative n) => fail (.invalidValue (.number (.negative n)) "usize")
  | other => mismatch other "usize"

/-- A string of exactly one character. -/
def character : Reader Char := do
  match ← start with
  | .string s => match s.toList with
    | [c] => pure c
    | _ => fail (.invalidValue (.string s) "a character")
  | other => mismatch other "a character"

def nothing : Reader Unit := do
  match ← start with
  | .null => pure ()
  | other => mismatch other "unit"

/-- Null stands for an absent value. -/
def optional (r : Reader α) : Reader (Option α) := do
  space
  if (← peek) = some 'n' then
    let _ ← next
    word "ull".toList
    pure none
  else do
    pure (some (← r))

/-! ### Containers -/

/-- A list, whose elements and end `inside` reads. -/
def sequence (inside : Reader α) : Reader α := do
  match ← start with
  | .array => inside
  | other => mismatch other "a sequence"

/-- A list whose elements start one level deeper. -/
def list (item : Reader α) : Reader (List α) := sequence (elements item)

/-- A record, written as an object or as an array of its fields in order. -/
def record (name : String) (positional keyed : Reader α) : Reader α := do
  match ← start with
  | .array => positional
  | .object => keyed
  | other => mismatch other ("struct " ++ name)

/-! ### Fields by key -/

/-- A field that may be given once. -/
def once (name : String) (seen : Option α) (item : Reader α) : Reader (Option α) := do
  if seen.isSome then fail (.duplicateField name)
  else
    colon
    pure (some (← item))

/-- A member that is not wanted. -/
def ignored : Reader Unit := do
  colon
  skip

/-- What must have been stated. -/
def required (name : String) : Option α → Reader α
  | some a => pure a
  | none => fail (.missingField name)

/-! ### Fields by position -/

theorem length_le_of_element {first : Bool} {r s : List Char}
    (h : r.length < s.length + first.toNat) : r.length ≤ s.length := by
  have hfirst : first.toNat ≤ 1 := Bool.toNat_le first
  omega

/-- Whether there is a next element; the reading goes on where it starts. -/
def hasElement (first : Bool) : Reader Bool := fun s =>
  match anotherElement first s with
  | .error p => .error p
  | .ok none => .ok ⟨false, s, length_le_self s⟩
  | .ok (some ⟨r, hr⟩) => .ok ⟨true, r, length_le_of_element hr⟩

/-- The next element of a list that may end before it. -/
def slot (first : Bool) (item : Reader α) : Reader (Option α) := do
  if ← hasElement first then pure (some (← item)) else pure none

/-- An element that must be there, in a record of `size` fields. -/
def place (position : Nat) (record : String) (size : Nat) (item : Reader α) : Reader α := do
  match ← slot (position == 0) item with
  | some a => pure a
  | none =>
    fail (.invalidLength position ("struct " ++ record ++ " with " ++ Text.decimal size ++ " elements"))

/-! ### Values of any type -/

/-- A value of any type, given how to read containers. -/
def valueWith (array : Reader (List Json)) (object : Reader (List (String × Json))) :
    Reader Json := do
  match ← start with
  | .null => pure .null
  | .boolean b => pure (.boolean b)
  | .number n => pure (.number n)
  | .string s => pure (.string s)
  | .array => do pure (.array (← array))
  | .object => do pure (.object (← object))

/-- A member of an object of any type. -/
def valueMember (value : Reader Json) (taken : List (String × Json)) (key : String) :
    Reader (List (String × Json)) := do
  colon
  pure (put taken key (← value))

/-- Any value, with so many levels left to open. -/
def value : Nat → Reader Json
  | 0 => valueWith (fail .tooDeep) (fail .tooDeep)
  | depth + 1 => valueWith (elements (value depth)) (members (valueMember (value depth)) [])

/-- How many levels a text may open. -/
def maxDepth : Nat := 127

end Criteria.Json.Reader
