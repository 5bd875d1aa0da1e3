import Criteria.Json.Problem

/-! Reading JSON from the left.

A `Reader` takes a value off the front of a text and returns what is left, which is
never longer. The first problem met ends the reading, so what follows it does not
matter. Readers are put together with `bind`; the two loops, over the elements of a
list and over the members of an object, end because each round takes at least one
character more (`elements`, `members`).

`start` reads a whole scalar but only the opening bracket of a container. Whoever
expects a container goes on from there, and everybody else has already seen enough
to complain. -/
namespace Criteria.Json

open Text

/-- A value read off the front of a text, and the rest. -/
structure Taken (α : Type) (s : List Char) where
  value : α
  rest : List Char
  le : rest.length ≤ s.length

/-- What is left when nothing is taken. -/
theorem length_le_self (s : List Char) : s.length ≤ s.length := Nat.le_refl _

/-- Takes a value off the front of a text, which never gets longer. -/
def Reader (α : Type) : Type := (s : List Char) → Except Problem (Taken α s)

namespace Reader

instance : Monad Reader where
  pure a := fun s => .ok ⟨a, s, length_le_self s⟩
  bind x f := fun s => match x s with
    | .error p => .error p
    | .ok ⟨a, r, h⟩ => match f a r with
      | .error p => .error p
      | .ok ⟨b, t, h'⟩ => .ok ⟨b, t, Nat.le_trans h' h⟩

def fail (p : Problem) : Reader α := fun _ => .error p

/-! ### Characters -/

def isSpace (c : Char) : Bool := c == ' ' || c == '\n' || c == '\t' || c == '\r'

def afterSpace (s : List Char) : List Char := s.dropWhile isSpace

theorem length_afterSpace_le (s : List Char) : (afterSpace s).length ≤ s.length :=
  (List.dropWhile_sublist isSpace).length_le

theorem length_lt_of_afterSpace {s r : List Char} {c : Char} (h : afterSpace s = c :: r) :
    r.length < s.length := by
  have := length_afterSpace_le s
  simp only [h, List.length_cons] at this
  omega

def space : Reader Unit := fun s => .ok ⟨(), afterSpace s, length_afterSpace_le s⟩

/-- The next character, left where it is. -/
def peek : Reader (Option Char) := fun s => .ok ⟨s.head?, s, length_le_self s⟩

/-- Takes one character, if there is one. -/
def next : Reader (Option Char) := fun s => .ok ⟨s.head?, s.tail, by simp⟩

/-- Takes all digits up to something else. -/
def digitRun : Reader (List Char) := fun s =>
  .ok ⟨s.takeWhile Char.isDigit, s.dropWhile Char.isDigit,
    (List.dropWhile_sublist Char.isDigit).length_le⟩

/-- The rest of a word whose first letter has been read. -/
def word : List Char → Reader Unit
  | [] => pure ()
  | w :: ws => do
    match ← next with
    | none => fail .endInValue
    | some c => if c = w then word ws else fail .expectedWord

/-! ### Numbers -/

/-- A point and the digits after it, of which there must be one. -/
def fraction : Reader (List Char) := do
  if (← peek) = some '.' then
    let _ ← next
    let ds ← digitRun
    if ds ≠ [] then pure ds
    else if (← peek).isNone then fail .endInValue
    else fail .invalidNumber
  else pure []

/-- An exponent with its sign, of at least one digit. -/
def exponent : Reader (Option (Bool × List Char)) := do
  let mark ← peek
  if mark = some 'e' ∨ mark = some 'E' then
    let _ ← next
    let sign ← peek
    if sign = some '+' ∨ sign = some '-' then
      let _ ← next
    let ds ← digitRun
    if ds ≠ [] then pure (some (sign = some '-', ds))
    else if (← peek).isNone then fail .endInValue
    else fail .invalidNumber
  else pure none

/-- A number from its first digit on. -/
def numeral (negative : Bool) : Reader Numeral := do
  let whole ← digitRun
  match whole with
  | [] => if (← peek).isNone then fail .endInValue else fail .invalidNumber
  | '0' :: _ :: _ => fail .invalidNumber
  | _ =>
    let fraction ← fraction
    let exponent ← exponent
    pure ⟨negative, whole, fraction, exponent⟩

/-- A number from after its sign. -/
def number (negative : Bool) : Reader Number := do
  match (← numeral negative).value with
  | some n => pure n
  | none => fail .numberOutOfRange

/-! ### Strings -/

/-- Four digits in base sixteen. A text too short for them, counted in bytes, ends
too early; otherwise a wrong character is a wrong escape. -/
def hexQuad : Reader Nat := fun s =>
  match s with
  | a :: b :: c :: d :: r =>
    match hexValue? a, hexValue? b, hexValue? c, hexValue? d with
    | some a, some b, some c, some d =>
      .ok ⟨((a * 16 + b) * 16 + c) * 16 + d, r, by simp only [List.length_cons]; omega⟩
    | _, _, _, _ => .error .invalidEscape
  | s => .error (if byteLength s < 4 then .endInString else .invalidEscape)

/-- The character `c` on the way to the second half of a surrogate pair. -/
def expectInPair (c : Char) : Reader Unit := do
  match ← next with
  | none => fail .endInString
  | some d => if d = c then pure () else fail .unfinishedSurrogate

/-- A character by its code, one beyond the first plane by a pair of codes. -/
def coded : Reader Char := do
  let n ← hexQuad
  if 0xDC00 ≤ n ∧ n ≤ 0xDFFF then fail .loneSurrogate
  else if n < 0xD800 ∨ 0xDBFF < n then pure (Char.ofNat n)
  else
    expectInPair '\\'
    expectInPair 'u'
    let m ← hexQuad
    if m < 0xDC00 ∨ 0xDFFF < m then fail .loneSurrogate
    else pure (Char.ofNat (0x10000 + (n - 0xD800) * 0x400 + (m - 0xDC00)))

/-- What a letter means after a backslash. -/
def lettered : Char → Option Char
  | '"' => some '"'
  | '\\' => some '\\'
  | '/' => some '/'
  | 'b' => some '\x08'
  | 'f' => some '\x0c'
  | 'n' => some '\n'
  | 'r' => some '\r'
  | 't' => some '\t'
  | _ => none

/-- What a backslash stands for, from after it. -/
def escape : Reader Char := do
  match ← next with
  | none => fail .endInString
  | some 'u' => coded
  | some c => match lettered c with
    | some d => pure d
    | none => fail .invalidEscape

/-- The characters up to the closing quote, added to `taken` in reverse. -/
def stringFrom (origin : List Char) (taken : List Char) (s : List Char)
    (h : s.length ≤ origin.length) : Except Problem (Taken String origin) :=
  match s, h with
  | [], _ => .error .endInString
  | c :: r, h =>
    have hr : r.length ≤ origin.length := Nat.le_of_succ_le h
    if c = '"' then .ok ⟨String.ofList taken.reverse, r, hr⟩
    else if c = '\\' then
      match escape r with
      | .error p => .error p
      | .ok ⟨d, t, ht⟩ => stringFrom origin (d :: taken) t (Nat.le_trans ht hr)
    else if c.toNat < 0x20 then .error .controlCharacter
    else stringFrom origin (c :: taken) r hr
termination_by s.length
decreasing_by all_goals simp only [List.length_cons]; omega

/-- A string from after its opening quote. -/
def string : Reader String := fun s => stringFrom s [] s (length_le_self s)

/-! ### The start of a value -/

/-- The rest of a start whose first character, no digit, has been read. -/
def startAfter : Char → Reader Start
  | 'n' => do word "ull".toList; pure .null
  | 't' => do word "rue".toList; pure (.boolean true)
  | 'f' => do word "alse".toList; pure (.boolean false)
  | '-' => do pure (.number (← number true))
  | '"' => do pure (.string (← string))
  | '[' => pure .array
  | '\x7b' => pure .object
  | _ => fail .expectedValue

/-- How the next value starts; of a scalar that is all of it. -/
def start : Reader Start := do
  space
  match ← peek with
  | none => fail .endInValue
  | some c =>
    if c.isDigit then pure (.number (← number false))
    else
      let _ ← next
      startAfter c

/-! ### Elements of a list -/

/-- Where the next element starts, or nothing at the closing bracket, which stays. -/
def anotherElement (first : Bool) (s : List Char) :
    Except Problem (Option { r : List Char // r.length < s.length + first.toNat }) :=
  match h : afterSpace s with
  | [] => .error .endInList
  | c :: r =>
    have hr : r.length < s.length := length_lt_of_afterSpace h
    if c = ']' then .ok none
    else if hf : first = true then
      .ok (some ⟨c :: r, by simp only [hf, Bool.toNat_true, List.length_cons]; omega⟩)
    else if c = ',' then
      match h' : afterSpace r with
      | [] => .error .endInValue
      | d :: t =>
        if d = ']' then .error .trailingComma
        else .ok (some ⟨d :: t, by
          have := length_lt_of_afterSpace h'
          simp only [List.length_cons]; omega⟩)
    else .error .expectedCommaOrBracket

/-- The elements from here on, `taken` being those before, last one first. -/
def elementsFrom (item : Reader α) (origin : List Char) (first : Bool) (taken : List α)
    (s : List Char) (h : s.length ≤ origin.length) : Except Problem (Taken (List α) origin) :=
  match anotherElement first s with
  | .error p => .error p
  | .ok none => .ok ⟨taken.reverse, s, h⟩
  | .ok (some ⟨r, hr⟩) =>
    have hr' : r.length ≤ origin.length := by cases first <;> simp_all <;> omega
    match item r with
    | .error p => .error p
    | .ok ⟨a, t, ht⟩ =>
      elementsFrom item origin false (a :: taken) t (Nat.le_trans ht hr')
termination_by s.length + first.toNat
decreasing_by simp only [Bool.toNat_false]; omega

/-- The closing bracket, when no further element is wanted. -/
def closeList : Reader Unit := do
  space
  match ← next with
  | some ']' => pure ()
  | some ',' => do
    space
    if (← peek) = some ']' then fail .trailingComma else fail .trailingCharacters
  | some _ => fail .trailingCharacters
  | none => fail .endInList

/-- All elements, from after the opening bracket to after the closing one. -/
def elements (item : Reader α) : Reader (List α) := do
  let items ← fun s => elementsFrom item s true [] s (length_le_self s)
  closeList
  pure items

/-! ### Members of an object -/

/-- What follows the opening quote of the next key, or the closing brace. -/
def anotherKey (first : Bool) (s : List Char) :
    Except Problem (Bool × { r : List Char // r.length < s.length }) :=
  match h : afterSpace s with
  | [] => .error .endInObject
  | c :: r =>
    have hr : r.length < s.length := length_lt_of_afterSpace h
    if c = '\x7d' then .ok (false, ⟨r, hr⟩)
    else if first then
      if c = '"' then .ok (true, ⟨r, hr⟩) else .error .keyNotString
    else if c = ',' then
      match h' : afterSpace r with
      | [] => .error .endInValue
      | d :: t =>
        have ht : t.length < s.length := Nat.lt_trans (length_lt_of_afterSpace h') hr
        if d = '"' then .ok (true, ⟨t, ht⟩)
        else if d = '\x7d' then .error .trailingComma
        else .error .keyNotString
    else .error .expectedCommaOrBrace

/-- The members from here on, each of which changes the state. -/
def membersFrom (step : σ → String → Reader σ) (origin : List Char) (first : Bool) (state : σ)
    (s : List Char) (h : s.length ≤ origin.length) : Except Problem (Taken σ origin) :=
  match anotherKey first s with
  | .error p => .error p
  | .ok (false, ⟨r, hr⟩) => .ok ⟨state, r, by omega⟩
  | .ok (true, ⟨r, hr⟩) =>
    match string r with
    | .error p => .error p
    | .ok ⟨key, t, ht⟩ =>
      match step state key t with
      | .error p => .error p
      | .ok ⟨state, u, hu⟩ =>
        membersFrom step origin false state u (by omega)
termination_by s.length
decreasing_by omega

/-- All members, from after the opening brace to after the closing one. `step` has
read the key and reads the value, from the colon on. -/
def members (step : σ → String → Reader σ) (state : σ) : Reader σ := fun s =>
  membersFrom step s true state s (length_le_self s)

/-- The key of an object with just one member. -/
def onlyKey : Reader String := do
  space
  match ← next with
  | some '"' => string
  | some '\x7d' => fail .expectedValue
  | some _ => fail .keyNotString
  | none => fail .endInObject

/-- The colon between a key and its value. -/
def colon : Reader Unit := do
  space
  match ← next with
  | some ':' => pure ()
  | some _ => fail .expectedColon
  | none => fail .endInObject

/-! ### A whole text -/

/-- Nothing but space may follow. -/
def run (r : Reader α) (text : String) : Except Problem α :=
  match r text.toList with
  | .error p => .error p
  | .ok ⟨a, rest, _⟩ => if afterSpace rest = [] then .ok a else .error .trailingCharacters

end Reader
end Criteria.Json
