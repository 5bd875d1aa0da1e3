import Criteria.Json.Reader

/-! Passing over a value that nobody wants.

Only the grammar is checked: numbers may be of any size, codes of characters need
no partner, and containers may nest to any depth, since the open ones are kept in a
list. A comma must be followed by a value or a key. -/
namespace Criteria.Json.Reader

open Text

/-! ### Scalars -/

def skipFraction : Reader Unit := do
  if (← peek) = some '.' then
    let _ ← next
    if (← digitRun) = [] then fail .invalidNumber

def skipExponent : Reader Unit := do
  let mark ← peek
  if mark = some 'e' ∨ mark = some 'E' then
    let _ ← next
    let sign ← peek
    if sign = some '+' ∨ sign = some '-' then
      let _ ← next
    if (← digitRun) = [] then fail .invalidNumber

/-- A number from after its first digit. -/
def skipNumberAfter (first : Char) : Reader Unit := do
  let more ← digitRun
  if first = '0' ∧ more ≠ [] then fail .invalidNumber
  skipFraction
  skipExponent

def skipNegative : Reader Unit := do
  match ← next with
  | some c => if c.isDigit then skipNumberAfter c else fail .invalidNumber
  | none => fail .invalidNumber

/-- What follows a backslash. A code needs four digits, but no partner. -/
def skipEscape : Reader Unit := do
  match ← next with
  | none => fail .endInString
  | some 'u' => do let _ ← hexQuad
  | some c => if (lettered c).isSome then pure () else fail .invalidEscape

/-- A string from after its opening quote. -/
def skipStringFrom (origin : List Char) (s : List Char) (h : s.length ≤ origin.length) :
    Except Problem (Taken Unit origin) :=
  match s, h with
  | [], _ => .error .endInString
  | c :: r, h =>
    have hr : r.length ≤ origin.length := Nat.le_of_succ_le h
    if c = '"' then .ok ⟨(), r, hr⟩
    else if c = '\\' then
      match skipEscape r with
      | .error p => .error p
      | .ok ⟨_, t, ht⟩ => skipStringFrom origin t (Nat.le_trans ht hr)
    else if c.toNat < 0x20 then .error .controlCharacter
    else skipStringFrom origin r hr
termination_by s.length
decreasing_by all_goals simp only [List.length_cons]; omega

/-- A string from after its opening quote. -/
def skipString : Reader Unit := fun s => skipStringFrom s s (length_le_self s)

/-! ### Containers -/

/-- What a bracket has opened. -/
inductive Container
  | list
  | object

def Container.close : Container → Char
  | .list => ']'
  | .object => '\x7d'

/-- The problem when the text ends inside. -/
def Container.cut : Container → Problem
  | .list => .endInList
  | .object => .endInObject

/-- The problem when neither a comma nor the closing bracket follows a value. -/
def Container.unseparated : Container → Problem
  | .list => .expectedCommaOrBracket
  | .object => .expectedCommaOrBrace

/-- The key and colon before a member's value. -/
def skipKey : Reader Unit := do
  space
  match ← next with
  | none => fail .endInObject
  | some '"' => do
    skipString
    colon
  | some _ => fail .keyNotString

/-- What comes before a value in a container. -/
def enter : Container → Reader Unit
  | .list => pure ()
  | .object => skipKey

/-- After an opening bracket: whether the container is still open, ready for its first
value if it is. -/
def skipOpening (k : Container) : Reader Bool := do
  space
  match ← peek with
  | none => fail k.cut
  | some c =>
    if c = k.close then do
      let _ ← next
      pure false
    else do
      enter k
      pure true

/-- A value from after its first character: the container it opens, if any. -/
def skipAfter : Char → Reader (Option Container)
  | 'n' => do word "ull".toList; pure none
  | 't' => do word "rue".toList; pure none
  | 'f' => do word "alse".toList; pure none
  | '-' => do skipNegative; pure none
  | '"' => do skipString; pure none
  | '[' => do pure (if ← skipOpening .list then some .list else none)
  | '\x7b' => do pure (if ← skipOpening .object then some .object else none)
  | c => if c.isDigit then do skipNumberAfter c; pure none else fail .expectedValue

/-- Passes over the value that is due, or over what follows a value that is complete,
inside the containers of `outer`, the innermost first. -/
def skipFrom (origin : List Char) (due : Bool) (outer : List Container) (s : List Char)
    (h : s.length ≤ origin.length) : Except Problem (Taken Unit origin) :=
  match due, outer with
  | false, [] => .ok ⟨(), s, h⟩
  | false, k :: ks =>
    match hs : afterSpace s with
    | [] => .error k.cut
    | c :: r =>
      have hr : r.length < s.length := length_lt_of_afterSpace hs
      if c = k.close then skipFrom origin false ks r (by omega)
      else if c = ',' then
        match enter k r with
        | .error p => .error p
        | .ok ⟨_, t, ht⟩ => skipFrom origin true (k :: ks) t (by omega)
      else .error k.unseparated
  | true, ks =>
    match hs : afterSpace s with
    | [] => .error .endInValue
    | c :: r =>
      have hr : r.length < s.length := length_lt_of_afterSpace hs
      match skipAfter c r with
      | .error p => .error p
      | .ok ⟨none, t, ht⟩ => skipFrom origin false ks t (by omega)
      | .ok ⟨some k, t, ht⟩ => skipFrom origin true (k :: ks) t (by omega)
termination_by s.length
decreasing_by all_goals omega

/-- One whole value. -/
def skip : Reader Unit := fun s => skipFrom s true [] s (length_le_self s)

end Criteria.Json.Reader
