import Criteria.Text.Digits

/-! Universally unique identifiers: 128 bits as 32 digits in base sixteen.

They are written in five groups with hyphens between, in small letters. Four spellings
are read, in either case: the bare digits, the five groups, and the five groups in
braces or after `urn:uuid:`. Everything else is a `Uuid.Fault`, which says what stands
in the way of the nearest spelling. -/
namespace Criteria

open Text

/-- A number of 128 bits as 32 digits in base sixteen. -/
structure Uuid where
  digits : List (Fin 16)
  length_eq : digits.length = 32
deriving DecidableEq

namespace Uuid

/-! ### Text -/

def digitChars (ds : List (Fin 16)) : List Char := ds.map fun d => hexChar d.val

def chars (u : Uuid) : List Char :=
  let cs := digitChars u.digits
  cs.take 8 ++ '-' :: (cs.drop 8).take 4 ++ '-' :: (cs.drop 12).take 4 ++
    '-' :: (cs.drop 16).take 4 ++ '-' :: cs.drop 20

def text (u : Uuid) : String := String.ofList u.chars

/-! ### Spellings -/

/-- The value of a digit, in either case. -/
def digit? (c : Char) : Option (Fin 16) :=
  match hexValue? c with
  | some n => if h : n < 16 then some ⟨n, h⟩ else none
  | none => none

def ofDigits? (cs : List Char) : Option Uuid := do
  let ds ← cs.mapM digit?
  if h : ds.length = 32 then some ⟨ds, h⟩ else none

/-- The places of the hyphens. -/
def hyphens : List Nat := [8, 13, 18, 23]

/-- The number of five groups with hyphens between them. -/
def ofGroups? (cs : List Char) : Option Uuid :=
  if hyphens.all (fun i => cs[i]? == some '-') then
    ofDigits? (cs.take 8 ++ (cs.drop 9).take 4 ++ (cs.drop 14).take 4 ++ (cs.drop 19).take 4 ++
      cs.drop 24)
  else none

def urn : List Char := "urn:uuid:".toList

/-- What is inside the braces or after the name, and how many characters precede it. -/
def unwrapped? (cs : List Char) : Option (List Char × Nat) :=
  if 2 ≤ cs.length ∧ cs.head? = some '\x7b' ∧ cs.getLast? = some '\x7d' then
    some (cs.tail.dropLast, 1)
  else if (cs.take 9).map Char.toLower = urn then some (cs.drop 9, 9)
  else none

/-- The number of a text: bare digits, or groups, which may be wrapped. -/
def read? (cs : List Char) : Option Uuid :=
  (ofDigits? cs).or <| (ofGroups? cs).or <| (unwrapped? cs).bind (ofGroups? ·.1)

/-! ### Faults -/

/-- Why a text is no such number. Groups count from 0, positions in bytes. -/
inductive Fault
  | length (found : Nat)
  | character (found : Char) (position : Nat)
  | groupCount (found : Nat)
  | groupLength (group expected found : Nat)
deriving DecidableEq

def Fault.message : Fault → String
  | .length n => "invalid length: found " ++ decimal n
  | .character c i => "invalid character: found `" ++ c.toString ++ "` at " ++ decimal i
  | .groupCount n => "invalid group count: expected 5, found " ++ decimal n
  | .groupLength g e n =>
    "invalid group length in group " ++ decimal g ++ ": expected " ++ decimal e ++ ", found " ++
      decimal n

/-- Every character with its offset in bytes. -/
def placed (offset : Nat) : List Char → List (Nat × Char)
  | [] => []
  | c :: r => (offset, c) :: placed (offset + c.utf8Size) r

/-- The first group whose hyphen is not in its place, or the last group. -/
def misplaced (size : Nat) : List Nat → List Nat → Nat → Fault
  | found :: fs, expected :: es, group =>
    if found = expected then misplaced size fs es (group + 1)
    else
      let start := if group = 0 then 0 else 4 + 5 * group
      .groupLength group (expected - start) (found - start)
  | _, _, _ => .groupLength 4 12 (size - 24)

/-- What is wrong with characters that ought to be five groups. The whole text has `size`
bytes, and the place of a character is counted from `offset` on. -/
def groupFault (size offset : Nat) (cs : List Char) : Fault :=
  let spots := placed 0 cs
  match spots.find? fun p => p.2 != '-' && (hexValue? p.2).isNone with
  | some (i, c) => .character c (i + offset)
  | none =>
    let marks := (spots.filter (·.2 == '-')).map (·.1)
    if marks.length = 4 then misplaced size marks hyphens 0 else .groupCount (marks.length + 1)

/-- How many bytes five groups and their hyphens take. -/
def groupedSize : Nat := 36

/-- The part of a text that has just the room for five groups: the whole of it, else
what is inside the braces or after the name. -/
def grouped? (cs : List Char) : Option (List Char) :=
  if byteLength cs = groupedSize then some cs
  else ((unwrapped? cs).map (·.1)).filter (byteLength · = groupedSize)

/-- Places are counted within the five groups where the text has just the room for
them, and in the whole text elsewhere. -/
def fault (cs : List Char) : Fault :=
  let size := byteLength cs
  if size = 0 ∨ 45 < size then .length size
  else
    match grouped? cs, unwrapped? cs with
    | some groups, _ => groupFault size 0 groups
    | none, some (inner, offset) => groupFault size offset inner
    | none, none =>
      if cs.all fun c => (hexValue? c).isSome then .length size else groupFault size 0 cs

def read (cs : List Char) : Except Fault Uuid :=
  match read? cs with
  | some u => .ok u
  | none => .error (fault cs)

end Uuid
end Criteria
