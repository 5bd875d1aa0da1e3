import Criteria.Text.Casing

/-! Text in small letters.

Every capital becomes its small letter, wherever it stands. Two letters need more
than their own code point: a capital I with a dot keeps the dot as a combining
mark, and a capital sigma becomes a final sigma exactly when a letter comes before
it and none after it, characters without case in between aside. -/
namespace Criteria.Text

/-- The small letter of a single character, a sigma in its inner form. -/
def lowerChar (c : Char) : List Char :=
  if c.toNat < 0x80 then [c.toLower]
  else if c.toNat = 0x130 then ['i', '\u0307']
  else match lowerRuns.find? (·.covers c.toNat) with
    | some run => [Char.ofNat (c.toNat + run.shift).toNat]
    | none => [c]

/-- The first character that matters for case has one. -/
def meetsCased (cs : List Char) : Bool :=
  match cs.find? (fun c => !caseIgnorable.contains c) with
  | some c => cased.contains c
  | none => false

/-- Lower-cases `cs`, with what stands before it in `before`, nearest first. -/
def lowerFrom (before : List Char) : List Char → List Char
  | [] => []
  | c :: rest =>
    let here :=
      if c = 'Σ' then [if meetsCased before && !meetsCased rest then 'ς' else 'σ']
      else lowerChar c
    here ++ lowerFrom (c :: before) rest

def lower (s : String) : String := String.ofList (lowerFrom [] s.toList)

/-- Only the letters of ASCII change. -/
def asciiLower (s : String) : String := String.ofList (s.toList.map Char.toLower)

end Criteria.Text
