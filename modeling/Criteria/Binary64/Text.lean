import Criteria.Binary64.Shortest

/-! Floating-point numbers as text.

Two notations share their digits. The *plain* one is always positional and has no
fraction when the number is whole. The *JSON* one is positional from `0.00001` up to
`9999999999999999.0`, always with a fraction, and has an exponent with a sign
outside that range; it has no text for what is not finite. -/
namespace Criteria

open Text (digits)

namespace Decimal

/-- The point among or beside the digits; `whole` ends a number without a fraction. -/
def positional (d : Decimal) (whole : List Char) : List Char :=
  let ds := digits d.coefficient
  let point := d.leading + 1
  if point ≤ 0 then ['0', '.'] ++ List.replicate point.natAbs '0' ++ ds
  else if ds.length ≤ point.toNat then
    ds ++ List.replicate (point.toNat - ds.length) '0' ++ whole
  else ds.take point.toNat ++ ['.'] ++ ds.drop point.toNat

/-- One digit before the point, and the exponent with its sign. -/
def scientific (d : Decimal) : List Char :=
  let ds := digits d.coefficient
  let fraction := if ds.length ≤ 1 then [] else '.' :: ds.drop 1
  let e := d.leading
  ds.take 1 ++ fraction ++ ['e', if e < 0 then '-' else '+'] ++ digits e.natAbs

end Decimal

namespace Binary64

def signed (negative : Bool) (cs : List Char) : List Char := if negative then '-' :: cs else cs

/-- The shortest digits that read back, never with an exponent; whole numbers have no point. -/
def plainChars : Binary64 → List Char
  | .nan => "NaN".toList
  | .infinite negative => signed negative "inf".toList
  | .finite negative m =>
    signed negative (if m.isZero then ['0'] else (m.shortest .up).positional [])

/-- The shortest digits that read back, always with a point or an exponent. There is no text for
what is not finite. -/
def jsonChars? : Binary64 → Option (List Char)
  | .finite negative m =>
    let d := m.shortest .even
    some <| signed negative <|
      if m.isZero then ['0', '.', '0']
      else if -5 ≤ d.leading ∧ d.leading ≤ 15 then d.positional ['.', '0']
      else d.scientific
  | _ => none

def plainText (x : Binary64) : String := String.ofList x.plainChars

/-- What is not finite has no number of its own and is written as null. -/
def jsonText (x : Binary64) : String :=
  match x.jsonChars? with
  | some cs => String.ofList cs
  | none => "null"

end Binary64
end Criteria
