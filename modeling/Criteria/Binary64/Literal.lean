import Criteria.Binary64
import Criteria.Text.Digits

/-! Reading a floating-point number.

A literal is an optional sign and digits with at most one point among or beside
them, at least one digit in all, then an optional exponent. `Binary64.ofLiteral?`
gives the number nearest to it. The names of what is not a number are read by
`Binary64.ofText?` only. -/
namespace Criteria

open Text

/-- A literal apart: `digits · 10 ^ exponent`, the leading zeros still there. -/
structure Literal where
  negative : Bool
  digits : List Char
  exponent : Int

namespace Literal

/-- Takes a sign off the front, if there is one; whether it is a minus. -/
def sign : List Char → Bool × List Char
  | '+' :: r => (false, r)
  | '-' :: r => (true, r)
  | r => (false, r)

/-- The exponent at the end of a literal, zero when nothing is left. It needs at least one digit. -/
def exponent? : List Char → Option Int
  | [] => some 0
  | c :: r =>
    if c = 'e' ∨ c = 'E' then
      let (negative, ds) := sign r
      if ds ≠ [] ∧ ds.all Char.isDigit then
        some (if negative then -ofDigits ds else ofDigits ds)
      else none
    else none

/-- Reads the whole text as a literal: a digit before or after the point is enough. -/
def read? (cs : List Char) : Option Literal :=
  let (negative, r) := sign cs
  let whole := r.takeWhile Char.isDigit
  let after := r.dropWhile Char.isDigit
  let (fraction, tail) := match after with
    | '.' :: t => (t.takeWhile Char.isDigit, t.dropWhile Char.isDigit)
    | t => ([], t)
  if whole ++ fraction = [] then none
  else (exponent? tail).map fun e => ⟨negative, whole ++ fraction, e - fraction.length⟩

/-- The nearest number. A literal far above the largest number or far below the
smallest is decided by the place of its first digit alone. -/
def value (l : Literal) : Binary64 :=
  let ds := l.digits.dropWhile (· == '0')
  let place := l.exponent + ds.length
  if ds = [] ∨ place < -330 then .finite l.negative .zero
  else if 310 < place then .infinite l.negative
  else .ofMagnitude l.negative (Magnitude.ofDecimal (ofDigits ds) l.exponent)

end Literal

namespace Binary64

/-- The number that a literal stands for, correctly rounded. -/
def ofLiteral? (cs : List Char) : Option Binary64 := (Literal.read? cs).map Literal.value

/-- The number of a text, which may also be one of the names of what is not finite. -/
def ofText? (cs : List Char) : Option Binary64 :=
  let (negative, r) := Literal.sign cs
  let name := r.map Char.toLower
  if name = "nan".toList then some .nan
  else if name = "inf".toList ∨ name = "infinity".toList then some (.infinite negative)
  else ofLiteral? cs

end Binary64
end Criteria
