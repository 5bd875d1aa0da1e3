import Criteria.Binary64.Text

/-! Numbers of a JSON text.

A `Numeral` is the number as written, in its parts. Its `value` keeps the digits of
an integer that fits 64 bits; every other number is a floating-point number, read by
a single multiplication or division by a power of ten. That reading is quick rather
than exact: digits go into a significand of 64 bits until it is full, further whole
digits count as zeros and further digits of the fraction are dropped. -/
namespace Criteria.Json

open Text

/-- A number as it is kept: as an integer where 64 bits suffice, else as a floating-point number. -/
inductive Number
  | natural (n : Nat)
  | negative (n : Nat)
  | float (x : Binary64)
deriving DecidableEq

/-- The parts of a number in a text: digits before the point, digits after it, and the exponent
with its sign. -/
structure Numeral where
  negative : Bool
  whole : List Char
  fraction : List Char
  exponent : Option (Bool × List Char)

/-- A number as text again. An integer is never given a point. -/
def Number.chars : Number → List Char
  | .natural n => digits n
  | .negative n => '-' :: digits n
  | .float x => x.jsonText.toList

def Number.text (n : Number) : String := String.ofList n.chars

/-! ### The significand -/

/-- A significand on its way: full once a digit has not fitted any more. -/
structure Significand where
  value : Nat
  exponent : Int
  full : Bool

/-- One more digit before the point. From the first digit that does not fit on, digits only
raise the exponent. -/
def Significand.whole (s : Significand) (c : Char) : Significand :=
  let next := s.value * 10 + digitValue c
  if s.full || 2 ^ 64 ≤ next then { s with exponent := s.exponent + 1, full := true }
  else { s with value := next }

/-- One more digit after the point. Digits that do not fit are dropped. -/
def Significand.fraction (s : Significand) (c : Char) : Significand :=
  let next := s.value * 10 + digitValue c
  if s.full || 2 ^ 64 ≤ next then { s with full := true }
  else { s with value := next, exponent := s.exponent - 1 }

/-- What the digits before the point come to. -/
def Numeral.significand (n : Numeral) : Significand :=
  n.whole.foldl .whole ⟨0, 0, false⟩

/-- A whole part that has filled the significand leaves room for the fraction all the
same, as long as its digits fit. -/
def Numeral.withFraction (n : Numeral) : Significand :=
  n.fraction.foldl .fraction { n.significand with full := false }

/-! ### The value -/

/-- The magnitude nearest to a power of ten. -/
def powerOfTen (e : Nat) : Magnitude := (Magnitude.ofDecimal 1 e).getD .zero

/-- Divides by `10 ^ 308` as often as told, or until nothing is left. -/
def shrink : Nat → Magnitude → Option Magnitude
  | 0, m => some m
  | k + 1, m => if m.isZero then some m else (m.div (powerOfTen 308)).bind (shrink k)

/-- Multiplies or divides by one power of ten. An exponent too small for one division
is first brought into range, an exponent too large only suits zero. -/
def scale (m : Magnitude) (e : Int) : Option Magnitude :=
  let k := (e.natAbs - 1) / 308
  if e.natAbs ≤ 308 then
    if 0 ≤ e then m.mul (powerOfTen e.natAbs) else m.div (powerOfTen e.natAbs)
  else if m.isZero then some m
  else if 0 ≤ e then none
  else (shrink k m).bind (·.div (powerOfTen (e.natAbs - 308 * k)))

/-- No number when it is too large to be finite. -/
def Numeral.float (n : Numeral) : Option Binary64 :=
  let s := n.withFraction
  let scaled := fun (e : Int) =>
    ((Magnitude.ofRatio s.value 1).bind (scale · (s.exponent + e))).map (.finite n.negative)
  match n.exponent with
  | none => scaled 0
  | some (down, ds) =>
    let e := ofDigits ds
    if e < 2 ^ 31 then scaled (if down then -e else e)
    else if s.value = 0 ∨ down then some (.finite n.negative .zero)
    else none

/-- The number that the parts stand for, an integer where there is neither point nor exponent and
64 bits suffice. Minus zero is no integer. -/
def Numeral.value (n : Numeral) : Option Number :=
  let s := n.significand
  if n.fraction ≠ [] ∨ n.exponent.isSome ∨ s.full then n.float.map .float
  else if !n.negative then some (.natural s.value)
  else if s.value = 0 ∨ 2 ^ 63 < s.value then n.float.map .float
  else some (.negative s.value)

end Criteria.Json
