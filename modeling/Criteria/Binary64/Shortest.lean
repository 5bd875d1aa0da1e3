import Criteria.Binary64
import Criteria.Text.Digits

/-! The fewest digits that read back.

The reals that round to a magnitude form an interval around it; its ends belong to
it when the significand is even. `shortest` looks for a decimal in that interval,
on the grids of one digit, two digits and so on up to seventeen. On each grid only
the two neighbours of the magnitude can lie in the interval; when both do, the
nearer is taken, and a tie goes as the caller says.

All of it is exact: everything is counted in quarters of the smallest positive
number, scaled so that the grid is whole. -/
namespace Criteria

/-- `coefficient · 10 ^ exponent`. -/
structure Decimal where
  coefficient : Nat
  exponent : Int
deriving DecidableEq

/-- Which of two equally near decimals is taken. -/
inductive Tie
  | up
  | even
deriving DecidableEq

namespace Decimal

/-- Without zeros at the end. -/
def stripped (d : Decimal) : Decimal :=
  if _h : d.coefficient ≠ 0 ∧ d.coefficient % 10 = 0 then
    stripped ⟨d.coefficient / 10, d.exponent + 1⟩
  else d
termination_by d.coefficient
decreasing_by omega

/-- The exponent of the first digit. -/
def leading (d : Decimal) : Int := d.exponent + (Text.digits d.coefficient).length - 1

end Decimal

namespace Magnitude

/-- The interval of the reals that round to a magnitude, in quarters of a unit. -/
structure Interval where
  low : Nat
  high : Nat
  closed : Bool

/-- What rounds to `m`: half a unit each way, but only a quarter downwards from a power of two.
The ends belong to it when the significand is even. -/
def interval (m : Magnitude) : Interval :=
  let below := if m.significand = 2 ^ 52 ∧ m.shift ≠ 0 then 1 else 2
  { low := (4 * m.significand - below) * 2 ^ m.shift
    high := (4 * m.significand + 2) * 2 ^ m.shift
    closed := m.significand % 2 == 0 }

def Interval.contains (i : Interval) (scale n : Nat) : Bool :=
  if i.closed then i.low * scale ≤ n && n ≤ i.high * scale
  else i.low * scale < n && n < i.high * scale

/-- The exponent of the first digit: a magnitude keeps its leading digit on the grid
of `10 ^ (-400)`, where it is far above one. -/
def leading (m : Magnitude) : Int :=
  (Text.digits (m.units * 10 ^ 400 / 2 ^ 1074)).length - 401

/-- The decimal with last digit at `10 ^ e` that reads back, if there is one. -/
def onGrid (m : Magnitude) (tie : Tie) (e : Int) : Option Decimal :=
  let scale := if e < 0 then 10 ^ e.natAbs else 1
  let step := (if e < 0 then 1 else 10 ^ e.toNat) * 2 ^ 1076
  let value := 4 * m.units * scale
  let c := value / step
  let r := value % step
  let below := m.interval.contains scale (c * step)
  let above := m.interval.contains scale ((c + 1) * step)
  let up := 2 * r > step || (2 * r == step && (tie == .up || c % 2 == 1))
  if above && (!below || up) then some ⟨c + 1, e⟩
  else if below then some ⟨c, e⟩
  else none

/-- The shortest decimal that reads back as `m`. -/
def shortest (m : Magnitude) (tie : Tie) : Decimal :=
  let first := m.leading
  match (List.range 17).findSome? fun (n : Nat) => m.onGrid tie (first - n) with
  | some d => d.stripped
  | none => ⟨0, 0⟩

end Magnitude
end Criteria
