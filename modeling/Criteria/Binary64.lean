import Criteria.Text.Digits

/-! Floating-point numbers of 64 bits.

A finite magnitude is a whole number of `unit`s, the smallest positive number
`2 ^ -1074`: a significand of at most 53 bits shifted left. `roundUnits` takes any
ratio of natural numbers to the nearest magnitude, a tie to the even significand,
and has no answer only past the largest finite one; `ofRatio`, `mul` and `div` are
the exact result rounded so. -/
namespace Criteria

/-- A finite number without its sign, `significand · 2 ^ (shift - 1074)`. Only the
numbers below the smallest normal one have a short significand. -/
structure Magnitude where
  significand : Nat
  shift : Nat
  significand_lt : significand < 2 ^ 53
  shift_le : shift ≤ 2045
  normal : shift = 0 ∨ 2 ^ 52 ≤ significand
deriving DecidableEq

/-- A number of 64 bits. Zero has two signs; what is not a number has neither sign nor payload. -/
inductive Binary64
  | nan
  | infinite (negative : Bool)
  | finite (negative : Bool) (magnitude : Magnitude)
deriving DecidableEq

namespace Magnitude

/-- How many times the smallest positive number. -/
def units (m : Magnitude) : Nat := m.significand * 2 ^ m.shift

/-- The smallest magnitude; both zeros have it. -/
def zero : Magnitude := ⟨0, 0, by decide, by decide, .inl rfl⟩

def isZero (m : Magnitude) : Bool := m.significand == 0

instance : Inhabited Magnitude := ⟨zero⟩

/-! ### Rounding -/

/-- `n / d` to the nearest natural number, a tie to the even one. -/
def nearest (n d : Nat) : Nat :=
  let q := n / d
  let r := n % d
  if 2 * r < d then q
  else if d < 2 * r then q + 1
  else if q % 2 = 0 then q else q + 1

theorem div_le_nearest (n d : Nat) : n / d ≤ nearest n d := by
  unfold nearest; grind

theorem nearest_le_succ (n d : Nat) : nearest n d ≤ n / d + 1 := by
  unfold nearest; grind

/-- The shift that leaves 53 bits of a whole number, or all of a shorter one. -/
def fit (n : Nat) : Nat := n.log2 - 52

theorem lt_two_pow_fit (n : Nat) : n / 2 ^ fit n < 2 ^ 53 := by
  rw [Nat.div_lt_iff_lt_mul (Nat.two_pow_pos _), ← Nat.pow_add]
  exact Nat.lt_of_lt_of_le (Nat.lt_log2_self (n := n))
    (Nat.pow_le_pow_right (by decide) (by unfold fit; omega))

theorem two_pow_le_fit {n : Nat} (h : fit n ≠ 0) : 2 ^ 52 ≤ n / 2 ^ fit n := by
  rw [Nat.le_div_iff_mul_le (Nat.two_pow_pos _), ← Nat.pow_add]
  have hn : n ≠ 0 := by rintro rfl; exact h (by decide)
  exact Nat.le_trans (Nat.pow_le_pow_right (by decide) (by unfold fit at h ⊢; omega))
    (Nat.log2_self_le hn)

theorem nearest_fit_le (n d : Nat) : nearest n (d * 2 ^ fit (n / d)) ≤ 2 ^ 53 := by
  refine Nat.le_trans (nearest_le_succ _ _) ?_
  rw [← Nat.div_div_eq_div_mul]
  exact lt_two_pow_fit _

theorem le_nearest_fit {n d : Nat} (h : fit (n / d) ≠ 0) :
    2 ^ 52 ≤ nearest n (d * 2 ^ fit (n / d)) := by
  refine Nat.le_trans ?_ (div_le_nearest _ _)
  rw [← Nat.div_div_eq_div_mul]
  exact two_pow_le_fit h

/-- `n / d` units, rounded; nothing past the largest finite magnitude. -/
def roundUnits (n d : Nat) : Option Magnitude :=
  let shift := fit (n / d)
  let m := nearest n (d * 2 ^ shift)
  if hm : m < 2 ^ 53 then
    if hs : shift ≤ 2045 then
      some ⟨m, shift, hm, hs, (Decidable.em (shift = 0)).imp_right le_nearest_fit⟩
    else none
  else if hs : shift + 1 ≤ 2045 then
    some ⟨2 ^ 52, shift + 1, by decide, hs, .inr (Nat.le_refl _)⟩
  else none

/-! ### Arithmetic -/

/-- The magnitude nearest to `n / d`. -/
def ofRatio (n d : Nat) : Option Magnitude := roundUnits (n * 2 ^ 1074) d

def mul (a b : Magnitude) : Option Magnitude := roundUnits (a.units * b.units) (2 ^ 1074)

def div (a b : Magnitude) : Option Magnitude := roundUnits (a.units * 2 ^ 1074) b.units

/-- The magnitude nearest to `n · 10 ^ e`. -/
def ofDecimal (n : Nat) (e : Int) : Option Magnitude :=
  if 0 ≤ e then ofRatio (n * 10 ^ e.toNat) 1 else ofRatio n (10 ^ e.natAbs)

end Magnitude

namespace Binary64

/-- A magnitude with a sign; beyond the largest one there is only infinity. -/
def ofMagnitude (negative : Bool) : Option Magnitude → Binary64
  | some m => .finite negative m
  | none => .infinite negative

def isFinite : Binary64 → Bool
  | .finite .. => true
  | _ => false

end Binary64

end Criteria
