import Criteria.Text.Digits

/-! Integers of 64 bits, read from the left.

A sign may come first and digits must follow, nothing else. The first character that
is no digit and the first digit that makes the number too large are faults, whichever
comes first. -/
namespace Criteria.Text

/-- Why a text is no integer of 64 bits. -/
inductive IntegerFault
  | empty
  | invalidDigit
  | tooLarge
  | tooSmall
deriving DecidableEq

def IntegerFault.message : IntegerFault → String
  | .empty => "cannot parse integer from empty string"
  | .invalidDigit => "invalid digit found in string"
  | .tooLarge => "number too large to fit in target type"
  | .tooSmall => "number too small to fit in target type"

/-- The value of `n` followed by the digits `cs`, if it never exceeds `limit`. -/
def magnitude (limit : Nat) (beyond : IntegerFault) (n : Nat) : List Char → Except IntegerFault Nat
  | [] => .ok n
  | c :: r =>
    if c.isDigit then
      if 10 * n + digitValue c ≤ limit then magnitude limit beyond (10 * n + digitValue c) r
      else .error beyond
    else .error .invalidDigit

/-- An integer of 64 bits with a sign. A sign alone is a bad digit. -/
def readSigned : List Char → Except IntegerFault Int
  | [] => .error .empty
  | ['+'] => .error .invalidDigit
  | ['-'] => .error .invalidDigit
  | '+' :: r => (magnitude (2 ^ 63 - 1) .tooLarge 0 r).map (Int.ofNat ·)
  | '-' :: r => (magnitude (2 ^ 63) .tooSmall 0 r).map (-Int.ofNat ·)
  | r => (magnitude (2 ^ 63 - 1) .tooLarge 0 r).map (Int.ofNat ·)

/-- A natural number of 64 bits. Only a plus may stand before it. -/
def readUnsigned : List Char → Except IntegerFault Nat
  | [] => .error .empty
  | ['+'] => .error .invalidDigit
  | '+' :: r => magnitude (2 ^ 64 - 1) .tooLarge 0 r
  | r => magnitude (2 ^ 64 - 1) .tooLarge 0 r

end Criteria.Text
