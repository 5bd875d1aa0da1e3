/-! Numerals.

`digits` writes a number in base ten without leading zeros and `ofDigits` reads
one. They fit (`ofDigits_digits`), and nothing but digits is written
(`isDigit_of_mem_digits`). `hexDigits` is the same in base sixteen. -/
namespace Criteria.Text

-- A power is read as that of core throughout, also where a hierarchy of algebraic structures
-- is in scope and offers its own.
attribute [instance (2000)] instPowNat

attribute [default_instance 20000] instPowNat

/-! ### Base ten -/

def digitChar (d : Nat) : Char := Char.ofNat (48 + d)

def digitValue (c : Char) : Nat := c.toNat - 48

/-- A number in base ten, without leading zeros. -/
def digits (n : Nat) : List Char :=
  if n < 10 then [digitChar n] else digits (n / 10) ++ [digitChar (n % 10)]

/-- The number that digits in base ten stand for. -/
def ofDigits (cs : List Char) : Nat :=
  cs.foldl (fun n c => 10 * n + digitValue c) 0

/-- At least `width` characters, filled with zeros on the left. -/
def padded (width n : Nat) : List Char :=
  List.replicate (width - (digits n).length) '0' ++ digits n

/-- A sign only when negative. -/
def signedDigits (i : Int) : List Char :=
  if i < 0 then '-' :: digits i.natAbs else digits i.natAbs

def decimal (n : Nat) : String := String.ofList (digits n)

theorem isDigit_digitChar : ∀ d < 10, (digitChar d).isDigit = true := by decide

theorem digitValue_digitChar : ∀ d < 10, digitValue (digitChar d) = d := by decide

theorem isDigit_of_mem_digits {c : Char} {n : Nat} (h : c ∈ digits n) : c.isDigit = true := by
  fun_induction digits n with
  | case1 n hn => simp only [List.mem_singleton] at h; exact h ▸ isDigit_digitChar n hn
  | case2 n _ ih =>
    rcases List.mem_append.1 h with h | h
    · exact ih h
    · simp only [List.mem_singleton] at h
      exact h ▸ isDigit_digitChar _ (Nat.mod_lt _ (by decide))

theorem digits_ne_nil (n : Nat) : digits n ≠ [] := by
  rw [digits]; split <;> simp

theorem ofDigits_concat (cs : List Char) (c : Char) :
    ofDigits (cs ++ [c]) = 10 * ofDigits cs + digitValue c := by
  simp [ofDigits]

theorem ofDigits_digits (n : Nat) : ofDigits (digits n) = n := by
  fun_induction digits n with
  | case1 n hn => simp [ofDigits, digitValue_digitChar n hn]
  | case2 n _ ih =>
    rw [ofDigits_concat, ih, digitValue_digitChar _ (Nat.mod_lt _ (by decide))]
    omega

/-! ### Base sixteen -/

def hexChar (d : Nat) : Char := if d < 10 then Char.ofNat (48 + d) else Char.ofNat (87 + d)

/-- A number in base sixteen, in small letters and without leading zeros. -/
def hexDigits (n : Nat) : List Char :=
  if n < 16 then [hexChar n] else hexDigits (n / 16) ++ [hexChar (n % 16)]

/-- The value of a digit in base sixteen, in either case. -/
def hexValue? (c : Char) : Option Nat :=
  let n := c.toNat
  if 48 ≤ n ∧ n ≤ 57 then some (n - 48)
  else if 97 ≤ n ∧ n ≤ 102 then some (n - 87)
  else if 65 ≤ n ∧ n ≤ 70 then some (n - 55)
  else none

theorem hexValue?_hexChar : ∀ d < 16, hexValue? (hexChar d) = some d := by decide

/-! ### Size -/

-- the zero of a sum is core's, as powers are
attribute [local instance (2000)] Zero.ofOfNat0

/-- The length of a text in UTF-8. -/
def byteLength (cs : List Char) : Nat := (cs.map Char.utf8Size).sum

end Criteria.Text
