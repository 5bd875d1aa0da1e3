import Criteria.Proofs.Number.Grammar

/-! Numbers past the largest finite one.

Rounding has no answer from halfway to the next power of two on (`roundUnits_eq_none_iff`), so a
decimal has one just when it is below the `threshold` (`ofDecimal_eq_none_iff`). A literal is judged
in the same way also where the place of its first digit decides alone: it has a finite value just
when it `Fits`, and is infinite otherwise (`value_cases`). -/
namespace Criteria

open Text

namespace Magnitude

variable {n d q : Nat}

/-! ### Rounding -/

/-- Halfway from an odd number a ratio is rounded up. -/
theorem succ_le_nearest_iff (hd : 0 < d) (hq : q % 2 = 1) :
    q + 1 ≤ nearest n d ↔ (2 * q + 1) * d ≤ 2 * n := by
  have hn := Nat.div_add_mod n d
  have hr := Nat.mod_lt n hd
  have hexpand : (2 * q + 1) * d = 2 * (d * q) + d := by
    rw [Nat.add_mul, Nat.one_mul, Nat.mul_assoc, Nat.mul_comm q]
  rw [hexpand]
  rcases Nat.lt_trichotomy (n / d) q with hlt | rfl | hgt
  · have hmul : d * (n / d) + d ≤ d * q := Nat.mul_le_mul_left d hlt
    have hle := nearest_le_succ n d
    omega
  · have hodd : ¬n / d % 2 = 0 := by omega
    simp only [nearest, if_neg hodd, ite_self]
    split <;> omega
  · have hmul : d * q + d ≤ d * (n / d) := Nat.mul_le_mul_left d hgt
    have hle := div_le_nearest n d
    omega

/-- The shift of a ratio is `k` or more just when 53 bits are left of it at `k`, or more bits. -/
theorem le_fit_iff (hd : 0 < d) {k : Nat} (hk : 0 < k) :
    k ≤ fit (n / d) ↔ 2 ^ 52 * (d * 2 ^ k) ≤ n := by
  have hlog : k ≤ fit (n / d) ↔ 2 ^ (52 + k) ≤ n / d := by
    by_cases hn : n / d = 0
    · have hpos := Nat.two_pow_pos (52 + k)
      rw [hn, show fit 0 = 0 from rfl]
      omega
    · rw [← Nat.le_log2 hn, fit]
      omega
  rw [hlog, Nat.le_div_iff_mul_le hd, Nat.pow_add, Nat.mul_assoc, Nat.mul_comm d]

/-- One more shift is needed just when 53 bits do not hold the quotient. -/
theorem lt_fit_iff (hd : 0 < d) {k : Nat} : k < fit (n / d) ↔ 2 ^ 53 * (d * 2 ^ k) ≤ n := by
  have hdouble : 2 ^ 52 * (d * 2 ^ (k + 1)) = 2 ^ 53 * (d * 2 ^ k) := by
    rw [Nat.pow_succ 2 k, ← Nat.mul_assoc d]
    omega
  rw [← Nat.succ_le_iff, le_fit_iff hd (Nat.succ_pos k), hdouble]

/-- There is no rounding where the shift is too large, or would be after a carry. -/
theorem roundUnits_eq_none_iff_fit : roundUnits n d = none ↔
    2045 < fit (n / d) ∨ fit (n / d) = 2045 ∧ 2 ^ 53 ≤ nearest n (d * 2 ^ fit (n / d)) := by
  simp only [roundUnits]
  split
  next hm =>
    have hcarry : ¬2 ^ 53 ≤ nearest n (d * 2 ^ fit (n / d)) := Nat.not_le_of_lt hm
    simp only [hcarry, and_false, or_false]
    split
    next hs => simpa using hs
    next hs => simpa using hs
  next hm =>
    have hcarry : 2 ^ 53 ≤ nearest n (d * 2 ^ fit (n / d)) := Nat.not_lt.1 hm
    simp only [hcarry, and_true]
    split
    next hs => simp only [reduceCtorEq, false_iff]; omega
    next hs => simp only [true_iff]; omega

/-- A ratio of units has no rounding just when it is halfway from the largest magnitude to the next
power of two, or beyond. -/
theorem roundUnits_eq_none_iff (hd : 0 < d) :
    roundUnits n d = none ↔ (2 ^ 54 - 1) * (d * 2 ^ 2045) ≤ 2 * n := by
  have hleast := le_fit_iff (n := n) hd (k := 2045) (by decide)
  have hpast := lt_fit_iff (n := n) hd (k := 2045)
  have hcarry : ∀ last, 0 < last → (2 ^ 53 ≤ nearest n last ↔ (2 ^ 54 - 1) * last ≤ 2 * n) :=
    fun last hlast => succ_le_nearest_iff hlast rfl
  have hlast := hcarry (d * 2 ^ 2045) (Nat.mul_pos hd (Nat.two_pow_pos 2045))
  rw [roundUnits_eq_none_iff_fit]
  -- the carry decides at the largest shift only
  by_cases he : fit (n / d) = 2045
  · rw [he]
    generalize d * 2 ^ 2045 = last at hleast hpast hlast ⊢
    omega
  · generalize d * 2 ^ 2045 = last at hleast hpast ⊢
    omega

/-! ### Decimals -/

/-- Halfway from the largest finite magnitude, `(2 ^ 53 - 1) * 2 ^ 971`, to `2 ^ 1024`. -/
def threshold : Nat := (2 ^ 54 - 1) * 2 ^ 970

theorem threshold_pos : 0 < threshold := by decide +kernel

theorem threshold_mul_le {j k : Nat} (h : 310 + j ≤ k) : threshold * 10 ^ j ≤ 10 ^ k := by
  have hthreshold : threshold ≤ 10 ^ 310 := by decide +kernel
  have hpow : 10 ^ (310 + j) ≤ 10 ^ k := Nat.pow_le_pow_right (by decide) h
  rw [Nat.pow_add 10 310] at hpow
  exact Nat.le_trans (Nat.mul_le_mul_right _ hthreshold) hpow

/-- A power of two on both sides of a bound is left out. -/
theorem mul_units_le_iff {i j k : Nat} (hi : i = j + (k + 1)) (a : Nat) :
    a * (d * 2 ^ i) ≤ 2 * (n * 2 ^ k) ↔ a * 2 ^ j * d ≤ n := by
  have hleft : a * (d * 2 ^ i) = a * 2 ^ j * d * 2 ^ (k + 1) := by
    rw [hi, Nat.pow_add]
    ac_rfl
  have hright : 2 * (n * 2 ^ k) = n * 2 ^ (k + 1) := by
    rw [Nat.pow_succ]
    ac_rfl
  rw [hleft, hright, Nat.mul_le_mul_right_iff (Nat.two_pow_pos (k + 1))]

/-- Only ratios from the threshold on are too large. -/
theorem ofRatio_eq_none_iff (hd : 0 < d) : ofRatio n d = none ↔ threshold * d ≤ n := by
  rw [ofRatio, roundUnits_eq_none_iff hd, threshold,
    mul_units_le_iff (show 2045 = 970 + (1074 + 1) from rfl)]

/-- A decimal has a finite magnitude nearest to it just when it is below the threshold. -/
theorem ofDecimal_eq_none_iff {e : Int} :
    ofDecimal n e = none ↔ threshold * 10 ^ (-e).toNat ≤ n * 10 ^ e.toNat := by
  rw [ofDecimal]
  split
  next he =>
    have hneg : (-e).toNat = 0 := by omega
    rw [ofRatio_eq_none_iff Nat.zero_lt_one, hneg, Nat.pow_zero]
  next he =>
    have hpos : e.toNat = 0 := by omega
    have habs : e.natAbs = (-e).toNat := by omega
    rw [ofRatio_eq_none_iff (Nat.pow_pos (by decide)), hpos, habs, Nat.pow_zero, Nat.mul_one]

end Magnitude

/-! ### Literals -/

namespace Literal

open Magnitude

variable {l : Literal} {cs : List Char}

/-- The number that is written is below the threshold of the finite ones. -/
def Fits (l : Literal) : Prop :=
  ofDigits l.digits * 10 ^ l.exponent.toNat < threshold * 10 ^ (-l.exponent).toNat

instance : Decidable l.Fits := inferInstanceAs (Decidable (_ < _))

theorem allDigits_of_read? (h : read? cs = some l) : AllDigits l.digits := by
  simp only [read?] at h
  generalize (sign cs).2 = r at h
  have htaken : ∀ t : List Char, AllDigits (t.takeWhile Char.isDigit) :=
    fun t c hc => List.mem_takeWhile_imp hc
  split at h <;> split at h
  · cases h
  · obtain ⟨e, -, rfl⟩ := Option.map_eq_some_iff.1 h
    exact allDigits_append (htaken r) (htaken _)
  · cases h
  · obtain ⟨e, -, rfl⟩ := Option.map_eq_some_iff.1 h
    exact allDigits_append (htaken r) allDigits_nil

/-- **What a literal is worth.** One that fits is a finite number, and one that does not is
infinite, of the sign that is written. -/
theorem value_cases (hds : AllDigits l.digits) :
    (l.Fits ∧ ∃ m, l.value = .finite l.negative m) ∨ ¬l.Fits ∧ l.value = .infinite l.negative := by
  have hzeros := ofDigits_dropWhile_zeros l.digits
  have hleft : AllDigits (l.digits.dropWhile (· == '0')) :=
    fun c hc => hds c (List.dropWhile_subset _ hc)
  have hpow : ∀ {j k : Nat}, j ≤ k → 10 ^ j ≤ 10 ^ k := Nat.pow_le_pow_right (by decide)
  simp only [value, Fits, ← hzeros]
  cases hrest : l.digits.dropWhile (· == '0') with
  | nil =>
    have hpos : 0 < threshold * 10 ^ (-l.exponent).toNat :=
      Nat.mul_pos threshold_pos (Nat.pow_pos (by decide))
    exact .inl ⟨by rwa [show ofDigits [] = 0 from rfl, Nat.zero_mul], _, rfl⟩
  | cons c ds =>
    have hc : c ≠ '0' := by
      rintro rfl
      have hkept := List.head?_dropWhile_not (· == '0') l.digits
      simp [hrest] at hkept
    rw [hrest] at hleft
    have hupper := ofDigits_lt hleft
    have hlower := le_ofDigits_cons (hleft c List.mem_cons_self) hc ds
    generalize ofDigits (c :: ds) = n at hupper hlower ⊢
    rw [List.length_cons] at hupper ⊢
    simp only [reduceCtorEq, false_or]
    split
    next hlow =>
      -- the number is below one
      have hzero : l.exponent.toNat = 0 := by omega
      have hplaces : ds.length + 1 ≤ (-l.exponent).toNat := by omega
      have hone := Nat.mul_le_mul_right (10 ^ (-l.exponent).toNat) threshold_pos
      have hscale := hpow hplaces
      rw [hzero, Nat.pow_zero, Nat.mul_one]
      exact .inl ⟨by omega, _, rfl⟩
    next hlow =>
      split
      next hhigh =>
        have hlarge : threshold * 10 ^ (-l.exponent).toNat ≤ n * 10 ^ l.exponent.toNat :=
          calc threshold * 10 ^ (-l.exponent).toNat
            _ ≤ 10 ^ (ds.length + l.exponent.toNat) := threshold_mul_le (by omega)
            _ = 10 ^ ds.length * 10 ^ l.exponent.toNat := Nat.pow_add ..
            _ ≤ n * 10 ^ l.exponent.toNat := Nat.mul_le_mul_right _ hlower
        exact .inr ⟨Nat.not_lt_of_le hlarge, rfl⟩
      next hhigh =>
        cases hm : ofDecimal n l.exponent with
        | none => exact .inr ⟨Nat.not_lt_of_le (ofDecimal_eq_none_iff.1 hm), rfl⟩
        | some m =>
          refine .inl ⟨Nat.lt_of_not_le fun hlarge => ?_, m, rfl⟩
          cases hm.symm.trans (ofDecimal_eq_none_iff.2 hlarge)

end Literal
end Criteria
