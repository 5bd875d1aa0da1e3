import Criteria.Proofs.Number.Written

/-! Bounds on magnitudes and on the digits that are shown of them.

Rounding does not take a number below a power of two (`two_pow_le_of_roundUnits`), so a whole
number that is multiplied by a power of ten is no smaller afterwards (`two_pow_le_of_scale`). The
place of the first digit tells how large a magnitude is (`le_leading_iff`), and a decimal that is
chosen for a large one is no shorter before its point (`le_leading_of_shortest`). -/
namespace Criteria

open Text Json

namespace Magnitude

variable {m x : Magnitude} {n d k : Nat}

/-! ### Rounding -/

/-- The bits that are left of a whole number are worth no less than a power of two below it. -/
theorem two_pow_le_of_fit (h : 2 ^ k ≤ n) : 2 ^ k ≤ n / 2 ^ fit n * 2 ^ fit n := by
  by_cases hk : fit n ≤ k
  · have hdiv : 2 ^ (k - fit n) ≤ n / 2 ^ fit n := by
      rw [Nat.le_div_iff_mul_le (Nat.two_pow_pos _), ← Nat.pow_add, Nat.sub_add_cancel hk]
      exact h
    calc 2 ^ k = 2 ^ (k - fit n) * 2 ^ fit n := by rw [← Nat.pow_add, Nat.sub_add_cancel hk]
      _ ≤ n / 2 ^ fit n * 2 ^ fit n := Nat.mul_le_mul_right _ hdiv
  · have hpos : 1 ≤ n / 2 ^ fit n := Nat.le_trans Nat.one_le_two_pow (two_pow_le_fit (by omega))
    calc 2 ^ k ≤ 2 ^ fit n := Nat.pow_le_pow_right (by decide) (by omega)
      _ ≤ n / 2 ^ fit n * 2 ^ fit n := Nat.le_mul_of_pos_left _ hpos

/-- Rounding does not go below a power of two. -/
theorem two_pow_le_of_roundUnits (h : roundUnits n d = some m) (hk : 2 ^ k ≤ n / d) :
    2 ^ k ≤ m.units := by
  have hnearest : n / d / 2 ^ fit (n / d) ≤ nearest n (d * 2 ^ fit (n / d)) := by
    rw [Nat.div_div_eq_div_mul]
    exact div_le_nearest _ _
  have hfit := Nat.le_trans (two_pow_le_of_fit hk) (Nat.mul_le_mul_right _ hnearest)
  simp only [roundUnits] at h
  split at h
  next hm =>
    split at h
    · cases h
      exact hfit
    · cases h
  next hm =>
    split at h
    · cases h
      have hfull : nearest n (d * 2 ^ fit (n / d)) = 2 ^ 53 :=
        Nat.le_antisymm (nearest_fit_le n d) (Nat.not_lt.1 hm)
      calc 2 ^ k ≤ 2 ^ 53 * 2 ^ fit (n / d) := hfull ▸ hfit
        _ = 2 ^ 52 * 2 ^ (fit (n / d) + 1) := by rw [Nat.pow_succ _ (fit _)]; omega
    · cases h

/-- Rounding does not go below a power of two. -/
theorem two_pow_le_of_ofRatio (h : ofRatio n 1 = some m) (hk : 2 ^ k ≤ n) :
    2 ^ (k + 1074) ≤ m.units := by
  refine two_pow_le_of_roundUnits h ?_
  rw [Nat.div_one, Nat.pow_add]
  exact Nat.mul_le_mul_right _ hk

/-- A factor of one or more does not take a product below a power of two. -/
theorem two_pow_le_of_mul {a b : Magnitude} (h : a.mul b = some m) (ha : 2 ^ k ≤ a.units)
    (hb : 2 ^ 1074 ≤ b.units) : 2 ^ k ≤ m.units := by
  refine two_pow_le_of_roundUnits h ?_
  rw [Nat.le_div_iff_mul_le (Nat.two_pow_pos 1074)]
  exact Nat.mul_le_mul ha hb

/-- A number well below the largest magnitude is rounded to one. -/
theorem isSome_roundUnits (h : n / d < 2 ^ 2097) : (roundUnits n d).isSome = true := by
  have hfit : fit (n / d) + 1 ≤ 2045 := by
    by_cases hn : n / d = 0
    · rw [hn]
      decide
    · have hlog := (Nat.log2_lt hn).2 h
      unfold fit
      omega
  simp only [roundUnits, dif_pos hfit, dif_pos (Nat.le_of_succ_le hfit)]
  split <;> rfl

theorem exists_powerOfTen {e : Nat} (he : e ≤ 308) : ∃ m, ofRatio (1 * 10 ^ e) 1 = some m := by
  refine Option.isSome_iff_exists.1 ?_
  by_cases hlast : e = 308
  · rw [hlast]
    decide +kernel
  · refine isSome_roundUnits ?_
    have hpow : ∀ k, e ≤ k → 10 ^ e ≤ 10 ^ k := fun k => Nat.pow_le_pow_right (by decide)
    rw [Nat.div_one, Nat.one_mul]
    exact Nat.lt_of_le_of_lt (Nat.mul_le_mul_right _ (hpow 307 (by omega))) (by decide +kernel)

theorem two_pow_le_powerOfTen {e : Nat} (he : e ≤ 308) : 2 ^ 1074 ≤ (powerOfTen e).units := by
  obtain ⟨m, hm⟩ := exists_powerOfTen he
  have hone : 2 ^ 0 ≤ 1 * 10 ^ e := by
    rw [Nat.one_mul]
    exact Nat.pow_pos (by decide)
  have hunits := two_pow_le_of_ofRatio hm hone
  rw [Nat.zero_add] at hunits
  rw [powerOfTen, ofDecimal, if_pos (Int.natCast_nonneg e), Int.toNat_natCast, hm]
  exact hunits

/-- Nor does a power of ten, unless it divides. -/
theorem two_pow_le_of_scale {e : Int} (h : scale m e = some x) (he : 0 ≤ e)
    (hm : 2 ^ k ≤ m.units) : 2 ^ k ≤ x.units := by
  simp only [scale, if_pos he] at h
  split at h
  next hsmall => exact two_pow_le_of_mul h hm (two_pow_le_powerOfTen hsmall)
  split at h
  · cases h
    exact hm
  · cases h

/-! ### The place of the first digit -/

theorem pow_le_div_iff (n k a b : Nat) :
    10 ^ (k + a) ≤ n * 10 ^ a / 2 ^ b ↔ 10 ^ k * 2 ^ b ≤ n := by
  rw [Nat.le_div_iff_mul_le (Nat.two_pow_pos b), Nat.pow_add, Nat.mul_right_comm,
    Nat.mul_le_mul_right_iff (Nat.pow_pos (by decide))]

/-- The first digit stands at place `k` or further left just when the magnitude is no less than
`10 ^ k`. -/
theorem le_leading_iff : (k : Int) ≤ m.leading ↔ 10 ^ k * 2 ^ 1074 ≤ m.units := by
  have hdigits := lt_length_digits_iff (Nat.add_pos_right k (by decide : 0 < 400))
    (m.units * 10 ^ 400 / 2 ^ 1074)
  rw [pow_le_div_iff m.units k 400 1074] at hdigits
  rw [← hdigits, leading]
  omega

end Magnitude

namespace Decimal

theorem leading_stripped (d : Decimal) : d.stripped.leading = d.leading := by
  fun_induction stripped d with
  | case1 d h ih =>
    have hten : ¬d.coefficient < 10 := by omega
    have hlength : (digits d.coefficient).length = (digits (d.coefficient / 10)).length + 1 := by
      rw [digits, if_neg hten, List.length_append, List.length_singleton]
    rw [ih, leading, leading, hlength]
    dsimp only
    omega
  | case2 => rfl

end Decimal

namespace Magnitude

variable {m : Magnitude} {tie : Tie} {e : Int} {d : Decimal} {k : Nat}

theorem div_quarters (n t p : Nat) : 4 * n * 1 / (t * 2 ^ (p + 2)) = n / (t * 2 ^ p) := by
  rw [Nat.pow_add, Nat.mul_comm (2 ^ p), Nat.mul_one, Nat.mul_left_comm,
    Nat.mul_div_mul_left _ _ (Nat.two_pow_pos 2)]

/-- One of the two neighbours on the grid is taken. -/
theorem eq_of_onGrid (he : 0 ≤ e) (h : m.onGrid tie e = some d) :
    m.units / (10 ^ e.toNat * 2 ^ 1074) ≤ d.coefficient ∧ d.exponent = e := by
  have hneg : ¬e < 0 := Int.not_lt.2 he
  have hstep : 4 * m.units * 1 / (10 ^ e.toNat * 2 ^ 1076) =
      m.units / (10 ^ e.toNat * 2 ^ 1074) := by
    rw [show 1076 = 1074 + 2 from rfl, div_quarters m.units (10 ^ e.toNat) 1074]
  simp only [onGrid, if_neg hneg, hstep] at h
  split at h
  · cases h
    exact ⟨Nat.le_succ _, rfl⟩
  split at h
  · cases h
    exact ⟨Nat.le_refl _, rfl⟩
  · cases h

theorem le_leading_of_onGrid (he : 0 ≤ e) (hek : e ≤ k) (hm : (k : Int) ≤ m.leading)
    (h : m.onGrid tie e = some d) : (k : Int) ≤ d.leading := by
  obtain ⟨j, rfl⟩ := Int.eq_ofNat_of_zero_le he
  obtain ⟨hcoefficient, hexponent⟩ := eq_of_onGrid he h
  have hjk : j ≤ k := Int.ofNat_le.1 hek
  have hpow : 10 ^ (k - j) ≤ d.coefficient := by
    refine Nat.le_trans ?_ hcoefficient
    rw [Int.toNat_natCast, Nat.le_div_iff_mul_le (Nat.mul_pos (Nat.pow_pos (by decide))
      (Nat.two_pow_pos 1074)), ← Nat.mul_assoc, ← Nat.pow_add, Nat.sub_add_cancel hjk]
    exact le_leading_iff.1 hm
  have hlength := lt_length_digits hpow
  rw [Decimal.leading, hexponent]
  omega

/-- A magnitude of seventeen digits or more is shown by a decimal as long as itself, if by any. -/
theorem le_leading_of_shortest (hm : 16 ≤ m.leading) (tie : Tie) :
    m.shortest tie = ⟨0, 0⟩ ∨ 16 ≤ (m.shortest tie).leading := by
  rw [shortest_of_leading rfl]
  split
  next d hd =>
    obtain ⟨n, hn, h⟩ := List.exists_of_findSome?_eq_some hd
    rw [List.mem_range] at hn
    obtain ⟨k, hk⟩ := Int.eq_ofNat_of_zero_le (Int.le_trans (by decide) hm)
    have hleading : (k : Int) ≤ d.leading :=
      le_leading_of_onGrid (by omega) (by omega) (Int.le_of_eq hk.symm) h
    rw [Decimal.leading_stripped]
    omega
  next => exact .inl rfl

end Magnitude
end Criteria
