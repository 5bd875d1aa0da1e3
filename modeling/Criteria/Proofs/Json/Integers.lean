import Criteria.Proofs.Json.Numbers
import Criteria.Proofs.Number.Integers
import Criteria.Proofs.Number.Magnitudes

/-! Integers in a JSON text.

An integer is written with its digits alone (`literal_ofInt`). Up to 64 bits they are kept
(`exists_value_ofInt`). A larger one becomes a floating-point number of seventeen digits or more
(`leading_of_value_ofInt`), and such a number is written with an exponent, so that its text is
not that of an integer (`marked_float`). -/
namespace Criteria.Json

open Text Criteria.Locale

/-- The numeral with which an integer is written. -/
def Numeral.ofInt (m : Int) : Numeral := ⟨decide (m < 0), digits m.natAbs, [], none⟩

variable {ds : List Char} {v : Nat} {n : Numeral} {m : Int} {x : Binary64}

theorem signedDigits_eq (m : Int) :
    signedDigits m = Binary64.signed (decide (m < 0)) (digits m.natAbs) := by
  rw [signedDigits, Binary64.signed]
  by_cases hm : m < 0
  · rw [if_pos hm, if_pos (decide_eq_true hm)]
  · rw [if_neg hm, if_neg (by simpa using hm)]

theorem literal_ofInt (m : Int) : (Numeral.ofInt m).Literal (signedDigits m) := by
  refine ⟨?_, fun ds => digits_leading_zero m.natAbs⟩
  have hwritten := written_plain (decide (m < 0)) (digits_ne_nil m.natAbs)
    (allDigits_digits m.natAbs) allDigits_nil
  rw [pointed, List.append_nil, ← signedDigits_eq] at hwritten
  exact hwritten

/-! ### The significand -/

/-- A full significand only counts. -/
theorem foldl_whole_full (v : Nat) (e : Int) (ds : List Char) :
    ds.foldl Significand.whole ⟨v, e, true⟩ = ⟨v, e + ds.length, true⟩ := by
  induction ds generalizing e with
  | nil => rw [List.foldl_nil, List.length_nil, Int.natCast_zero, Int.add_zero]
  | cons c ds ih =>
    have hstep : Significand.whole ⟨v, e, true⟩ c = ⟨v, e + 1, true⟩ := rfl
    rw [List.foldl_cons, hstep, ih, List.length_cons]
    congr 1
    omega

/-- The number that has been read, or so many of its digits that no other fits. -/
theorem foldl_whole (hv : v < 2 ^ 64) (hds : AllDigits ds) :
    if ds.foldl (fun n c => 10 * n + digitValue c) v < 2 ^ 64 then
      ds.foldl Significand.whole ⟨v, 0, false⟩ =
        ⟨ds.foldl (fun n c => 10 * n + digitValue c) v, 0, false⟩
    else ∃ (w e : Nat), 2 ^ 60 ≤ w ∧ ds.foldl Significand.whole ⟨v, 0, false⟩ = ⟨w, e, true⟩ := by
  induction ds generalizing v with
  | nil => exact (if_pos hv).mpr rfl
  | cons c ds ih =>
    have hc : 48 ≤ c.toNat ∧ c.toNat ≤ 57 := Char.isDigit_iff_toNat.1 (hds c List.mem_cons_self)
    have hnext : Significand.whole ⟨v, 0, false⟩ c =
        if 10 * v + digitValue c < 2 ^ 64 then ⟨10 * v + digitValue c, 0, false⟩
        else ⟨v, 1, true⟩ := by
      simp only [Significand.whole, Bool.false_or, decide_eq_true_eq, Nat.mul_comm v 10]
      split <;> split
      · omega
      · rfl
      · rfl
      · omega
    rw [List.foldl_cons, List.foldl_cons, hnext]
    by_cases hfits : 10 * v + digitValue c < 2 ^ 64
    · rw [if_pos hfits]
      exact ih hfits fun d hd => hds d (List.mem_cons_of_mem c hd)
    · have hmore := le_foldl_digits (10 * v + digitValue c) ds
      rw [if_neg hfits, if_neg (by omega), foldl_whole_full]
      refine ⟨v, 1 + ds.length, ?_, rfl⟩
      rw [digitValue] at hfits
      omega

/-- The digits of an integer fit the significand exactly, or leave a large number in it. -/
theorem significand_ofInt (m : Int) :
    if m.natAbs < 2 ^ 64 then (Numeral.ofInt m).significand = ⟨m.natAbs, 0, false⟩
    else ∃ (w e : Nat), 2 ^ 60 ≤ w ∧ (Numeral.ofInt m).significand = ⟨w, e, true⟩ := by
  have hvalue : (digits m.natAbs).foldl (fun n c => 10 * n + digitValue c) 0 = m.natAbs :=
    ofDigits_digits m.natAbs
  have h := foldl_whole (Nat.two_pow_pos 64) (allDigits_digits m.natAbs)
  rwa [hvalue] at h

/-! ### The value -/

/-- What decides how an integer is kept. -/
theorem value_ofInt {s : Significand} (hs : (Numeral.ofInt m).significand = s) :
    (Numeral.ofInt m).value =
      if s.full ∨ m < 0 ∧ (s.value = 0 ∨ 2 ^ 63 < s.value) then
        (Numeral.ofInt m).float.map .float
      else some (if m < 0 then .negative s.value else .natural s.value) := by
  rw [Numeral.value, hs]
  by_cases hneg : m < 0
  · cases s.full <;> simp [Numeral.ofInt, hneg]
  · cases s.full <;> simp [Numeral.ofInt, hneg]

/-- An integer that 64 bits hold is written again as it was sent. -/
theorem exists_value_ofInt (hm : -2 ^ 63 ≤ m ∧ m < 2 ^ 64) :
    ∃ v, (Numeral.ofInt m).value = some v ∧ v.chars = signedDigits m := by
  have hs := significand_ofInt m
  rw [if_pos (by omega)] at hs
  refine ⟨_, (value_ofInt hs).trans (if_neg ?_), ?_⟩
  · intro hlarge
    rcases hlarge with hfull | ⟨hneg, hbeyond⟩
    · cases hfull
    · dsimp only at hbeyond
      omega
  · rw [signedDigits]
    split <;> rfl

/-- A number with a large significand is still large as a floating-point number. -/
theorem leading_of_float (hfraction : n.fraction = []) (hexponent : n.exponent = none)
    (hvalue : 2 ^ 60 ≤ n.significand.value) (he : 0 ≤ n.significand.exponent)
    (h : n.float = some x) : ∃ y, x = .finite n.negative y ∧ 16 ≤ y.leading := by
  simp only [Numeral.float, Numeral.withFraction, hfraction, hexponent, List.foldl_nil,
    Int.add_zero, Option.map_eq_some_iff, Option.bind_eq_some_iff] at h
  obtain ⟨y, ⟨a, ha, hy⟩, rfl⟩ := h
  have hunits := Magnitude.two_pow_le_of_scale hy he (Magnitude.two_pow_le_of_ofRatio ha hvalue)
  have hpow : ∀ k, 10 ^ 16 * 2 ^ k ≤ 2 ^ (60 + k) := by
    intro k
    rw [Nat.pow_add]
    exact Nat.mul_le_mul_right _ (by decide)
  exact ⟨y, rfl, Magnitude.le_leading_iff (k := 16).2 (Nat.le_trans (hpow 1074) hunits)⟩

/-- An integer beyond 64 bits is read as a number of seventeen digits or more. -/
theorem leading_of_value_ofInt (hm : ¬(-2 ^ 63 ≤ m ∧ m < 2 ^ 64)) {v : Number}
    (hv : (Numeral.ofInt m).value = some v) :
    ∃ y, v = .float (.finite (decide (m < 0)) y) ∧ 16 ≤ y.leading := by
  have hlarge : ∃ s, (Numeral.ofInt m).significand = s ∧ 2 ^ 60 ≤ s.value ∧ 0 ≤ s.exponent ∧
      (s.full ∨ m < 0 ∧ (s.value = 0 ∨ 2 ^ 63 < s.value)) := by
    have hs := significand_ofInt m
    by_cases hfits : m.natAbs < 2 ^ 64
    · rw [if_pos hfits] at hs
      refine ⟨_, hs, ?_, Int.le_refl 0, .inr ?_⟩ <;> dsimp only <;> omega
    · rw [if_neg hfits] at hs
      obtain ⟨w, e, hw, hs⟩ := hs
      exact ⟨_, hs, hw, Int.natCast_nonneg e, .inl rfl⟩
  obtain ⟨s, hs, hvalue, he, hlarge⟩ := hlarge
  rw [value_ofInt hs, if_pos hlarge] at hv
  obtain ⟨x, hx, rfl⟩ := Option.map_eq_some_iff.1 hv
  obtain ⟨y, rfl, hy⟩ := leading_of_float rfl rfl (hs ▸ hvalue) (hs ▸ he) hx
  exact ⟨y, rfl, hy⟩

/-! ### The text of a large number -/

theorem marked_scientific (d : Decimal) : Marked d.scientific := by
  obtain ⟨c, es, hdigits⟩ := List.exists_cons_of_ne_nil (digits_ne_nil d.coefficient)
  have hc : c.isDigit = true := allDigits_digits d.coefficient c (hdigits ▸ List.mem_cons_self)
  obtain ⟨e, r, hexponent⟩ := List.exists_cons_of_ne_nil (digits_ne_nil d.leading.natAbs)
  refine ⟨c, if (c :: es).length ≤ 1 then [] else '.' :: es, 'e',
    (if d.leading < 0 then '-' else '+') :: e :: r, ?_, .inl hc, rfl, ?_⟩
  · simp [Decimal.scientific, hdigits, hexponent]
  · cases r with
    | nil => rfl
    | cons b r => split <;> rfl

/-- The text of a number of seventeen digits or more has an exponent. -/
theorem marked_float {y : Magnitude} (hy : 16 ≤ y.leading) (negative : Bool) :
    Marked (Number.float (.finite negative y)).chars := by
  have hzero : Marked ['0', '.', '0'] := ⟨'0', [], '.', ['0'], rfl, .inl rfl, rfl, rfl⟩
  have hnone : Decimal.positional ⟨0, 0⟩ ['.', '0'] = ['0', '.', '0'] := by
    simp [Decimal.positional, Decimal.leading, digits, digitChar]
  simp only [Number.chars, Binary64.jsonText, Binary64.jsonChars?, String.toList_ofList]
  refine Marked.signed ?_ negative
  split
  · exact hzero
  rcases Magnitude.le_leading_of_shortest hy .even with h | h
  · rw [h, if_pos (by simp [Decimal.leading, digits]), hnone]
    exact hzero
  · rw [if_neg (by omega)]
    exact marked_scientific _

end Criteria.Json
