import Criteria.Text.Digits
import Mathlib.Data.List.TakeWhile

/-! Runs of digits.

A run of digits ends where something else comes (`takeWhile_digits`, `dropWhile_digits`). The
digits of a number tell how large it is (`lt_length_digits_iff`). Zeros in front change
nothing of that, and so a number of at most `w` digits is read back from `w` of them
(`ofDigits_padded`, `length_padded`). -/
namespace Criteria.Text

variable {ds r : List Char}

/-! ### Runs of digits -/

def AllDigits (ds : List Char) : Prop := ∀ c ∈ ds, c.isDigit = true

theorem allDigits_nil : AllDigits [] := fun _ hc => absurd hc List.not_mem_nil

theorem allDigits_digits (k : Nat) : AllDigits (digits k) := fun _ hc => isDigit_of_mem_digits hc

theorem allDigits_zeros (k : Nat) : AllDigits (List.replicate k '0') := by
  intro c hc
  rw [List.eq_of_mem_replicate hc]
  rfl

theorem allDigits_append {es : List Char} (hds : AllDigits ds) (hes : AllDigits es) :
    AllDigits (ds ++ es) := fun c hc => (List.mem_append.1 hc).elim (hds c) (hes c)

/-- A run of digits ends here. -/
def NoDigit (r : List Char) : Prop := ∀ c ∈ r.head?, c.isDigit = false

theorem noDigit_nil : NoDigit [] := fun _ hc => absurd hc (Option.not_mem_none _)

theorem noDigit_cons {c : Char} (hc : c.isDigit = false) (r : List Char) : NoDigit (c :: r) := by
  intro d hd
  cases hd
  exact hc

/-- Only the empty text both is digits and starts with none. -/
theorem eq_nil_of_digits (hds : AllDigits ds) (hnone : NoDigit ds) : ds = [] := by
  cases ds with
  | nil => rfl
  | cons d ds => cases (hds d List.mem_cons_self).symm.trans (hnone d rfl)

/-- No digit that comes after counts with those before. -/
theorem takeWhile_append_noDigit (hr : NoDigit r) (s : List Char) :
    (s ++ r).takeWhile Char.isDigit = s.takeWhile Char.isDigit := by
  induction s with
  | nil =>
    cases r with
    | nil => rfl
    | cons c r => simp [hr c rfl]
  | cons c s ih =>
    by_cases hc : c.isDigit
    · rw [List.cons_append, List.takeWhile_cons_of_pos hc, List.takeWhile_cons_of_pos hc, ih]
    · rw [List.cons_append, List.takeWhile_cons_of_neg hc, List.takeWhile_cons_of_neg hc]

theorem takeWhile_digits (hds : AllDigits ds) (hr : NoDigit r) :
    (ds ++ r).takeWhile Char.isDigit = ds :=
  (takeWhile_append_noDigit hr ds).trans (List.takeWhile_eq_self_iff.2 hds)

theorem dropWhile_digits (hds : AllDigits ds) (hr : NoDigit r) :
    (ds ++ r).dropWhile Char.isDigit = r := by
  rw [List.dropWhile_append_of_pos hds]
  cases r with
  | nil => rfl
  | cons c r => simp [hr c rfl]

/-- It is known where a run of digits ends. -/
theorem digits_append_inj {es s : List Char} (hds : AllDigits ds) (hr : NoDigit r)
    (hes : AllDigits es) (hs : NoDigit s) (h : ds ++ r = es ++ s) : ds = es ∧ r = s := by
  have he : ds = es := by rw [← takeWhile_digits hds hr, h, takeWhile_digits hes hs]
  subst he
  exact ⟨rfl, List.append_cancel_left h⟩

theorem NoDigit.append {s : List Char} (hs : NoDigit s) (hr : NoDigit r) : NoDigit (s ++ r) := by
  cases s with
  | nil => exact hr
  | cons c s => exact hs

/-! ### How many digits -/

/-- The count of digits says between which powers of ten a number lies. -/
theorem lt_length_digits_iff {k : Nat} (hk : 0 < k) (n : Nat) :
    k < (digits n).length ↔ 10 ^ k ≤ n := by
  induction k generalizing n with
  | zero => cases hk
  | succ k ih =>
    have hten : 10 ≤ 10 ^ (k + 1) := Nat.le_self_pow (Nat.succ_ne_zero k) 10
    rw [digits]
    split
    next h =>
      simp only [List.length_singleton]
      omega
    next h =>
      have hdiv : 10 ^ (k + 1) ≤ n ↔ 10 ^ k ≤ n / 10 := by
        rw [Nat.pow_succ]
        omega
      rw [hdiv, List.length_append, List.length_singleton, Nat.add_lt_add_iff_right]
      rcases Nat.eq_zero_or_pos k with rfl | hk
      · have hne := List.length_pos_iff.2 (digits_ne_nil (n / 10))
        omega
      · exact ih hk (n / 10)

theorem lt_length_digits {k n : Nat} (h : 10 ^ k ≤ n) : k < (digits n).length := by
  rcases Nat.eq_zero_or_pos k with rfl | hk
  · exact List.length_pos_iff.2 (digits_ne_nil n)
  · exact (lt_length_digits_iff hk n).2 h

/-- No number starts with a zero, except zero. -/
theorem digits_leading_zero (n : Nat) {ds : List Char} (h : digits n = '0' :: ds) : ds = [] := by
  fun_induction digits n generalizing ds with
  | case1 n _ => exact (List.cons.inj h).2.symm
  | case2 n hn ih =>
    obtain ⟨c, cs, hcs⟩ := List.exists_cons_of_ne_nil (digits_ne_nil (n / 10))
    rw [hcs, List.cons_append, List.cons.injEq] at h
    obtain ⟨rfl, -⟩ := h
    -- what stands before the last digit would be zero
    have hzero : ofDigits (digits (n / 10)) = 0 := by rw [hcs, ih hcs]; rfl
    rw [ofDigits_digits] at hzero
    omega

/-- More digits make a number no smaller. -/
theorem le_foldl_digits (n : Nat) (ds : List Char) :
    n ≤ ds.foldl (fun n c => 10 * n + digitValue c) n := by
  induction ds generalizing n with
  | nil => exact Nat.le_refl n
  | cons c ds ih => exact Nat.le_trans (by omega) (ih (10 * n + digitValue c))

/-- What has been read counts ten times as much with every digit that follows. -/
theorem foldl_digits (n : Nat) (ds : List Char) :
    ds.foldl (fun n c => 10 * n + digitValue c) n = n * 10 ^ ds.length + ofDigits ds := by
  unfold ofDigits
  induction ds generalizing n with
  | nil => simp
  | cons c ds ih =>
    rw [List.foldl_cons, List.foldl_cons, ih (10 * n + digitValue c), ih (10 * 0 + digitValue c),
      List.length_cons, Nat.mul_zero, Nat.zero_add, Nat.add_mul, Nat.pow_succ', Nat.mul_comm 10 n,
      Nat.mul_assoc, Nat.add_assoc]

theorem ofDigits_cons (c : Char) (ds : List Char) :
    ofDigits (c :: ds) = digitValue c * 10 ^ ds.length + ofDigits ds := by
  rw [← foldl_digits, ofDigits, List.foldl_cons, Nat.mul_zero, Nat.zero_add]

theorem ofDigits_lt (hds : AllDigits ds) : ofDigits ds < 10 ^ ds.length := by
  induction ds with
  | nil => exact Nat.zero_lt_one
  | cons c ds ih =>
    have hc : 48 ≤ c.toNat ∧ c.toNat ≤ 57 := Char.isDigit_iff_toNat.1 (hds c List.mem_cons_self)
    have hrest := ih fun d hd => hds d (List.mem_cons_of_mem c hd)
    have hvalue : digitValue c ≤ 9 := by
      rw [digitValue]
      omega
    have hfirst := Nat.mul_le_mul_right (10 ^ ds.length) hvalue
    rw [ofDigits_cons, List.length_cons, Nat.pow_succ]
    omega

/-- A first digit that is not zero tells how large a number is at least. -/
theorem le_ofDigits_cons {c : Char} (hc : c.isDigit = true) (hzero : c ≠ '0') (ds : List Char) :
    10 ^ ds.length ≤ ofDigits (c :: ds) := by
  have hrange : 48 ≤ c.toNat ∧ c.toNat ≤ 57 := Char.isDigit_iff_toNat.1 hc
  have hne : c.toNat ≠ 48 := fun h => hzero (Char.toNat_inj.1 h)
  have hvalue : 1 ≤ digitValue c := by
    rw [digitValue]
    omega
  have hfirst := Nat.mul_le_mul_right (10 ^ ds.length) hvalue
  rw [ofDigits_cons]
  omega

/-! ### Zeros in front -/

theorem ofDigits_dropWhile_zeros (ds : List Char) :
    ofDigits (ds.dropWhile (· == '0')) = ofDigits ds := by
  induction ds with
  | nil => rfl
  | cons c ds ih =>
    by_cases hc : c = '0'
    · rw [hc, List.dropWhile_cons_of_pos rfl, ih]
      rfl
    · rw [List.dropWhile_cons_of_neg (by simpa using hc)]

theorem allDigits_padded (w n : Nat) : AllDigits (padded w n) :=
  allDigits_append (allDigits_zeros _) (allDigits_digits n)

theorem padded_ne_nil (w n : Nat) : padded w n ≠ [] :=
  List.append_ne_nil_of_right_ne_nil _ (digits_ne_nil n)

theorem le_length_padded (w n : Nat) : w ≤ (padded w n).length := by
  rw [padded, List.length_append, List.length_replicate]
  omega

theorem length_padded {w n : Nat} (hw : 0 < w) (h : n < 10 ^ w) : (padded w n).length = w := by
  have hlength := (lt_length_digits_iff hw n).not.2 (Nat.not_le_of_lt h)
  rw [padded, List.length_append, List.length_replicate]
  omega

theorem ofDigits_zeros_append (k : Nat) (ds : List Char) :
    ofDigits (List.replicate k '0' ++ ds) = ofDigits ds := by
  induction k with
  | zero => rfl
  | succ k ih => exact ih

/-- Zeros in front do not change the number. -/
theorem ofDigits_padded (w n : Nat) : ofDigits (padded w n) = n := by
  rw [padded, ofDigits_zeros_append, ofDigits_digits]

end Criteria.Text
