import Criteria.Calendar.Rfc3339
import Criteria.Proofs.Text.Digits

/-! What scanners take.

`Takes x s a r` says that the scanner `x` takes `a` off the front of `s` and leaves `r`.
Scanners that follow each other take one after the other (`Takes.bind`). A number is taken
from its digits, with zeros in front, when no other digit can follow (`takes_number`), or as
many as there have to be (`takes_fixedNumber`). -/
namespace Criteria.Calendar.Scan

open Text

variable {α β : Type} {s r t ds : List Char} {a : α} {b : β} {c : Char} {x : Scan α}

/-- Scanning `s` takes `a` off its front and leaves `r`. -/
def Takes (x : Scan α) (s : List Char) (a : α) (r : List Char) : Prop := x.run s = .ok (a, r)

theorem takes_pure (a : α) (s : List Char) : Takes (pure a) s a s := rfl

theorem takes_get (s : List Char) : Takes get s s s := rfl

theorem takes_set (s r : List Char) : Takes (set r) s ⟨⟩ r := rfl

theorem Takes.bind {f : α → Scan β} (hx : Takes x s a r) (hf : Takes (f a) r b t) :
    Takes (x >>= f) s b t := by
  rw [Takes, StateT.run_bind, hx]
  exact hf

theorem Takes.all (hx : Takes x s a []) : x.all s = .ok a := by
  rw [Scan.all, hx]
  rfl

/-! ### Single characters -/

theorem takes_one {p : Char → Bool} (hc : p c = true) (r : List Char) :
    Takes (one p) (c :: r) () r := by
  refine (takes_get _).bind ?_
  simp only [if_pos hc]
  exact takes_set _ r

theorem takes_literal (c : Char) (r : List Char) : Takes (literal c) (c :: r) () r := by
  refine (takes_get _).bind ?_
  simp only [if_true]
  exact takes_set _ r

/-! ### Digits -/

theorem takes_fixedDigits (hds : AllDigits ds) (r : List Char) :
    Takes (fixedDigits ds.length) (ds ++ r) ds r := by
  induction ds with
  | nil => exact takes_pure _ _
  | cons c ds ih =>
    refine (takes_get _).bind ?_
    simp only [List.cons_append, if_pos (hds c List.mem_cons_self)]
    refine (takes_set _ _).bind ?_
    exact (ih fun d hd => hds d (List.mem_cons_of_mem c hd)).bind (takes_pure _ _)

/-- A number padded with zeros is read back. -/
theorem takes_fixedNumber {w n : Nat} (hw : 0 < w) (hn : n < 10 ^ w) (r : List Char) :
    Takes (fixedNumber w) (padded w n ++ r) n r := by
  have hdigits := takes_fixedDigits (allDigits_padded w n) r
  rw [length_padded hw hn] at hdigits
  refine hdigits.bind ?_
  rw [ofDigits_padded]
  exact takes_pure _ _

theorem length_le_byteLength (cs : List Char) : cs.length ≤ byteLength cs := by
  induction cs with
  | nil => exact Nat.zero_le _
  | cons c cs ih =>
    have hc := c.utf8Size_pos
    simp only [byteLength, List.map_cons, List.sum_cons, List.length_cons] at ih ⊢
    omega

/-- A limit on the digits does no harm where the digits end first, or where there are just as
many. -/
theorem takeWhile_take {n : Nat} (hds : AllDigits ds) (hn : ds.length ≤ n)
    (hr : NoDigit r ∨ n ≤ ds.length) : ((ds ++ r).take n).takeWhile Char.isDigit = ds := by
  rw [List.take_append, List.take_of_length_le hn]
  refine takeWhile_digits hds ?_
  rcases hr with hr | hle
  · intro c hc
    rw [List.head?_take] at hc
    split at hc
    · cases hc
    · exact hr c hc
  · rw [Nat.sub_eq_zero_of_le hle, List.take_zero]
    exact noDigit_nil

/-- A number is taken when all its digits may count, and no other digit counts with them. -/
theorem takes_number {least : Nat} {most : Option Nat} (hds : AllDigits ds)
    (hleast : least ≤ ds.length) (hmost : ∀ n ∈ most, ds.length ≤ n)
    (hr : NoDigit r ∨ ∃ n ∈ most, n ≤ ds.length) (hfits : ofDigits ds < 2 ^ 63) :
    Takes (number least most) (ds ++ r) (ofDigits ds) r := by
  have hbytes := length_le_byteLength (ds ++ r)
  rw [List.length_append] at hbytes
  refine (takes_get _).bind ?_
  dsimp only
  generalize hcounted : List.takeWhile Char.isDigit _ = counted
  have he : counted = ds := by
    rw [← hcounted]
    cases most with
    | none =>
      refine takeWhile_digits hds (hr.resolve_right fun h => ?_)
      obtain ⟨_, hn, -⟩ := h
      cases hn
    | some n =>
      refine takeWhile_take hds (hmost n rfl) (hr.imp_right fun h => ?_)
      obtain ⟨_, ⟨⟩, hle⟩ := h
      exact hle
  rw [he, if_neg (by omega), if_neg (by omega), if_neg (by omega), List.drop_left]
  exact (takes_set _ _).bind (takes_pure _ _)

/-- The digits of a fraction up to the ninth, as nanoseconds. -/
theorem takes_fraction (hds : AllDigits ds) (hne : ds ≠ []) (hlength : ds.length ≤ 9)
    (hr : NoDigit r) (hfits : ofDigits ds < 2 ^ 63) :
    Takes fraction (ds ++ r) (ofDigits ds * 10 ^ (9 - ds.length)) r := by
  have hnumber : Takes (number 1 (some 9)) (ds ++ r) (ofDigits ds) r := by
    refine takes_number hds (List.length_pos_iff.2 hne) ?_ (.inl hr) hfits
    rintro n ⟨⟩
    exact hlength
  refine (takes_get _).bind (hnumber.bind ((takes_get _).bind ?_))
  have hdropped : Takes (modify (·.dropWhile Char.isDigit)) r ⟨⟩ r := by
    have hrest := dropWhile_digits allDigits_nil hr
    exact congrArg (fun r => Except.ok (PUnit.unit, r)) hrest
  refine hdropped.bind ?_
  rw [List.length_append, Nat.add_sub_cancel]
  exact takes_pure _ _

end Criteria.Calendar.Scan
