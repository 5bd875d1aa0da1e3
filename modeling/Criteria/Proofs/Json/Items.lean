import Criteria.Proofs.Json.Spots

/-! The items of a text, told apart without reading them.

`itemAt` finds an item of a list or an object by the commas between the items. In a container that
has been read, an item that can be found so is one that has been read, as an element
(`ElementsTaken.exists_element`) or as a member (`MembersTaken.holds_of_item`). -/
namespace Criteria.Json.Reader

variable {α σ : Type} {s r t : List Char} {a : α} {c : Char} {x : Reader α}
variable {step : σ → String → Reader σ} {state final : σ}

/-- The text from the item of this number on, counted from nought. -/
def itemAt : Nat → List Char → Option (List Char)
  | 0, s => some s
  | i + 1, s => match itemEnd (.plain 0) s with
    | ',' :: r => itemAt i r
    | _ => none

theorem Next.itemAt_eq {first : Bool} (h : Next first s t) (i : Nat) :
    itemAt (i + (!first).toNat) s = itemAt i t := by
  cases h with
  | first => rfl
  | later h =>
    have hend : itemEnd (.plain 0) s = ',' :: t :=
      (itemEnd_of_afterSpace h 0).trans (itemEnd_ended ',' t)
    simp only [Bool.not_false, Bool.toNat_true, itemAt, hend]

/-- Where an item ends decides on all that come after it. -/
theorem itemAt_succ_congr (h : itemEnd (.plain 0) s = itemEnd (.plain 0) t) (i : Nat) :
    itemAt (i + 1) s = itemAt (i + 1) t := by
  simp only [itemAt, h]

theorem itemAt_succ_closed (h : afterSpace s = c :: r) (hc : c = ']' ∨ c = '\x7d') (i : Nat) :
    itemAt (i + 1) s = none := by
  rcases hc with rfl | rfl
  · rw [itemAt, itemEnd_of_afterSpace h, show (Spot.plain 0).after ']' = .ended ']' from rfl,
      itemEnd_ended]
    rfl
  · rw [itemAt, itemEnd_of_afterSpace h, show (Spot.plain 0).after '\x7d' = .ended '\x7d' from rfl,
      itemEnd_ended]
    rfl

/-- The items after one that has been taken are those that are left. -/
theorem Next.itemAt_rest {first : Bool} (hx : Stays x) (hnext : Next first s t)
    (h : Takes x (afterSpace t) a r) (i : Nat) :
    itemAt (i + 1 + (!first).toNat) s = itemAt (i + 1) r := by
  rw [hnext.itemAt_eq]
  apply itemAt_succ_congr
  rw [← itemEnd_afterSpace, hx _ a r h]

/-- An item of a list that has been taken is the text of one of its elements. -/
theorem ElementsTaken.exists_element {item : Reader α} (hitem : Stays item) {first : Bool}
    {as : List α} {e : List Char} {i : Nat} (h : ElementsTaken item first s as r)
    (hat : itemAt (i + (!first).toNat) s = some e) (he : ∀ u, afterSpace e ≠ ']' :: u) :
    ∃ a ∈ as, ∃ u, Takes item (afterSpace e) a u := by
  induction h generalizing i with
  | @nil first s t hclosed =>
    cases hi : i + (!first).toNat with
    | zero =>
      rw [hi] at hat
      cases hat
      exact absurd hclosed (he t)
    | succ j =>
      rw [hi, itemAt_succ_closed hclosed (.inl rfl)] at hat
      cases hat
  | @cons first s t u r a as hnext ht _ ih =>
    cases i with
    | zero =>
      rw [hnext.itemAt_eq] at hat
      cases hat
      exact ⟨a, List.mem_cons_self, u, ht⟩
    | succ j =>
      rw [hnext.itemAt_rest hitem ht] at hat
      obtain ⟨b, hb, hv⟩ := ih (i := j) hat
      exact ⟨b, List.mem_cons_of_mem a hb, hv⟩

/-- An item of an object that starts with a key has been taken by a step for this key, and what
that step makes the case is preserved from there. -/
theorem MembersTaken.holds_of_item {P : σ → Prop}
    (hstep : ∀ state key, Stays (step state key))
    (hkeep : ∀ state key s state' r, Takes (step state key) s state' r → P state → P state')
    {first : Bool} {m k : List Char} {i : Nat} (h : MembersTaken step first state s final r)
    (hat : itemAt (i + (!first).toNat) s = some m) (hm : afterSpace m = '"' :: k)
    (hmake : ∀ state key v state' w, Takes string k key v → Takes (step state key) v state' w →
      P state') : P final := by
  induction h generalizing i with
  | @nil first state s r hclosed =>
    cases hi : i + (!first).toNat with
    | zero =>
      rw [hi] at hat
      cases hat
      cases hclosed.symm.trans hm
    | succ j =>
      rw [hi, itemAt_succ_closed hclosed (.inr rfl)] at hat
      cases hat
  | @cons first state state' final s t u v w r key hnext hquote hkey ht hrest ih =>
    rw [hnext.itemAt_eq] at hat
    cases i with
    | zero =>
      cases hat
      cases hquote.symm.trans hm
      exact hrest.preserves hkeep (hmake state key v state' w hkey ht)
    | succ j =>
      rw [itemAt_succ_congr (t := w)] at hat
      · exact ih (i := j) hat
      · rw [itemEnd_of_afterSpace hquote, ← hstep state key v state' w ht 0,
          ← passes_string u key v hkey 0]
        rfl

end Criteria.Json.Reader
