import Criteria.Proofs.Json.Spots

/-! Values that are passed over end where values end.

A value that nobody wants is checked for its grammar only, and its containers are kept in a list. The
brackets that are open are those of this list, one for each, so the value is passed over inside one
item like any other (`stays_ignored`). -/
namespace Criteria.Json.Reader

variable {s r : List Char}

/-! ### Scalars -/

theorem stays_someDigits : Stays (do if (← digitRun) = [] then fail .invalidNumber) := by
  refine stays_digitRun.bind fun ds => ?_
  split
  · exact passes_fail
  · exact passes_pure rfl

theorem stays_skipFraction : Stays skipFraction := by
  refine passes_peek fun c => ?_
  split
  next h =>
    subst h
    exact passesOn_next_plain rfl stays_someDigits
  next =>
    refine Passes.on ?_ c
    exact passes_pure rfl

theorem stays_skipExponent : Stays skipExponent := by
  refine passes_peek fun mark => ?_
  split
  next hmark =>
    refine passesOn_next_either hmark rfl rfl (passes_peek fun sign => ?_)
    dsimp only
    split
    next hsign => exact passesOn_next_either hsign rfl rfl stays_someDigits
    next => exact stays_someDigits.on sign
  next =>
    refine Passes.on ?_ mark
    exact passes_pure rfl

theorem stays_skipNumberAfter (first : Char) : Stays (skipNumberAfter first) := by
  refine stays_digitRun.bind fun more => ?_
  split
  · exact passes_fail
  · exact stays_skipFraction.bind fun _ => stays_skipExponent

theorem stays_skipNegative : Stays skipNegative := by
  refine passes_next (fun _ _ _ => rfl) (fun c => ?_) passes_fail
  dsimp only
  split
  next h =>
    simp only [after_plain (isMark_of_isDigit h)]
    exact stays_skipNumberAfter c
  next => exact passes_fail

theorem passes_skipEscape : Passes .escaped skipEscape fun _ => .quoted := by
  refine passes_next (fun _ _ _ => rfl) (fun c => ?_) passes_fail
  split
  next h => cases h
  next => exact passes_hexQuad.bind fun _ => passes_pure rfl
  next =>
    split
    · exact passes_pure rfl
    · exact passes_fail

/-- A string that is passed over ends where it closes. -/
theorem itemEnd_skipStringFrom {origin s r : List Char} {h : s.length ≤ origin.length}
    {h' : r.length ≤ origin.length} (hs : skipStringFrom origin s h = .ok ⟨(), r, h'⟩) (n : Nat) :
    itemEnd (.quoted n) s = itemEnd (.plain n) r := by
  fun_induction skipStringFrom origin s h with
  | case1 => cases hs
  | case2 =>
    cases hs
    rfl
  | case3 => cases hs
  | case4 r _ t ht hescape _ _ _ _ ih =>
    rw [← ih hs, ← passes_skipEscape r () t ⟨ht, hescape⟩ n]
    rfl
  | case5 => cases hs
  | case6 c r _ _ hquote hslash _ _ ih =>
    rw [← ih hs, itemEnd_quoted, Spot.after, if_neg hquote, if_neg hslash]

theorem passes_skipString : Passes .quoted skipString fun _ => .plain := by
  intro s a r h n
  obtain ⟨_, h⟩ := h
  exact itemEnd_skipStringFrom h n

/-! ### Containers -/

theorem stays_enter : ∀ k : Container, Stays (enter k)
  | .list => passes_pure rfl
  | .object => by
    refine stays_space.bind fun _ => passes_next (fun _ _ _ => rfl) (fun c => ?_) passes_fail
    split
    · exact passes_fail
    next h =>
      cases h
      exact passes_skipString.bind fun _ => stays_colon
    · exact passes_fail

theorem after_close (k : Container) (n : Nat) : (Spot.plain (n + 1)).after k.close = .plain n := by
  cases k <;> rfl

theorem passes_skipOpening (k : Container) :
    Passes (fun n => .plain (n + 1)) (skipOpening k) fun opened n =>
      .plain (n + opened.toNat) := by
  refine stays_space.inside.bind fun _ => passes_peek fun c => ?_
  split
  · exact passes_fail.on none
  next c =>
    split
    next h =>
      subst h
      refine passesOn_next (fun _ _ _ => rfl) (passes_pure ?_)
      simp only [after_close, Bool.toNat_false, Nat.add_zero]
    next => exact ((stays_enter k).inside.bind fun _ => passes_pure rfl).on (some c)

/-- Inside of the container that has been opened, if one has. -/
theorem passes_skipAfter (c : Char) :
    Passes (fun n => (Spot.plain n).after c) (skipAfter c) fun opened n =>
      .plain (n + opened.toList.length) := by
  have hopened : ∀ k : Container, Passes (fun n => .plain (n + 1))
      (do pure (if ← skipOpening k then some k else none)) fun opened n =>
        .plain (n + opened.toList.length) :=
    fun k => (passes_skipOpening k).bind fun opened => by cases opened <;> exact passes_pure rfl
  unfold skipAfter
  split
  · exact (stays_word rfl).bind fun _ => passes_pure rfl
  · exact (stays_word rfl).bind fun _ => passes_pure rfl
  · exact (stays_word rfl).bind fun _ => passes_pure rfl
  · exact stays_skipNegative.bind fun _ => passes_pure rfl
  · exact passes_skipString.bind fun _ => passes_pure rfl
  · exact hopened .list
  · exact hopened .object
  · split
    next h =>
      simp only [after_plain (isMark_of_isDigit h)]
      exact (stays_skipNumberAfter _).bind fun _ => passes_pure rfl
    next => exact passes_fail

/-- All containers that are open around what is passed over have closed at its end. -/
theorem itemEnd_skipFrom {origin s r : List Char} {h : s.length ≤ origin.length}
    {h' : r.length ≤ origin.length} {due : Bool} {outer : List Container}
    (hs : skipFrom origin due outer s h = .ok ⟨(), r, h'⟩) (n : Nat) :
    itemEnd (.plain (n + outer.length)) s = itemEnd (.plain n) r := by
  -- each round closes a container, opens one, or passes over what stands between two values
  fun_induction skipFrom origin due outer s h with
  | case1 =>
    cases hs
    rfl
  | case2 => cases hs
  | case3 s h k ks r hclose _ ih =>
    rw [← ih hs, itemEnd_of_afterSpace hclose, List.length_cons, ← Nat.add_assoc, after_close]
  | case4 => cases hs
  | case5 s h k ks r _ t ht henter hcomma _ _ ih =>
    rw [← ih hs, itemEnd_of_afterSpace hcomma,
      ← stays_enter k r () t ⟨ht, henter⟩ (n + (k :: ks).length)]
    rfl
  | case6 => cases hs
  | case7 => cases hs
  | case8 => cases hs
  | case9 s h ks c r hc _ t ht hafter ih =>
    rw [← ih hs, itemEnd_of_afterSpace hc, passes_skipAfter c r none t ⟨ht, hafter⟩]
    rfl
  | case10 s h ks c r hc _ k t ht hafter ih =>
    rw [← ih hs, itemEnd_of_afterSpace hc, passes_skipAfter c r (some k) t ⟨ht, hafter⟩]
    rfl

/-- A member that is not wanted is passed over to its end. -/
theorem stays_ignored : Stays ignored := by
  refine stays_colon.bind fun _ s a r h n => ?_
  obtain ⟨_, h⟩ := h
  exact itemEnd_skipFrom h n

end Criteria.Json.Reader
