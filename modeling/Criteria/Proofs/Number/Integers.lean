import Criteria.Proofs.Number.Localized
import Criteria.Proofs.Results

/-! Integers as text.

An integer is written with its digits and a sign when it is negative. That text is read back
exactly when the integer has 64 bits (`readSigned_signedDigits`), and a locale lets it through
unless it takes a digit or the sign for a separator (`integer_signedDigits`). After its first
character an integer has digits only, so a mark that no group begins behind cannot be part of
one, whatever the locale makes of it (`integer_of_marked`). -/
namespace Criteria

open Text

namespace Text

variable {ds r : List Char} {limit n : Nat} {beyond : IntegerFault}

/-! ### Digits -/

/-- Digits are read as their number, or they exceed the limit. -/
theorem magnitude_of_allDigits (hds : AllDigits ds) (hn : n ≤ limit) :
    magnitude limit beyond n ds =
      if ds.foldl (fun n c => 10 * n + digitValue c) n ≤ limit then
        .ok (ds.foldl (fun n c => 10 * n + digitValue c) n)
      else .error beyond := by
  induction ds generalizing n with
  | nil => rw [List.foldl_nil, if_pos hn, magnitude]
  | cons c ds ih =>
    have hc : c.isDigit = true := hds c List.mem_cons_self
    rw [magnitude, if_pos hc, List.foldl_cons]
    by_cases hle : 10 * n + digitValue c ≤ limit
    · rw [if_pos hle, ih (fun d hd => hds d (List.mem_cons_of_mem c hd)) hle]
    · have hmore := le_foldl_digits (10 * n + digitValue c) ds
      rw [if_neg hle, if_neg (by omega)]

/-- A magnitude is read from digits alone, and only up to the limit. -/
theorem magnitude_eq_ok_iff {v : Nat} :
    magnitude limit beyond 0 ds = .ok v ↔ AllDigits ds ∧ ofDigits ds = v ∧ v ≤ limit := by
  have hdigits : ∀ {n : Nat}, magnitude limit beyond n ds = .ok v → AllDigits ds := by
    intro n h
    induction ds generalizing n with
    | nil => exact allDigits_nil
    | cons c ds ih =>
      rw [magnitude] at h
      split at h
      next hc =>
        split at h
        next => exact List.forall_mem_cons.2 ⟨hc, ih h⟩
        next => cases h
      next => cases h
  constructor
  · intro h
    have hds := hdigits h
    rw [magnitude_of_allDigits hds (Nat.zero_le limit)] at h
    split at h
    next hle =>
      cases h
      exact ⟨hds, rfl, hle⟩
    next => cases h
  · intro h
    obtain ⟨hds, rfl, hle⟩ := h
    rw [magnitude_of_allDigits hds (Nat.zero_le limit)]
    exact if_pos hle

/-- The text of a count: a plus sign or none, digits, and 64 bits. -/
def IsCount (cs : List Char) (v : Nat) : Prop :=
  ∃ ds, (cs = ds ∨ cs = '+' :: ds) ∧ ds ≠ [] ∧ AllDigits ds ∧ ofDigits ds = v ∧ v < 2 ^ 64

/-- A natural number of 64 bits is read from its digits, with a plus at most. -/
theorem readUnsigned_eq_ok_iff {cs : List Char} {v : Nat} :
    readUnsigned cs = .ok v ↔ IsCount cs v := by
  have hread : ∀ ds, magnitude (2 ^ 64 - 1) .tooLarge 0 ds = .ok v ↔
      AllDigits ds ∧ ofDigits ds = v ∧ v < 2 ^ 64 := by
    intro ds
    rw [magnitude_eq_ok_iff, Nat.le_sub_one_iff_lt (by decide)]
  constructor
  · intro h
    unfold readUnsigned at h
    split at h
    next => cases h
    next => cases h
    next r hr => exact ⟨r, .inr rfl, hr, (hread r).1 h⟩
    next hne _ _ => exact ⟨cs, .inl rfl, hne, (hread cs).1 h⟩
  · intro h
    obtain ⟨ds, hcs, hne, hds⟩ := h
    obtain ⟨d, r, rfl⟩ := List.exists_cons_of_ne_nil hne
    rcases hcs with rfl | rfl
    · rw [← hread (d :: r)] at hds
      unfold readUnsigned
      split
      next h => cases h
      next h => cases h; cases hds
      next h => cases h; cases hds
      next => exact hds
    · exact (hread (d :: r)).2 hds

/-! ### Signs -/

/-- The number that digits behind a sign mean. -/
def signedValue (negative : Bool) (ds : List Char) : Int :=
  if negative then -(ofDigits ds : Int) else ofDigits ds

/-- An integer without a sign is not negative. -/
theorem readSigned_unsigned {c : Char} (hplus : c ≠ '+') (hminus : c ≠ '-') (r : List Char) :
    readSigned (c :: r) = (magnitude (2 ^ 63 - 1) .tooLarge 0 (c :: r)).map (Int.ofNat ·) := by
  unfold readSigned
  split
  next h => cases h
  next h => cases h; exact absurd rfl hplus
  next h => cases h; exact absurd rfl hminus
  next h => cases h; exact absurd rfl hplus
  next h => cases h; exact absurd rfl hminus
  next => rfl

theorem readSigned_plus (hne : r ≠ []) :
    readSigned ('+' :: r) = (magnitude (2 ^ 63 - 1) .tooLarge 0 r).map (Int.ofNat ·) := by
  obtain ⟨c, r, rfl⟩ := List.exists_cons_of_ne_nil hne
  rfl

theorem readSigned_minus (hne : r ≠ []) :
    readSigned ('-' :: r) = (magnitude (2 ^ 63) .tooSmall 0 r).map (-Int.ofNat ·) := by
  obtain ⟨c, r, rfl⟩ := List.exists_cons_of_ne_nil hne
  rfl

/-- What is read from digits behind a sign. -/
theorem readSigned_signed {negative : Bool} {sign : List Char} (hsign : SignText negative sign)
    (hne : ds ≠ []) (hds : AllDigits ds) : readSigned (sign ++ ds) =
      if -2 ^ 63 ≤ signedValue negative ds ∧ signedValue negative ds < 2 ^ 63 then
        .ok (signedValue negative ds)
      else .error (if negative then .tooSmall else .tooLarge) := by
  have hunsigned : ((magnitude (2 ^ 63 - 1) .tooLarge 0 ds).map (Int.ofNat ·) :
      Except IntegerFault Int) =
      if -2 ^ 63 ≤ signedValue false ds ∧ signedValue false ds < 2 ^ 63 then
        .ok (signedValue false ds)
      else .error .tooLarge := by
    rw [magnitude_of_allDigits hds (Nat.zero_le _)]
    show Except.map _ (if ofDigits ds ≤ _ then .ok (ofDigits ds) else _) = _
    rw [show signedValue false ds = (ofDigits ds : Int) from rfl]
    by_cases hrange : ofDigits ds ≤ 2 ^ 63 - 1
    · rw [if_pos hrange, if_pos (by omega)]
      rfl
    · rw [if_neg hrange, if_neg (by omega)]
      rfl
  cases hsign with
  | absent =>
    obtain ⟨d, r, rfl⟩ := List.exists_cons_of_ne_nil hne
    obtain ⟨hplus, hminus⟩ := ne_sign_of_digit (hds d List.mem_cons_self)
    exact (readSigned_unsigned hplus hminus r).trans hunsigned
  | plus => exact (readSigned_plus hne).trans hunsigned
  | minus =>
    refine (readSigned_minus hne).trans ?_
    rw [magnitude_of_allDigits hds (Nat.zero_le _)]
    show Except.map _ (if ofDigits ds ≤ _ then .ok (ofDigits ds) else _) = _
    rw [show signedValue true ds = -(ofDigits ds : Int) from rfl]
    by_cases hrange : ofDigits ds ≤ 2 ^ 63
    · rw [if_pos hrange, if_pos (by omega)]
      rfl
    · rw [if_neg hrange, if_neg (by omega)]
      rfl

/-- **What is read as an integer** has a sign or none, digits, and 64 bits. -/
theorem readSigned_eq_ok_iff {cs : List Char} {v : Int} : readSigned cs = .ok v ↔
    ∃ negative sign ds, SignText negative sign ∧ ds ≠ [] ∧ AllDigits ds ∧ cs = sign ++ ds ∧
      v = signedValue negative ds ∧ -2 ^ 63 ≤ v ∧ v < 2 ^ 63 := by
  constructor
  · intro h
    -- a sign and digits are there, and then it is known what has been read
    have hparts : ∃ negative sign ds, SignText negative sign ∧ ds ≠ [] ∧ AllDigits ds ∧
        cs = sign ++ ds := by
      have hdigits : ∀ {limit : Nat} {beyond : IntegerFault} {f : Nat → Int} {ds : List Char},
          (magnitude limit beyond 0 ds).map f = .ok v → AllDigits ds := by
        intro limit beyond f ds h
        obtain ⟨n, hn, -⟩ := map_eq_ok_iff.1 h
        exact (magnitude_eq_ok_iff.1 hn).1
      unfold readSigned at h
      split at h
      next => cases h
      next => cases h
      next => cases h
      next _ r hr => exact ⟨_, _, r, .plus, hr, hdigits h, rfl⟩
      next r hr => exact ⟨_, _, r, .minus, hr, hdigits h, rfl⟩
      next hne _ _ _ _ => exact ⟨_, _, cs, .absent, hne, hdigits h, rfl⟩
    obtain ⟨negative, sign, ds, hsign, hne, hds, rfl⟩ := hparts
    rw [readSigned_signed hsign hne hds] at h
    split at h
    next hrange =>
      cases h
      exact ⟨negative, sign, ds, hsign, hne, hds, rfl, rfl, hrange⟩
    next => cases h
  · intro h
    obtain ⟨negative, sign, ds, hsign, hne, hds, rfl, rfl, hrange⟩ := h
    rw [readSigned_signed hsign hne hds, if_pos hrange]

/-- **The text of an integer is read back exactly when it has 64 bits.** -/
theorem readSigned_signedDigits (m : Int) : readSigned (signedDigits m) =
    if -2 ^ 63 ≤ m ∧ m < 2 ^ 63 then .ok m
    else .error (if m < 0 then .tooSmall else .tooLarge) := by
  have hread : ∀ {negative : Bool} {sign : List Char}, SignText negative sign →
      readSigned (sign ++ digits m.natAbs) =
        if -2 ^ 63 ≤ signedValue negative (digits m.natAbs) ∧
            signedValue negative (digits m.natAbs) < 2 ^ 63 then
          .ok (signedValue negative (digits m.natAbs))
        else .error (if negative then .tooSmall else .tooLarge) := fun hsign =>
    readSigned_signed hsign (digits_ne_nil _) (allDigits_digits _)
  unfold signedDigits
  by_cases hm : m < 0
  · have hvalue : signedValue true (digits m.natAbs) = m := by
      rw [signedValue, if_pos rfl, ofDigits_digits]
      omega
    rw [if_pos hm, if_pos hm]
    refine (hread .minus).trans ?_
    rw [hvalue]
    rfl
  · have hvalue : signedValue false (digits m.natAbs) = m := by
      rw [signedValue, if_neg (by decide), ofDigits_digits]
      omega
    rw [if_neg hm, if_neg hm]
    refine (hread .absent).trans ?_
    rw [hvalue]
    rfl

/-- Only digits follow the first character of an integer. -/
theorem allDigits_of_readSigned {c : Char} {v : Int} (h : readSigned (c :: r) = .ok v) :
    AllDigits r := by
  obtain ⟨negative, sign, ds, hsign, -, hds, hcs, -⟩ := readSigned_eq_ok_iff.1 h
  cases hsign with
  | absent =>
    rw [List.nil_append] at hcs
    exact (List.forall_mem_cons.1 (hcs ▸ hds)).2
  | plus | minus =>
    cases hcs
    exact hds

end Text

/-! ### Under a locale -/

namespace Locale

variable {l : Locale} {cs r : List Char} {c : Char}

/-- No digit and no minus is a separator. -/
def KeepsIntegers (l : Locale) : Prop :=
  ∀ c, c = l.decimal ∨ some c = l.group → c.isDigit = false ∧ c ≠ '-'

theorem KeepsIntegers.kept (hl : l.KeepsIntegers) (hc : c.isDigit = true ∨ c = '-') :
    some c ≠ l.group ∧ c ≠ l.decimal := by
  have hnone : ¬(c = l.decimal ∨ some c = l.group) := by
    intro h
    obtain ⟨hdigit, hminus⟩ := hl c h
    rcases hc with hc | hc
    · cases hdigit.symm.trans hc
    · exact hminus hc
  exact ⟨fun h => hnone (.inr h), fun h => hnone (.inl h)⟩

/-- An integer is written with digits and a minus only. -/
theorem mem_signedDigits {m : Int} (hc : c ∈ signedDigits m) : c.isDigit = true ∨ c = '-' := by
  unfold signedDigits at hc
  split at hc
  · exact (List.mem_cons.1 hc).symm.imp_left isDigit_of_mem_digits
  · exact .inl (isDigit_of_mem_digits hc)

/-- A locale that leaves digits and the minus alone reads every integer of 64 bits back, and
refuses every other. -/
theorem integer_signedDigits (hl : l.KeepsIntegers) (m : Int) :
    l.integer (String.ofList (signedDigits m)) =
      if -2 ^ 63 ≤ m ∧ m < 2 ^ 63 then .ok m
      else .error (.integer (if m < 0 then .tooSmall else .tooLarge)) := by
  have hblank : ∀ c ∈ signedDigits m, isBlank c = false := by
    intro c hc
    exact isBlank_of_numeric ((mem_signedDigits hc).imp_right .inl)
  have hplain : l.plain (String.ofList (signedDigits m)) = .ok (signedDigits m) := by
    rw [plain, String.toList_ofList, trim_of_no_blank hblank]
    refine plainFrom_self (fun c hc => ?_) _ _
    obtain ⟨hg, hd⟩ := hl.kept (mem_signedDigits hc)
    exact ⟨hg, fun h => absurd h hd⟩
  by_cases hrange : -2 ^ 63 ≤ m ∧ m < 2 ^ 63
  · simp only [integer, hplain, bind, Except.bind, readSigned_signedDigits, if_pos hrange]
    rfl
  · simp only [integer, hplain, bind, Except.bind, readSigned_signedDigits, if_neg hrange]
    rfl

/-- A locale reads what it makes plain. -/
theorem integer_eq_ok_iff {s : String} {v : Int} :
    l.integer s = .ok v ↔ ∃ cs, l.plain s = .ok cs ∧ readSigned cs = .ok v := by
  cases hplain : l.plain s with
  | error f => simp only [integer, hplain, bind, Except.bind, reduceCtorEq, false_and, exists_false]
  | ok cs =>
    simp only [integer, hplain, bind, Except.bind, Except.ok.injEq, exists_eq_left']
    cases readSigned cs <;> simp [throw, throwThe, MonadExceptOf.throw, pure, Except.pure]

/-- Only integers of 64 bits are read. -/
theorem range_of_integer {s : String} {m : Int} (h : l.integer s = .ok m) :
    -2 ^ 63 ≤ m ∧ m < 2 ^ 63 := by
  obtain ⟨cs, -, hread⟩ := integer_eq_ok_iff.1 h
  obtain ⟨-, -, -, -, -, -, -, -, hrange⟩ := readSigned_eq_ok_iff.1 hread
  exact hrange

/-- A mark that no group begins behind is not dropped, and nothing that stands for it is a
digit. -/
theorem exists_mark_of_plainFrom (hc : c.isDigit = false) (hr : startsGroup r = false)
    (pre : List Char) {whole afterDigit : Bool}
    (h : l.plainFrom whole afterDigit (pre ++ c :: r) = .ok cs) :
    ∃ d ∈ cs, d.isDigit = false := by
  obtain ⟨whole', afterDigit', front, rest, rfl, hrest⟩ := exists_of_plainFrom_append h
  rcases plainFrom_cons_eq_ok_iff.1 hrest with ⟨-, -, -, hgroup, -⟩ | ⟨-, cs', rfl, -⟩
  · cases hr.symm.trans hgroup
  · refine ⟨_, List.mem_append_right _ List.mem_cons_self, ?_⟩
    rw [plainChar]
    split
    · rfl
    · exact hc

/-- Behind the first character, a mark that no group begins behind. -/
def Marked (cs : List Char) : Prop :=
  ∃ first pre mark r, cs = first :: (pre ++ mark :: r) ∧ (first.isDigit = true ∨ first = '-') ∧
    mark.isDigit = false ∧ startsGroup r = false

theorem Marked.signed (h : Marked cs) (negative : Bool) : Marked (Binary64.signed negative cs) := by
  cases negative with
  | false => exact h
  | true =>
    obtain ⟨first, pre, mark, r, rfl, -, hmark, hr⟩ := h
    exact ⟨'-', first :: pre, mark, r, rfl, .inr rfl, hmark, hr⟩

/-- **A mark behind the first character makes no integer**, whatever separators the locale
has: dropped it is only where a group begins behind it. -/
theorem integer_of_marked (hl : l.KeepsIntegers) (h : Marked cs)
    (hblank : ∀ c ∈ cs, isBlank c = false) : ∃ f, l.integer (String.ofList cs) = .error f := by
  obtain ⟨first, pre, mark, r, rfl, hfirst, hmark, hr⟩ := h
  cases hinteger : l.integer (String.ofList (first :: (pre ++ mark :: r))) with
  | error f => exact ⟨f, rfl⟩
  | ok v =>
    obtain ⟨cs, hplain, hread⟩ := integer_eq_ok_iff.1 hinteger
    rw [plain, String.toList_ofList, trim_of_no_blank hblank] at hplain
    rcases plainFrom_cons_eq_ok_iff.1 hplain with ⟨hgroup, -⟩ | ⟨-, cs', rfl, htail⟩
    · exact absurd hgroup (hl.kept hfirst).1
    · obtain ⟨d, hmem, hdigit⟩ := exists_mark_of_plainFrom hmark hr pre htail
      cases hdigit.symm.trans (allDigits_of_readSigned hread d hmem)

end Locale
end Criteria
