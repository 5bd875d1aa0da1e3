import Criteria.Locale
import Criteria.Proofs.Number.Written
import Criteria.Proofs.Results

/-! Numbers under a locale.

In the text of a numeral only the point can be a separator, when the separators of the
locale are `Separated`. A point is the decimal separator, or nothing to the locale, and
then the text is kept as it is (`plain_written`), or it separates groups. Then it is
dropped when exactly three digits follow, and misplaced otherwise (`plain_grouped`). -/
namespace Criteria

open Text Json

namespace Locale

/-- No part of a number but, it may be, a separator. -/
def Neutral (c : Char) : Prop :=
  c.isDigit = false ∧ c ≠ '+' ∧ c ≠ '-' ∧ c ≠ 'e' ∧ c ≠ 'E'

/-- Two separators that can be told apart, from each other and from the rest of a number. -/
structure Separated (l : Locale) : Prop where
  differ : l.group ≠ some l.decimal
  decimal : Neutral l.decimal
  group : ∀ c ∈ l.group, Neutral c

theorem separated_invariant : invariant.Separated :=
  ⟨by decide, by unfold Neutral; decide, by simp [invariant, Neutral]⟩

/-- No digit is a separator. -/
def KeepsDigits (l : Locale) : Prop :=
  ∀ c : Char, c.isDigit = true → some c ≠ l.group ∧ c ≠ l.decimal

theorem Separated.keepsDigits {l : Locale} (hl : l.Separated) : l.KeepsDigits := by
  intro c hc
  have hne : ∀ {d : Char}, Neutral d → c ≠ d := by
    rintro d hd rfl
    cases hd.1.symm.trans hc
  exact ⟨fun hg => hne (hl.group c hg.symm) rfl, hne hl.decimal⟩

/-- Of the characters of a number only the point may mean something else to a locale. -/
theorem Neutral.eq_point {c : Char} (h : Neutral c) (hc : IsNumeric c) : c = '.' := by
  obtain ⟨hdigit, hplus, hminus, he, hE⟩ := h
  rcases hc with hc | hc | hc | hc | hc | hc
  · cases hdigit.symm.trans hc
  · exact absurd hc hminus
  · exact absurd hc hplus
  · exact hc
  · exact absurd hc he
  · exact absurd hc hE

/-- A part of a number that does not separate groups is kept, as a point if it is the decimal
separator. -/
theorem Separated.kept {l : Locale} (hl : l.Separated) {c : Char} (hc : IsNumeric c)
    (hpoint : l.group = some '.' → c ≠ '.') :
    some c ≠ l.group ∧ (c = l.decimal → c = '.') := by
  refine ⟨fun hg => ?_, fun hd => (hd ▸ hl.decimal).eq_point hc⟩
  have he : c = '.' := (hl.group c hg.symm).eq_point hc
  exact hpoint (he ▸ hg.symm) he

theorem isBlank_of_numeric {c : Char} (hc : IsNumeric c) : isBlank c = false := by
  rcases hc with hc | rfl | rfl | rfl | rfl | rfl
  · have hrange : 48 ≤ c.toNat ∧ c.toNat ≤ 57 := Char.isDigit_iff_toNat.1 hc
    simp only [isBlank, Bool.or_eq_false_iff, Bool.and_eq_false_iff, decide_eq_false_iff_not,
      beq_eq_false_iff_ne]
    omega
  all_goals rfl

/-- The only letter of a number is the mark of an exponent. -/
theorem letter_of_numeric {c : Char} (hc : IsNumeric c) (h : c.isAlpha = true) :
    c = 'e' ∨ c = 'E' := by
  rcases hc with hc | rfl | rfl | rfl | hc
  · have hrange : 48 ≤ c.toNat ∧ c.toNat ≤ 57 := Char.isDigit_iff_toNat.1 hc
    have hletter : 65 ≤ c.toNat := by
      rcases Bool.or_eq_true_iff.1 h with hupper | hlower
      · have hfirst : 'A'.val ≤ c.val := (of_decide_eq_true hupper).1
        exact UInt32.le_iff_toNat_le.1 hfirst
      · have hfirst : 'a'.val ≤ c.val := of_decide_eq_true (Bool.and_eq_true_iff.1 hlower).1
        exact Nat.le_trans (by decide) (UInt32.le_iff_toNat_le.1 hfirst)
    omega
  · cases h
  · cases h
  · cases h
  · exact hc

variable {l : Locale} {n : Numeral} {cs ds r a b : List Char}

/-! ### One character -/

/-- A character that is no separator is kept. -/
theorem plainFrom_cons {c : Char} (hg : some c ≠ l.group) (hd : c ≠ l.decimal)
    (whole afterDigit : Bool) (r : List Char) : l.plainFrom whole afterDigit (c :: r) =
      (l.plainFrom (whole && c != 'e' && c != 'E') c.isDigit r).map (c :: ·) := by
  rw [plainFrom, if_neg hg, if_neg hd]
  rfl

/-- A decimal mark becomes a point and ends the whole part. -/
theorem plainFrom_decimal {c : Char} (hg : some c ≠ l.group) (hd : c = l.decimal)
    (whole afterDigit : Bool) (r : List Char) : l.plainFrom whole afterDigit (c :: r) =
      (l.plainFrom false c.isDigit r).map ('.' :: ·) := by
  rw [plainFrom, if_neg hg, if_pos hd]
  rfl

/-- A separator of groups is dropped where a group can begin. -/
theorem plainFrom_group {c : Char} (hg : some c = l.group) (r : List Char) :
    l.plainFrom true true (c :: r) =
      if startsGroup r then l.plainFrom true c.isDigit r else .error (.misplacedGroup c) := by
  rw [plainFrom, if_pos hg]
  rfl

/-- What a character that is not dropped becomes. -/
def plainChar (l : Locale) (c : Char) : Char := if c = l.decimal then '.' else c

/-- What becomes of the first character: it is dropped where a group begins in the whole part,
or it is kept and may end the whole part. -/
theorem plainFrom_cons_eq_ok_iff {whole afterDigit : Bool} {c : Char} :
    l.plainFrom whole afterDigit (c :: r) = .ok cs ↔
      (some c = l.group ∧ whole = true ∧ afterDigit = true ∧ startsGroup r = true ∧
        l.plainFrom true c.isDigit r = .ok cs) ∨
      some c ≠ l.group ∧ ∃ cs', cs = l.plainChar c :: cs' ∧
        l.plainFrom (whole && c != l.decimal && c != 'e' && c != 'E') c.isDigit r = .ok cs' := by
  by_cases hg : some c = l.group
  · rw [plainFrom, if_pos hg]
    by_cases hgroup : (whole && afterDigit && startsGroup r) = true
    · rw [if_pos hgroup]
      simp only [Bool.and_eq_true] at hgroup
      simp [hg, hgroup]
    · rw [if_neg hgroup]
      simp only [Bool.and_eq_true, not_and] at hgroup
      simp only [hg, ne_eq, not_true, false_and, or_false, reduceCtorEq, false_iff, true_and]
      exact fun h => hgroup ⟨h.1, h.2.1⟩ h.2.2.1
  · have hkept : l.plainFrom whole afterDigit (c :: r) =
        (l.plainFrom (whole && c != l.decimal && c != 'e' && c != 'E') c.isDigit r).map
          (l.plainChar c :: ·) := by
      by_cases hd : c = l.decimal
      · rw [plainFrom_decimal hg hd, plainChar, if_pos hd]
        simp [hd]
      · rw [plainFrom_cons hg hd, plainChar, if_neg hd]
        rw [bne_iff_ne.2 hd, Bool.and_true]
    rw [hkept, map_eq_ok_iff]
    simp only [hg, ne_eq, not_false_iff, false_and, false_or, true_and]
    exact exists_congr fun cs' => by rw [and_comm, eq_comm]

/-! ### Whole texts -/

/-- What comes last of a text is made plain after what comes before. -/
theorem exists_of_plainFrom_append {pre out : List Char} {whole afterDigit : Bool}
    (h : l.plainFrom whole afterDigit (pre ++ r) = .ok out) :
    ∃ whole' afterDigit' front rest, out = front ++ rest ∧
      l.plainFrom whole' afterDigit' r = .ok rest := by
  induction pre generalizing whole afterDigit out with
  | nil => exact ⟨whole, afterDigit, [], out, rfl, h⟩
  | cons c pre ih =>
    rcases plainFrom_cons_eq_ok_iff.1 h with ⟨-, -, -, -, hrest⟩ | ⟨-, out', rfl, hrest⟩
    · exact ih hrest
    · obtain ⟨whole', afterDigit', front, rest, rfl, hr⟩ := ih hrest
      exact ⟨whole', afterDigit', _ :: front, rest, rfl, hr⟩

/-- Without groups, and with points for decimal separators, a text is kept as it is. -/
theorem plainFrom_self (h : ∀ c ∈ cs, some c ≠ l.group ∧ (c = l.decimal → c = '.'))
    (whole afterDigit : Bool) : l.plainFrom whole afterDigit cs = .ok cs := by
  induction cs generalizing whole afterDigit with
  | nil => rfl
  | cons c cs ih =>
    obtain ⟨hg, hd⟩ := h c List.mem_cons_self
    have ih := ih fun d hmem => h d (List.mem_cons_of_mem c hmem)
    by_cases hc : c = l.decimal
    · rw [plainFrom_decimal hg hc, ih, ← hd hc]
      rfl
    · rw [plainFrom_cons hg hc, ih]
      rfl

/-- Digits and an exponent are kept. -/
theorem plainFrom_fraction (hl : l.Separated) {tail : List Char} {e : Option (Bool × List Char)}
    (hds : AllDigits ds) (htail : ExponentText e tail) (whole afterDigit : Bool) :
    l.plainFrom whole afterDigit (ds ++ tail) = .ok (ds ++ tail) := by
  refine plainFrom_self (fun c hc => ?_) whole afterDigit
  obtain ⟨hpoint, hnumeric⟩ := htail.numeric_append hds hc
  exact hl.kept hnumeric fun _ => hpoint

theorem trim_of_no_blank (h : ∀ c ∈ cs, isBlank c = false) : trim cs = cs := by
  have hleft : ∀ cs : List Char, (∀ c ∈ cs, isBlank c = false) → trimLeft cs = cs := by
    intro cs h
    cases cs with
    | nil => rfl
    | cons c cs => exact trimLeft_cons (h c List.mem_cons_self) cs
  rw [trim, hleft cs h, trimRight, hleft _ fun c hc => h c (List.mem_reverse.1 hc),
    List.reverse_reverse]

theorem trim_numeric (h : ∀ c ∈ cs, IsNumeric c) : trim cs = cs :=
  trim_of_no_blank fun c hc => isBlank_of_numeric (h c hc)

/-- The text of a numeral is kept when its point does not separate groups. -/
theorem plain_written (hl : l.Separated) (h : n.Written cs)
    (hpoint : l.group = some '.' → '.' ∉ cs) : l.plain (String.ofList cs) = .ok cs := by
  rw [plain, String.toList_ofList, trim_numeric fun c hc => h.numeric hc]
  exact plainFrom_self (fun c hc => hl.kept (h.numeric hc) fun hg he => hpoint hg (he ▸ hc)) _ _

/-- A digit of the whole part is kept, and another may follow it. -/
theorem plainFrom_digit (hl : l.KeepsDigits) {c : Char} (hc : c.isDigit = true) (afterDigit : Bool)
    (r : List Char) :
    l.plainFrom true afterDigit (c :: r) = (l.plainFrom true true r).map (c :: ·) := by
  have he : (true && c != 'e' && c != 'E') = true := by
    rw [Bool.true_and, Bool.and_eq_true, bne_iff_ne, bne_iff_ne]
    constructor <;> rintro rfl <;> cases hc
  obtain ⟨hg, hd⟩ := hl c hc
  rw [plainFrom_cons hg hd, he, hc]

theorem plainFrom_digits (hl : l.KeepsDigits) (hds : AllDigits ds) (r : List Char) :
    l.plainFrom true true (ds ++ r) = (l.plainFrom true true r).map (ds ++ ·) := by
  induction ds with
  | nil => cases h : l.plainFrom true true r <;> simp [h, Except.map]
  | cons d ds ih =>
    rw [List.cons_append, plainFrom_digit hl (hds d List.mem_cons_self),
      ih fun c hc => hds c (List.mem_cons_of_mem d hc)]
    cases l.plainFrom true true r <;> rfl

/-- A run of digits is kept, and leaves a digit behind. -/
theorem plainFrom_run (hl : l.KeepsDigits) (hne : ds ≠ []) (hds : AllDigits ds) (afterDigit : Bool)
    (r : List Char) :
    l.plainFrom true afterDigit (ds ++ r) = (l.plainFrom true true r).map (ds ++ ·) := by
  obtain ⟨d, ds, rfl⟩ := List.exists_cons_of_ne_nil hne
  rw [List.cons_append, plainFrom_digit hl (hds d List.mem_cons_self),
    plainFrom_digits hl fun c hc => hds c (List.mem_cons_of_mem d hc)]
  cases l.plainFrom true true r <;> rfl

/-- Up to the end of the whole part, which leaves a digit behind. -/
theorem plainFrom_whole (hl : l.Separated) (negative : Bool) (hne : ds ≠ []) (hds : AllDigits ds)
    (r : List Char) : l.plainFrom true false (Binary64.signed negative ds ++ r) =
      (l.plainFrom true true r).map (Binary64.signed negative ds ++ ·) := by
  have hrun := plainFrom_run hl.keepsDigits hne hds false r
  cases negative with
  | false => exact hrun
  | true =>
    have hminus : ∀ {c : Char}, Neutral c → '-' ≠ c := fun hc he => hc.2.2.1 he.symm
    have hstep := plainFrom_cons (fun hg => hminus (hl.group '-' hg.symm) rfl) (hminus hl.decimal)
      true false (ds ++ r)
    refine hstep.trans ?_
    rw [show (true && '-' != 'e' && '-' != 'E') = true from rfl, show '-'.isDigit = false from rfl,
      hrun]
    cases l.plainFrom true true r <;> rfl

/-- A group is begun by a run of three digits. -/
theorem startsGroup_iff (r : List Char) :
    startsGroup r = true ↔ (r.takeWhile Char.isDigit).length = 3 := by
  unfold startsGroup
  split
  next a b c r =>
    have hhead : r.head?.any Char.isDigit = false ↔ r.takeWhile Char.isDigit = [] := by
      cases r with
      | nil => simp
      | cons d r => cases h : d.isDigit <;> simp [h]
    simp only [Bool.and_eq_true, Bool.not_eq_true', hhead, List.takeWhile_cons]
    cases a.isDigit <;> cases b.isDigit <;> cases c.isDigit <;> simp
  next h =>
    have hshort : r.length < 3 := by
      rcases r with _ | ⟨a, _ | ⟨b, _ | ⟨c, r⟩⟩⟩
      · exact Nat.zero_lt_succ _
      · exact Nat.lt_succ_of_le (Nat.le_succ 1)
      · exact Nat.lt_succ_self 2
      · exact absurd rfl (h a b c r)
    have hle := (List.takeWhile_sublist Char.isDigit (l := r)).length_le
    simp only [Bool.false_eq_true, false_iff]
    omega

/-- Where points separate groups, a number with a point loses it if just three digits come
after, and is refused otherwise. -/
theorem plain_grouped (hl : l.Separated) (hg : l.group = some '.')
    (h : n.Written (a ++ '.' :: b)) : l.plain (String.ofList (a ++ '.' :: b)) =
      if (b.takeWhile Char.isDigit).length = 3 then .ok (a ++ b)
      else .error (.misplacedGroup '.') := by
  obtain ⟨rfl, tail, htail, rfl⟩ := h.parts
  rw [plain, String.toList_ofList, trim_numeric fun c hc => h.numeric hc,
    plainFrom_whole hl n.negative h.whole_ne h.whole, plainFrom_group hg.symm,
    show '.'.isDigit = false from rfl, plainFrom_fraction hl h.fraction htail]
  simp only [startsGroup_iff]
  split <;> rfl

/-- A number with its point dropped is a number still. -/
theorem written_joined (h : n.Written (a ++ '.' :: b)) :
    Numeral.Written { n with whole := n.whole ++ n.fraction, fraction := [] } (a ++ b) := by
  obtain ⟨rfl, tail, htail, rfl⟩ := h.parts
  exact ⟨List.append_ne_nil_of_left_ne_nil h.whole_ne _, allDigits_append h.whole h.fraction, nofun,
    tail, htail, by rw [signed_append, List.append_assoc]; rfl⟩

/-! ### Floating-point numbers -/

/-- A locale reads a literal of what it makes plain. The letters of a literal are those of an
exponent. -/
theorem float_eq_ok_iff {s : String} {x : Binary64} :
    l.float s = .ok x ↔ ∃ cs, l.plain s = .ok cs ∧ Binary64.ofLiteral? cs = some x := by
  cases hplain : l.plain s with
  | error f => simp only [float, hplain, bind, Except.bind, reduceCtorEq, false_and, exists_false]
  | ok cs =>
    simp only [float, hplain, bind, Except.bind, Except.ok.injEq, exists_eq_left']
    cases hx : Binary64.ofLiteral? cs with
    | none =>
      simp only [reduceCtorEq, iff_false]
      split
      · exact fun h => by cases h
      split <;> exact fun h => by cases h
    | some y =>
      have htext := exists_ofLiteral?_iff.1 ⟨y, hx⟩
      have hne : cs ≠ [] := by
        rintro rfl
        cases hx
      have hletters : cs.any (fun c => c.isAlpha && c != 'e' && c != 'E') = false := by
        rw [List.any_eq_false]
        intro c hc hletter
        simp only [Bool.and_eq_true, bne_iff_ne] at hletter
        exact (letter_of_numeric (numeric_of_floatText htext hc) hletter.1.1).elim hletter.1.2
          hletter.2
      simp only [hletters, Bool.false_eq_true, if_false, if_neg hne, pure, Except.pure,
        Except.ok.injEq, Option.some.injEq]

/-- What the locale makes of the text is a number when it is the text of a numeral. -/
theorem exists_float_of_plain {s : String} (hs : l.plain s = .ok cs) (h : n.Written cs) :
    ∃ x, Binary64.ofLiteral? cs = some x ∧ l.float s = .ok x := by
  obtain ⟨x, hx⟩ := exists_ofLiteral?_iff.2 h.floatText
  exact ⟨x, hx, float_eq_ok_iff.2 ⟨cs, hs, hx⟩⟩

end Locale
end Criteria
