import Criteria.Proofs.Json.Reading
import Criteria.Proofs.Number.Written

/-! Reading a number.

A text of a numeral is a number of a JSON text when its whole part has no zero in front of
other digits (`Numeral.Literal`). It is read part by part, each part up to the first
character that cannot belong to it, and gives the numeral back, and so its value
(`reads_value_number`). -/
namespace Criteria.Json

open Text

/-- The texts of a numeral in JSON. -/
structure Numeral.Literal (n : Numeral) (cs : List Char) : Prop extends n.Written cs where
  no_leading_zero : ∀ ds, n.whole = '0' :: ds → ds = []

namespace Reader

variable {s r ds tail cs : List Char} {n : Numeral} {v : Number}

theorem takes_digitRun (hds : AllDigits ds) (hr : NoDigit r) : Takes digitRun (ds ++ r) ds r := by
  refine ⟨by simp, ?_⟩
  simp only [digitRun, takeWhile_digits hds hr, dropWhile_digits hds hr]

/-- The character that decides whether something optional is there. -/
theorem takes_peek_head (s : List Char) : Takes peek s s.head? s := ⟨_, rfl⟩

theorem takes_fraction (hds : AllDigits ds) (hr : NoDigit r) (hpoint : some '.' ≠ r.head?) :
    Takes fraction (pointed ds ++ r) ds r := by
  refine (takes_peek_head _).bind ?_
  cases ds with
  | nil =>
    rw [if_neg (fun he => hpoint he.symm)]
    exact takes_pure _ _
  | cons d ds =>
    rw [if_pos (show (pointed (d :: ds) ++ r).head? = some '.' from rfl)]
    refine (takes_next _ _).bind ((takes_digitRun hds hr).bind ?_)
    rw [if_pos (List.cons_ne_nil _ _)]
    exact takes_pure _ _

theorem takes_exponent {e : Option (Bool × List Char)} (h : ExponentText e tail) (hr : NoDigit r)
    (hmark : some 'e' ≠ r.head? ∧ some 'E' ≠ r.head?) : Takes exponent (tail ++ r) e r := by
  cases h with
  | absent =>
    refine (takes_peek_head _).bind ?_
    rw [if_neg (by simp [hmark.1.symm, hmark.2.symm])]
    exact takes_pure _ _
  | @unsigned mark ds hmark hne hds =>
    obtain ⟨d, ds, rfl⟩ := List.exists_cons_of_ne_nil hne
    have hd : ∀ {c : Char}, c.isDigit = false → some d ≠ some c := by
      rintro c hc ⟨⟩
      cases hc.symm.trans (hds d List.mem_cons_self)
    refine (takes_peek mark _).bind ?_
    rw [if_pos (hmark.imp (congrArg some) (congrArg some))]
    refine (takes_next _ _).bind ((takes_peek d _).bind ?_)
    dsimp only
    rw [if_neg (not_or.2 ⟨hd rfl, hd rfl⟩)]
    refine (takes_digitRun hds hr).bind ?_
    rw [if_pos hne, decide_eq_false (hd rfl)]
    exact takes_pure _ _
  | @signed mark ds down hmark hne hds =>
    refine (takes_peek mark _).bind ?_
    rw [if_pos (hmark.imp (congrArg some) (congrArg some))]
    refine (takes_next _ _).bind ((takes_peek _ _).bind ?_)
    have hsign : ∀ down : Bool, some (if down then '-' else '+') = some '+' ∨
        some (if down then '-' else '+') = some '-' := by decide
    have hdown : decide (some (if down then '-' else '+') = some '-') = down := by
      cases down <;> rfl
    dsimp only
    rw [if_pos (hsign down)]
    refine (takes_next _ _).bind ((takes_digitRun hds hr).bind ?_)
    rw [if_pos hne, hdown]
    exact takes_pure _ _

/-- What may follow a value cannot belong to a number. -/
theorem Delimited.ne {c : Char} (hr : Delimited r) (hc : IsNumeric c) : some c ≠ r.head? := by
  intro he
  rcases hr c he.symm with rfl | rfl | rfl <;> simp [IsNumeric] at hc

theorem Delimited.noDigit (hr : Delimited r) : NoDigit r := by
  intro c hc
  rcases hr c hc with rfl | rfl | rfl <;> rfl

/-- The text of a number is read as the parts that it was written from. -/
theorem takes_numeral (h : n.Literal cs) (htail : ExponentText n.exponent tail)
    (hr : Delimited r) :
    Takes (numeral n.negative) (n.whole ++ (pointed n.fraction ++ (tail ++ r))) n r := by
  have hdigit : NoDigit (tail ++ r) := htail.noDigit.append hr.noDigit
  have hpoint : some '.' ≠ (tail ++ r).head? := by
    intro he
    rw [List.head?_append, eq_comm, Option.or_eq_some_iff] at he
    rcases he with he | ⟨-, he⟩
    · exact (htail.numeric (List.mem_of_head? he)).1 rfl
    · exact hr.ne (by simp [IsNumeric]) he.symm
  refine (takes_digitRun h.whole (noDigit_pointed n.fraction hdigit)).bind ?_
  split
  next he => exact absurd he h.whole_ne
  next he => cases h.no_leading_zero _ he
  next =>
    have hmark : some 'e' ≠ r.head? ∧ some 'E' ≠ r.head? :=
      ⟨hr.ne (by simp [IsNumeric]), hr.ne (by simp [IsNumeric])⟩
    exact (takes_fraction h.fraction hdigit hpoint).bind
      ((takes_exponent htail hr.noDigit hmark).bind (takes_pure _ _))

theorem takes_number (h : n.Literal cs) (hv : n.value = some v)
    (htail : ExponentText n.exponent tail) (hr : Delimited r) :
    Takes (number n.negative) (n.whole ++ (pointed n.fraction ++ (tail ++ r))) v r := by
  refine (takes_numeral h htail hr).bind ?_
  rw [hv]
  exact takes_pure _ _

theorem isSpace_of_isDigit {c : Char} (hc : c.isDigit = true) : isSpace c = false := by
  simp only [isSpace, Bool.or_eq_false_iff, beq_eq_false_iff_ne]
  refine ⟨⟨⟨?_, ?_⟩, ?_⟩, ?_⟩ <;> rintro rfl <;> cases hc

/-- A number is all there is to a value that starts with one. -/
theorem takes_start_number (h : n.Literal cs) (hv : n.value = some v) (hr : Delimited r) :
    Takes start (cs ++ r) (.number v) r := by
  obtain ⟨tail, htail, rfl⟩ := h.text
  have hnumber := (takes_number h hv htail hr).map Start.number
  rw [List.append_assoc, List.append_assoc]
  cases hnegative : n.negative with
  | true =>
    rw [hnegative] at hnumber
    exact takes_start rfl rfl hnumber
  | false =>
    rw [hnegative] at hnumber
    obtain ⟨d, ds, hwhole⟩ := List.exists_cons_of_ne_nil h.whole_ne
    have hd : d.isDigit = true := h.whole d (hwhole ▸ List.mem_cons_self)
    rw [hwhole] at hnumber ⊢
    refine (takes_space (isSpace_of_isDigit hd) _).bind ((takes_peek d _).bind ?_)
    simp only [hd, if_true]
    exact hnumber

theorem reads_value_number (h : n.Literal cs) (hv : n.value = some v) (depth : Nat) :
    Reads (value depth) cs (.number v) := by
  intro r hr
  cases depth <;> exact (takes_start_number h hv hr).bind (takes_pure _ _)

end Reader
end Criteria.Json
