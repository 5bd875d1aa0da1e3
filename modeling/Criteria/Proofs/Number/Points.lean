import Criteria.Proofs.Number.Floats
import Criteria.Proofs.Text.Trimming

/-! Points that a locale does not know.

A locale with a comma for its decimal mark and spaces between groups has no use for a point. All
the same it lets a point through, and a literal is read at the end, in which a point is the decimal
mark. So such a locale has two marks (`float_unknown_point`). Its own ends the whole part, and no
group may follow. The point ends nothing: the digits behind it may stand in groups as those before
it do (`PointText`). -/
namespace Criteria

open Text Json

variable {mark : Char} {separator : Option Char} {cs ds tail : List Char}
  {e : Option (Bool × List Char)}

/-! ### Texts without a point -/

theorem Groups.not_mem_point (h : Groups separator cs ds) (hseparator : separator ≠ some '.') :
    '.' ∉ cs := by
  induction h with
  | nil => exact List.not_mem_nil
  | cons hc hthree _ _ ih =>
    simp only [List.mem_cons, List.mem_append, not_or]
    refine ⟨?_, fun hmem => (numeric_of_digits hthree hmem).1 rfl, ih⟩
    rintro rfl
    exact hseparator hc

theorem WholePart.not_mem_point (h : WholePart separator cs ds)
    (hseparator : separator ≠ some '.') : '.' ∉ cs := by
  obtain ⟨-, hrun, hgroups⟩ := h
  simp only [List.mem_append, not_or]
  exact ⟨fun hmem => (numeric_of_digits hrun hmem).1 rfl, hgroups.not_mem_point hseparator⟩

theorem Mantissa.not_mem_point (h : Mantissa mark separator cs) (hmark : mark ≠ '.')
    (hseparator : separator ≠ some '.') : '.' ∉ cs := by
  have hpointed : ∀ {fraction : List Char}, AllDigits fraction → '.' ∉ mark :: fraction := by
    intro fraction hfraction hmem
    exact (List.mem_cons.1 hmem).elim (fun he => hmark he.symm)
      fun hmem => (numeric_of_digits hfraction hmem).1 rfl
  cases h with
  | whole h => exact h.not_mem_point hseparator
  | pointed h hfraction =>
    rw [List.mem_append, not_or]
    exact ⟨h.not_mem_point hseparator, hpointed hfraction⟩
  | fraction _ hfraction => exact hpointed hfraction

/-- A number in the marks of a locale has no point, if none of the marks is one. -/
theorem FloatText.not_mem_point (h : FloatText mark separator cs) (hmark : mark ≠ '.')
    (hseparator : separator ≠ some '.') : '.' ∉ cs := by
  obtain ⟨hsign, hmantissa, htail⟩ := h
  have hsigned : ∀ {negative : Bool} {sign : List Char}, SignText negative sign → '.' ∉ sign := by
    intro negative sign h
    cases h <;> decide
  simp only [List.mem_append, not_or]
  exact ⟨hsigned hsign, hmantissa.not_mem_point hmark hseparator,
    fun hmem => (htail.numeric hmem).1 rfl⟩

namespace Locale

variable {l : Locale} {r : List Char}

/-! ### Reading a number with an unknown point -/

/-- One side of a point is made plain as a whole part is. -/
theorem exists_plainFrom_side (hl : l.KeepsDigits) (h : Side l.group cs ds) (hr : NoDigit r) :
    ∃ before, l.plainFrom true false (cs ++ r) = (l.plainFrom true before r).map (ds ++ ·) := by
  rcases h with ⟨rfl, rfl⟩ | hwhole
  · refine ⟨false, ?_⟩
    cases h : l.plainFrom true false r <;> simp [h, Except.map]
  · exact ⟨true, plainFrom_wholePart hl hwhole hr false⟩

/-- With a point that means nothing to the locale, the text is taken over point and all, and
makes a number. -/
theorem exists_plainFrom_pointText (hl : l.Separated)
    (hunknown : l.decimal ≠ '.' ∧ l.group ≠ some '.') (h : PointText l.group cs) :
    ∃ out, l.plainFrom true false cs = .ok out ∧ FloatText '.' none out := by
  obtain @⟨_, sign, before, ds, behind, es, _, tail, hsign, hbefore, hbehind, hne, htail⟩ := h
  refine ⟨sign ++ (ds ++ '.' :: (es ++ tail)), ?_, ?_⟩
  · obtain ⟨b, hfront⟩ := exists_plainFrom_side hl.keepsDigits hbefore
      (noDigit_cons (show '.'.isDigit = false from rfl) (behind ++ tail))
    obtain ⟨b', hback⟩ := exists_plainFrom_side hl.keepsDigits hbehind htail.noDigit
    have hrest := plainFrom_fraction hl allDigits_nil htail true b'
    rw [List.nil_append] at hrest
    rw [plainFrom_sign hl.keepsSigned hsign, hfront,
      plainFrom_cons (Ne.symm hunknown.2) (Ne.symm hunknown.1),
      show (true && '.' != 'e' && '.' != 'E') = true from rfl, show '.'.isDigit = false from rfl,
      hback, hrest]
    rfl
  · have hmantissa : Mantissa '.' none (ds ++ '.' :: es) :=
      mantissa_of_pointed hbefore.allDigits hbehind.allDigits hne
    have htext := FloatText.mk hsign hmantissa htail
    rwa [List.append_assoc, List.cons_append] at htext

/-- **A locale that does not know the point reads numbers with one all the same.** It reads a text
without a point just when it is a number in its own marks, and then no group follows the decimal
mark. A text with a point it reads just when digits stand before the point or behind it, in groups
on either side, and refuses it otherwise. -/
theorem float_unknown_point (hl : l.Separated) (hunknown : l.decimal ≠ '.' ∧ l.group ≠ some '.')
    (s : String) :
    ('.' ∉ s.toList →
      ((∃ x, l.float s = .ok x) ↔ FloatText l.decimal l.group (trim s.toList))) ∧
    ('.' ∈ s.toList → ((∃ f, l.float s = .error f) ↔ ¬PointText l.group (trim s.toList))) ∧
    ∀ a mark b, trim s.toList = a ++ mark :: b → mark = l.decimal ∨ mark = 'e' ∨ mark = 'E' →
      (∃ c ∈ b, some c = l.group) → ∃ f, l.float s = .error f := by
  have hpoint : '.' ∈ trim s.toList ↔ '.' ∈ s.toList := mem_trim_iff rfl
  have hread : (∃ x, l.float s = .ok x) ↔
      FloatText l.decimal l.group (trim s.toList) ∨ PointText l.group (trim s.toList) := by
    constructor
    · intro h
      obtain ⟨x, hx⟩ := h
      obtain ⟨out, hplain, hliteral⟩ := float_eq_ok_iff.1 hx
      have hout : FloatText '.' none out := exists_ofLiteral?_iff.1 ⟨x, hliteral⟩
      exact (texts_of_plainFrom hl hplain hout).imp_right And.right
    · intro h
      obtain ⟨out, hplain, hout⟩ :=
        h.elim (exists_plainFrom_floatText hl) (exists_plainFrom_pointText hl hunknown)
      obtain ⟨x, hx⟩ := exists_ofLiteral?_iff.2 hout
      exact ⟨x, float_eq_ok_iff.2 ⟨out, hplain, hx⟩⟩
  refine ⟨fun hnone => ?_, fun hsome => ?_, ?_⟩
  · rw [hread, or_iff_left fun h => hnone (hpoint.1 h.mem_point)]
  · have hown : ¬FloatText l.decimal l.group (trim s.toList) :=
      fun h => h.not_mem_point hunknown.1 hunknown.2 (hpoint.2 hsome)
    rw [or_iff_right hown] at hread
    rw [← hread]
    cases l.float s <;> simp
  · exact fun a mark b htrim hmark hlate => exists_error_of_late hl htrim hmark hlate

/-! ### A comma and spaces -/

/-- Spaces between groups of digits, and a comma before the fraction. -/
def spaceGroups : Locale := { invariant with decimal := ',', group := some ' ' }

theorem separated_spaceGroups : spaceGroups.Separated :=
  ⟨by decide, by unfold Neutral; decide, by simp [spaceGroups, Neutral]⟩

theorem unknown_spaceGroups : spaceGroups.decimal ≠ '.' ∧ spaceGroups.group ≠ some '.' := by decide

/-- Groups on both sides of the point, and an exponent. -/
theorem float_unknown_point_grouped :
    spaceGroups.Separated ∧ (spaceGroups.decimal ≠ '.' ∧ spaceGroups.group ≠ some '.') ∧
      '.' ∈ " -1 234.567 890e2".toList ∧ ¬∃ f, spaceGroups.float " -1 234.567 890e2" = .error f := by
  have hmem : '.' ∈ " -1 234.567 890e2".toList := by decide
  obtain ⟨-, hpoint, -⟩ :=
    float_unknown_point separated_spaceGroups unknown_spaceGroups " -1 234.567 890e2"
  have hgroup : ∀ {a b c : Char}, [a, b, c].all Char.isDigit = true →
      Groups spaceGroups.group [' ', a, b, c] [a, b, c] :=
    fun hdigits => .cons rfl (List.all_eq_true.1 hdigits) rfl .nil
  have htext : PointText spaceGroups.group (trim " -1 234.567 890e2".toList) :=
    .mk .minus (.inr (.mk (List.cons_ne_nil '1' []) (List.all_eq_true.1 rfl) (hgroup rfl)))
      (.inr (.mk (List.cons_ne_nil '5' ['6', '7']) (List.all_eq_true.1 rfl) (hgroup rfl)))
      (List.cons_ne_nil _ _)
      (.unsigned (.inl rfl) (List.cons_ne_nil '2' []) (List.all_eq_true.1 rfl))
  exact ⟨separated_spaceGroups, unknown_spaceGroups, hmem,
    fun herror => (hpoint hmem).1 herror htext⟩

/-- A group behind a point is let through, and the point is read as the decimal mark. -/
theorem point_read_as_mark :
    spaceGroups.Separated ∧ (spaceGroups.decimal ≠ '.' ∧ spaceGroups.group ≠ some '.') ∧ ∃ x,
      Binary64.ofText? "1.234567".toList = some x ∧ spaceGroups.float "1.234 567" = .ok x := by
  obtain ⟨x, hx⟩ : ∃ x, Binary64.ofLiteral? "1.234567".toList = some x := ⟨_, rfl⟩
  exact ⟨separated_spaceGroups, unknown_spaceGroups, x, hx, float_eq_ok_iff.2 ⟨_, rfl, hx⟩⟩

end Locale
end Criteria
