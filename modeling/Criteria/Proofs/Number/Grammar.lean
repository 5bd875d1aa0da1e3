import Criteria.Binary64.Literal
import Criteria.Proofs.Text.Digits
import Mathlib.Data.List.Basic

/-! The grammar of numbers.

A number is written with a sign or none, a whole part whose digits may stand in groups, a mark
and a fraction where it has one, and its exponent where it has one (`FloatText`). The mark and
the separator of groups are those of a locale, or a point and none. What is written in the second
way is what can be read as a literal (`exists_ofLiteral?_iff`). -/
namespace Criteria

open Text

/-! ### The parts of a number -/

/-- What may stand in front of a number, and whether it makes the number negative. -/
inductive SignText : Bool → List Char → Prop
  | absent : SignText false []
  | plus : SignText false ['+']
  | minus : SignText true ['-']

/-- Groups of three digits, each behind a separator, and the digits alone. -/
inductive Groups (separator : Option Char) : List Char → List Char → Prop
  | nil : Groups separator [] []
  | cons {c : Char} {three r ds : List Char} : separator = some c → AllDigits three →
      three.length = 3 → Groups separator r ds → Groups separator (c :: (three ++ r)) (three ++ ds)

/-- The whole part of a number, and the digits alone. -/
inductive WholePart (separator : Option Char) : List Char → List Char → Prop
  | mk {run groups ds : List Char} : run ≠ [] → AllDigits run → Groups separator groups ds →
      WholePart separator (run ++ groups) (run ++ ds)

/-- The digits of a number that may have a fraction. There are some on one side of the mark. -/
inductive Mantissa (mark : Char) (separator : Option Char) : List Char → Prop
  | whole {cs ds : List Char} : WholePart separator cs ds → Mantissa mark separator cs
  | pointed {cs ds fraction : List Char} : WholePart separator cs ds → AllDigits fraction →
      Mantissa mark separator (cs ++ mark :: fraction)
  | fraction {fraction : List Char} : fraction ≠ [] → AllDigits fraction →
      Mantissa mark separator (mark :: fraction)

namespace Json

/-- The texts of an exponent. Its mark is of either case, and its sign may be left out. -/
inductive ExponentText : Option (Bool × List Char) → List Char → Prop
  | absent : ExponentText none []
  | unsigned {mark : Char} {ds : List Char} : mark = 'e' ∨ mark = 'E' → ds ≠ [] → AllDigits ds →
      ExponentText (some (false, ds)) (mark :: ds)
  | signed {mark : Char} {ds : List Char} (down : Bool) : mark = 'e' ∨ mark = 'E' → ds ≠ [] →
      AllDigits ds → ExponentText (some (down, ds)) (mark :: (if down then '-' else '+') :: ds)

end Json

open Json

/-- The text of a floating-point number. -/
inductive FloatText (mark : Char) (separator : Option Char) : List Char → Prop
  | mk {negative : Bool} {sign mantissa : List Char} {e : Option (Bool × List Char)}
      {tail : List Char} : SignText negative sign → Mantissa mark separator mantissa →
      ExponentText e tail → FloatText mark separator (sign ++ (mantissa ++ tail))

/-- What may stand on one side of a point that ends no whole part: a whole part, or nothing. -/
def Side (separator : Option Char) (cs ds : List Char) : Prop :=
  cs = [] ∧ ds = [] ∨ WholePart separator cs ds

/-- The text of a number with a point where the mark is another character. Groups may stand on
both sides of the point. -/
inductive PointText (separator : Option Char) : List Char → Prop
  | mk {negative : Bool} {sign before ds behind es : List Char} {e : Option (Bool × List Char)}
      {tail : List Char} : SignText negative sign → Side separator before ds →
      Side separator behind es → ds ++ es ≠ [] → ExponentText e tail →
      PointText separator (sign ++ (before ++ '.' :: (behind ++ tail)))

variable {separator : Option Char} {negative : Bool} {cs ds sign fraction tail r : List Char}
  {e : Option (Bool × List Char)}

theorem Groups.allDigits (h : Groups separator cs ds) : AllDigits ds := by
  induction h with
  | nil => exact allDigits_nil
  | cons _ hthree _ _ ih => exact allDigits_append hthree ih

/-- Groups begin with a separator. -/
theorem Groups.noDigit (h : Groups separator cs ds)
    (hseparator : ∀ c ∈ separator, c.isDigit = false) : NoDigit cs := by
  cases h with
  | nil => exact noDigit_nil
  | cons hc => exact noDigit_cons (hseparator _ hc) _

theorem WholePart.allDigits (h : WholePart separator cs ds) : AllDigits ds := by
  obtain ⟨-, hrun, hgroups⟩ := h
  exact allDigits_append hrun hgroups.allDigits

theorem WholePart.digits_ne (h : WholePart separator cs ds) : ds ≠ [] := by
  obtain ⟨hne, -, -⟩ := h
  exact List.append_ne_nil_of_left_ne_nil hne _

theorem wholePart_of_digits (hne : ds ≠ []) (hds : AllDigits ds) : WholePart separator ds ds := by
  have h := WholePart.mk hne hds (@Groups.nil separator)
  rwa [List.append_nil] at h

theorem mantissa_of_pointed {mark : Char} (hds : AllDigits ds) (hfraction : AllDigits fraction)
    (hne : ds ++ fraction ≠ []) : Mantissa mark separator (ds ++ mark :: fraction) := by
  cases ds with
  | nil => exact .fraction hne hfraction
  | cons d ds => exact .pointed (wholePart_of_digits (List.cons_ne_nil d ds) hds) hfraction

/-- Without a separator there are no groups. -/
theorem WholePart.eq_digits (h : WholePart none cs ds) : cs = ds := by
  obtain ⟨-, -, hgroups⟩ := h
  cases hgroups with
  | nil => rfl
  | cons hc => cases hc

theorem Side.allDigits (h : Side separator cs ds) : AllDigits ds :=
  h.elim (fun hnil => hnil.2 ▸ allDigits_nil) fun hwhole => hwhole.allDigits

theorem PointText.mem_point (h : PointText separator cs) : '.' ∈ cs := by
  obtain ⟨-, -, -, -, -⟩ := h
  exact List.mem_append_right _ (List.mem_append_right _ List.mem_cons_self)

theorem Mantissa.exists_digit {mark : Char} (h : Mantissa mark separator cs) :
    ∃ c ∈ cs, c.isDigit = true := by
  have hdigit : ∀ {ds : List Char}, ds ≠ [] → AllDigits ds → ∃ c ∈ ds, c.isDigit = true := by
    intro ds hne hds
    obtain ⟨c, hc⟩ := List.exists_mem_of_ne_nil ds hne
    exact ⟨c, hc, hds c hc⟩
  have hwhole : ∀ {cs ds : List Char}, WholePart separator cs ds → ∃ c ∈ cs, c.isDigit = true := by
    intro cs ds h
    obtain ⟨hne, hrun, -⟩ := h
    obtain ⟨c, hc, hcdigit⟩ := hdigit hne hrun
    exact ⟨c, List.mem_append_left _ hc, hcdigit⟩
  cases h with
  | whole h => exact hwhole h
  | pointed h =>
    obtain ⟨c, hc, hcdigit⟩ := hwhole h
    exact ⟨c, List.mem_append_left _ hc, hcdigit⟩
  | fraction hne hfraction =>
    obtain ⟨c, hc, hcdigit⟩ := hdigit hne hfraction
    exact ⟨c, List.mem_cons_of_mem _ hc, hcdigit⟩

theorem FloatText.exists_digit {mark : Char} (h : FloatText mark separator cs) :
    ∃ c ∈ cs, c.isDigit = true := by
  obtain ⟨-, hmantissa, -⟩ := h
  obtain ⟨c, hc, hdigit⟩ := hmantissa.exists_digit
  exact ⟨c, List.mem_append_right _ (List.mem_append_left _ hc), hdigit⟩

theorem Json.ExponentText.noDigit (h : ExponentText e tail) : NoDigit tail := by
  intro c hc
  cases h with
  | absent => cases hc
  | unsigned hmark | signed _ hmark =>
    cases hc
    rcases hmark with rfl | rfl <;> rfl

/-! ### Reading a literal -/

theorem sign_append (hsign : SignText negative sign) (hr : ∀ c ∈ r.head?, c ≠ '+' ∧ c ≠ '-') :
    Literal.sign (sign ++ r) = (negative, r) := by
  cases hsign with
  | plus | minus => rfl
  | absent =>
    cases r with
    | nil => rfl
    | cons c r =>
      obtain ⟨hplus, hminus⟩ := hr c rfl
      rw [List.nil_append, Literal.sign]
      · rintro _ ⟨⟩
        exact hplus rfl
      · rintro _ ⟨⟩
        exact hminus rfl

theorem exists_sign (cs : List Char) :
    ∃ sign, SignText (Literal.sign cs).1 sign ∧ cs = sign ++ (Literal.sign cs).2 := by
  unfold Literal.sign
  split
  · exact ⟨['+'], .plus, rfl⟩
  · exact ⟨['-'], .minus, rfl⟩
  · exact ⟨[], .absent, rfl⟩

theorem ne_sign_of_digit {c : Char} (hc : c.isDigit = true) : c ≠ '+' ∧ c ≠ '-' := by
  constructor <;> rintro rfl <;> cases hc

theorem ne_sign_of_digits (hne : ds ≠ []) (hds : AllDigits ds) (r : List Char) :
    ∀ c ∈ (ds ++ r).head?, c ≠ '+' ∧ c ≠ '-' := by
  obtain ⟨d, ds, rfl⟩ := List.exists_cons_of_ne_nil hne
  intro c hc
  cases hc
  exact ne_sign_of_digit (hds d List.mem_cons_self)

/-- The reader of exponents accepts just the texts of exponents. -/
theorem exists_exponent?_iff :
    (∃ i, Literal.exponent? tail = some i) ↔ ∃ e, ExponentText e tail := by
  constructor
  · intro h
    obtain ⟨i, hi⟩ := h
    cases tail with
    | nil => exact ⟨_, .absent⟩
    | cons c r =>
      obtain ⟨sign, hsign, hr⟩ := exists_sign r
      simp only [Literal.exponent?] at hi
      generalize Literal.sign r = p at hi hsign hr
      obtain ⟨negative, ds⟩ := p
      split at hi
      next hmark =>
        split at hi
        next hds =>
          have hall : AllDigits ds := List.all_eq_true.1 hds.2
          dsimp only at hsign hr
          subst hr
          cases hsign with
          | absent => exact ⟨_, .unsigned hmark hds.1 hall⟩
          | plus => exact ⟨_, .signed false hmark hds.1 hall⟩
          | minus => exact ⟨_, .signed true hmark hds.1 hall⟩
        next => cases hi
      next => cases hi
  · intro h
    obtain ⟨e, h⟩ := h
    have hread : ∀ {mark : Char} {ds r : List Char} {down : Bool}, mark = 'e' ∨ mark = 'E' →
        Literal.sign r = (down, ds) → ds ≠ [] → AllDigits ds →
          ∃ i, Literal.exponent? (mark :: r) = some i := by
      intro mark ds r down hmark hsign hne hds
      have hall : ds ≠ [] ∧ ds.all Char.isDigit = true := ⟨hne, List.all_eq_true.2 hds⟩
      exact ⟨_, by simp only [Literal.exponent?, if_pos hmark, hsign, if_pos hall]; rfl⟩
    cases h with
    | absent => exact ⟨0, rfl⟩
    | unsigned hmark hne hds =>
      have hsign := sign_append .absent (ne_sign_of_digits hne hds [])
      rw [List.append_nil] at hsign
      exact hread hmark hsign hne hds
    | signed down hmark hne hds =>
      cases down <;> exact hread hmark rfl hne hds

/-- A literal without a point. -/
theorem read?_whole (hsign : SignText negative sign) (hne : ds ≠ []) (hds : AllDigits ds)
    (htail : ExponentText e tail) : Literal.read? (sign ++ (ds ++ tail)) =
      (Literal.exponent? tail).map fun e => ⟨negative, ds, e⟩ := by
  have hpoint : ∀ t, tail ≠ '.' :: t := by
    rintro t rfl
    cases htail with
    | unsigned hmark | signed _ hmark => rcases hmark with hmark | hmark <;> cases hmark
  simp only [Literal.read?, sign_append hsign (ne_sign_of_digits hne hds tail),
    takeWhile_digits hds htail.noDigit, dropWhile_digits hds htail.noDigit]
  simp only [List.append_nil, if_neg hne, List.length_nil, Int.natCast_zero, Int.sub_zero]

/-- A literal with a point, and with digits on one side of it. -/
theorem read?_pointed (hsign : SignText negative sign) (hds : AllDigits ds)
    (hfraction : AllDigits fraction) (hne : ds ++ fraction ≠ []) (htail : NoDigit tail) :
    Literal.read? (sign ++ (ds ++ '.' :: (fraction ++ tail))) =
      (Literal.exponent? tail).map fun e => ⟨negative, ds ++ fraction, e - fraction.length⟩ := by
  have hstart : ∀ c ∈ (ds ++ '.' :: (fraction ++ tail)).head?, c ≠ '+' ∧ c ≠ '-' := by
    cases ds with
    | nil =>
      intro c hc
      cases hc
      decide
    | cons d ds => exact ne_sign_of_digits (List.cons_ne_nil d ds) hds _
  have hpoint : NoDigit ('.' :: (fraction ++ tail)) := noDigit_cons rfl _
  simp only [Literal.read?, sign_append hsign hstart, takeWhile_digits hds hpoint,
    dropWhile_digits hds hpoint, takeWhile_digits hfraction htail,
    dropWhile_digits hfraction htail, if_neg hne]

/-- **A literal can be read just when** it is written as a number, with a point for its mark and
without groups. -/
theorem exists_ofLiteral?_iff :
    (∃ x, Binary64.ofLiteral? cs = some x) ↔ FloatText '.' none cs := by
  simp only [Binary64.ofLiteral?, Option.map_eq_some_iff]
  constructor
  · intro h
    obtain ⟨-, literal, h, -⟩ := h
    obtain ⟨sign, hsign, hcs⟩ := exists_sign cs
    simp only [Literal.read?] at h
    generalize Literal.sign cs = p at h hsign hcs
    obtain ⟨negative, r⟩ := p
    dsimp only at h hsign hcs
    subst hcs
    have hwhole : AllDigits (r.takeWhile Char.isDigit) := fun c hc => List.mem_takeWhile_imp hc
    have hr : r.takeWhile Char.isDigit ++ r.dropWhile Char.isDigit = r :=
      List.takeWhile_append_dropWhile
    generalize r.takeWhile Char.isDigit = ds at h hwhole hr
    generalize r.dropWhile Char.isDigit = after at h hr
    subst hr
    split at h
    next t =>
      have hfraction : AllDigits (t.takeWhile Char.isDigit) := fun c hc => List.mem_takeWhile_imp hc
      split at h
      next => cases h
      next hne =>
        obtain ⟨i, hi, -⟩ := Option.map_eq_some_iff.1 h
        obtain ⟨e, htail⟩ := exists_exponent?_iff.1 ⟨i, hi⟩
        have hmantissa : Mantissa '.' none (ds ++ '.' :: t.takeWhile Char.isDigit) :=
          mantissa_of_pointed hwhole hfraction hne
        have htext := FloatText.mk hsign hmantissa htail
        rwa [List.append_assoc, List.cons_append, List.takeWhile_append_dropWhile] at htext
    next =>
      split at h
      next => cases h
      next hne =>
        rw [List.append_nil] at hne
        obtain ⟨i, hi, -⟩ := Option.map_eq_some_iff.1 h
        obtain ⟨e, htail⟩ := exists_exponent?_iff.1 ⟨i, hi⟩
        exact .mk hsign (.whole (wholePart_of_digits hne hwhole)) htail
  · intro h
    obtain ⟨hsign, hmantissa, htail⟩ := h
    obtain ⟨i, hi⟩ := exists_exponent?_iff.2 ⟨_, htail⟩
    cases hmantissa with
    | whole hcs =>
      obtain rfl := hcs.eq_digits
      exact ⟨_, _, by rw [read?_whole hsign hcs.digits_ne hcs.allDigits htail, hi]; rfl, rfl⟩
    | pointed hcs hfraction =>
      obtain rfl := hcs.eq_digits
      rw [List.append_assoc, List.cons_append, read?_pointed hsign hcs.allDigits hfraction
        (List.append_ne_nil_of_left_ne_nil hcs.digits_ne _) htail.noDigit, hi]
      exact ⟨_, _, rfl, rfl⟩
    | fraction hne hfraction =>
      have hread := read?_pointed hsign allDigits_nil hfraction hne htail.noDigit
      rw [List.nil_append] at hread
      rw [List.cons_append, hread, hi]
      exact ⟨_, _, rfl, rfl⟩

end Criteria
