import Criteria.Json.Number
import Criteria.Proofs.Number.Grammar

/-! Numbers as they are written.

A numeral is written with a sign when it is negative, its whole digits, a point and more
digits where it has a fraction, and its exponent where it has one (`Numeral.Written`).
Such a text is that of a floating-point number (`Numeral.Written.floatText`), and a number
that has been read is written so again (`exists_written_chars`): its text has one point at
most, between digits, and else nothing but digits, signs and the mark of an exponent. -/
namespace Criteria

open Text

/-! ### The text of a numeral -/

namespace Json

/-- A fraction with its point. -/
def pointed : List Char → List Char
  | [] => []
  | d :: ds => '.' :: d :: ds

/-- `cs` is a text of the numeral. -/
structure Numeral.Written (n : Numeral) (cs : List Char) : Prop where
  whole_ne : n.whole ≠ []
  whole : AllDigits n.whole
  fraction : AllDigits n.fraction
  text : ∃ tail, ExponentText n.exponent tail ∧
    cs = Binary64.signed n.negative n.whole ++ (pointed n.fraction ++ tail)

/-- The characters of numbers. -/
def IsNumeric (c : Char) : Prop :=
  c.isDigit = true ∨ c = '-' ∨ c = '+' ∨ c = '.' ∨ c = 'e' ∨ c = 'E'

variable {n : Numeral} {cs ds tail : List Char} {e : Option (Bool × List Char)}

theorem numeric_of_digits (hds : AllDigits ds) {c : Char} (hc : c ∈ ds) :
    c ≠ '.' ∧ IsNumeric c := by
  refine ⟨?_, .inl (hds c hc)⟩
  rintro rfl
  cases hds '.' hc

theorem ExponentText.numeric (h : ExponentText e tail) {c : Char} (hc : c ∈ tail) :
    c ≠ '.' ∧ IsNumeric c := by
  cases h with
  | absent => cases hc
  | unsigned hmark _ hds =>
    rcases List.mem_cons.1 hc with rfl | hc
    · rcases hmark with rfl | rfl <;> simp [IsNumeric]
    · exact numeric_of_digits hds hc
  | signed down hmark _ hds =>
    rcases List.mem_cons.1 hc with rfl | hc
    · rcases hmark with rfl | rfl <;> simp [IsNumeric]
    rcases List.mem_cons.1 hc with rfl | hc
    · cases down <;> simp [IsNumeric]
    · exact numeric_of_digits hds hc

/-- After the point there is no other. -/
theorem ExponentText.numeric_append (h : ExponentText e tail) (hds : AllDigits ds) {c : Char}
    (hc : c ∈ ds ++ tail) : c ≠ '.' ∧ IsNumeric c :=
  (List.mem_append.1 hc).elim (numeric_of_digits hds) h.numeric

theorem pointed_of_ne (h : ds ≠ []) : pointed ds = '.' :: ds := by
  obtain ⟨d, ds, rfl⟩ := List.exists_cons_of_ne_nil h
  rfl

theorem noDigit_pointed (fraction : List Char) (htail : NoDigit tail) :
    NoDigit (pointed fraction ++ tail) := by
  cases fraction with
  | nil => exact htail
  | cons d ds =>
    intro c hc
    cases hc
    rfl

theorem signed_append (negative : Bool) (cs ds : List Char) :
    Binary64.signed negative (cs ++ ds) = Binary64.signed negative cs ++ ds := by
  cases negative <;> rfl

theorem mem_signed {c : Char} {negative : Bool} (h : c ∈ Binary64.signed negative cs) :
    c = '-' ∨ c ∈ cs := by
  cases negative with
  | false => exact .inr h
  | true => exact List.mem_cons.1 h

theorem mem_signed_of_mem {c : Char} (negative : Bool) (h : c ∈ cs) :
    c ∈ Binary64.signed negative cs := by
  cases negative with
  | false => exact h
  | true => exact List.mem_cons_of_mem '-' h

/-- The point stands between the whole part and the fraction, and nowhere else. -/
theorem Numeral.Written.parts {a b : List Char} (h : n.Written (a ++ '.' :: b)) :
    a = Binary64.signed n.negative n.whole ∧
      ∃ tail, ExponentText n.exponent tail ∧ b = n.fraction ++ tail := by
  obtain ⟨tail, htail, he⟩ := h.text
  have hwhole : '.' ∉ Binary64.signed n.negative n.whole := fun hmem =>
    (mem_signed hmem).elim (by decide) fun hmem => (numeric_of_digits h.whole hmem).1 rfl
  have hrest : '.' ∉ n.fraction ++ tail := fun hmem => (htail.numeric_append h.fraction hmem).1 rfl
  by_cases hfraction : n.fraction = []
  · -- without a fraction there is no point at all
    rw [hfraction] at he hrest
    have hmem : '.' ∈ Binary64.signed n.negative n.whole ++ tail := he ▸ List.mem_append_cons_self
    exact (List.mem_append.1 hmem).elim (absurd · hwhole) (absurd · hrest)
  · rw [pointed_of_ne hfraction] at he
    obtain ⟨rfl, -, rfl⟩ := (List.append_cons_inj_of_notMem hwhole hrest).1 he.symm
    exact ⟨rfl, tail, htail, rfl⟩

theorem exists_signText (negative : Bool) :
    ∃ sign, SignText negative sign ∧ ∀ cs, Binary64.signed negative cs = sign ++ cs := by
  cases negative with
  | false => exact ⟨[], .absent, fun _ => rfl⟩
  | true => exact ⟨['-'], .minus, fun _ => rfl⟩

/-- A numeral is written as a floating-point number is. -/
theorem Numeral.Written.floatText (h : n.Written cs) : FloatText '.' none cs := by
  obtain ⟨tail, htail, rfl⟩ := h.text
  obtain ⟨sign, hsign, hsigned⟩ := exists_signText n.negative
  have hwhole := @wholePart_of_digits none _ h.whole_ne h.whole
  rw [hsigned, List.append_assoc, ← List.append_assoc n.whole]
  refine .mk hsign ?_ htail
  by_cases hfraction : n.fraction = []
  · rw [hfraction, pointed, List.append_nil]
    exact .whole hwhole
  · rw [pointed_of_ne hfraction]
    exact .pointed hwhole h.fraction

/-! ### The characters of a text -/

theorem numeric_of_sign {negative : Bool} {sign : List Char} (h : SignText negative sign) {c : Char}
    (hc : c ∈ sign) : IsNumeric c := by
  cases h with
  | absent => cases hc
  | plus | minus =>
    obtain rfl := List.mem_singleton.1 hc
    simp [IsNumeric]

theorem numeric_of_mantissa (h : Mantissa '.' none cs) {c : Char} (hc : c ∈ cs) : IsNumeric c := by
  have hwhole : ∀ {cs ds : List Char}, WholePart none cs ds → c ∈ cs → IsNumeric c := by
    intro cs ds h hc
    obtain rfl := h.eq_digits
    exact .inl (h.allDigits c hc)
  have hpointed : ∀ {fraction : List Char}, AllDigits fraction → c ∈ '.' :: fraction →
      IsNumeric c := by
    intro fraction hfraction hc
    rcases List.mem_cons.1 hc with rfl | hc
    · simp [IsNumeric]
    · exact .inl (hfraction c hc)
  cases h with
  | whole h => exact hwhole h hc
  | pointed h hfraction => exact (List.mem_append.1 hc).elim (hwhole h) (hpointed hfraction)
  | fraction _ hfraction => exact hpointed hfraction hc

theorem numeric_of_floatText (h : FloatText '.' none cs) {c : Char} (hc : c ∈ cs) :
    IsNumeric c := by
  obtain ⟨hsign, hmantissa, htail⟩ := h
  rcases List.mem_append.1 hc with hc | hc
  · exact numeric_of_sign hsign hc
  rcases List.mem_append.1 hc with hc | hc
  · exact numeric_of_mantissa hmantissa hc
  · exact (htail.numeric hc).2

/-- A number is written with digits, signs, a point and an exponent only. -/
theorem Numeral.Written.numeric (h : n.Written cs) {c : Char} (hc : c ∈ cs) : IsNumeric c :=
  numeric_of_floatText h.floatText hc

/-! ### The texts of numbers -/

/-- A number between two powers of ten has a known count of digits. -/
theorem length_digits {k n : Nat} (hlow : 10 ^ k ≤ n) (hhigh : n < 10 ^ (k + 1)) :
    (digits n).length = k + 1 := by
  induction k generalizing n with
  | zero =>
    rw [digits, if_pos hhigh]
    rfl
  | succ k ih =>
    have hten : 10 ≤ n := Nat.le_trans (Nat.le_self_pow (Nat.succ_ne_zero k) 10) hlow
    have hdiv : 10 ^ k ≤ n / 10 ∧ n / 10 < 10 ^ (k + 1) := by
      rw [Nat.pow_succ] at hlow hhigh
      omega
    rw [digits, if_neg (Nat.not_lt_of_le hten), List.length_append, ih hdiv.1 hdiv.2]
    rfl

/-- The digits of a magnitude, when the place of the first one is known. -/
theorem shortest_of_leading {m : Magnitude} {first : Int} (h : m.leading = first) (tie : Tie) :
    m.shortest tie =
      match (List.range 17).findSome? fun (n : Nat) => m.onGrid tie (first - n) with
      | some d => d.stripped
      | none => ⟨0, 0⟩ := by
  subst h
  rfl

/-- A number without an exponent. Its fraction may be empty, and then there is no point. -/
theorem written_plain (negative : Bool) {es : List Char} (hne : ds ≠ []) (hds : AllDigits ds)
    (hes : AllDigits es) : Numeral.Written ⟨negative, ds, es, none⟩
      (Binary64.signed negative (ds ++ pointed es)) :=
  ⟨hne, hds, hes, [], .absent, by rw [signed_append, List.append_nil]⟩

/-- The digits of a decimal are written around a point, with at least one on either side. -/
theorem positional_eq (d : Decimal) : ∃ ds es, ds ≠ [] ∧ AllDigits ds ∧ AllDigits es ∧
    d.positional ['.', '0'] = ds ++ pointed es := by
  have hds := allDigits_digits d.coefficient
  have hne := digits_ne_nil d.coefficient
  simp only [Decimal.positional]
  generalize digits d.coefficient = ds at hds hne ⊢
  split
  · have hes := allDigits_append (allDigits_zeros (d.leading + 1).natAbs) hds
    refine ⟨['0'], _, List.cons_ne_nil _ _, allDigits_zeros 1, hes, ?_⟩
    rw [pointed_of_ne (List.append_ne_nil_of_right_ne_nil _ hne), List.append_assoc]
    rfl
  split
  · exact ⟨_, ['0'], List.append_ne_nil_of_left_ne_nil hne _,
      allDigits_append hds (allDigits_zeros _), allDigits_zeros 1, rfl⟩
  next hpoint hlength =>
    have htake : ds.take (d.leading + 1).toNat ≠ [] := by
      rw [Ne, List.take_eq_nil_iff, not_or]
      exact ⟨by omega, hne⟩
    have hdrop : ds.drop (d.leading + 1).toNat ≠ [] := by
      rw [Ne, List.drop_eq_nil_iff]
      exact hlength
    refine ⟨_, ds.drop (d.leading + 1).toNat, htake, fun c hc => hds c (List.mem_of_mem_take hc),
      fun c hc => hds c (List.mem_of_mem_drop hc), ?_⟩
    rw [pointed_of_ne hdrop, List.append_assoc]
    rfl

theorem exists_written_scientific (negative : Bool) (d : Decimal) :
    ∃ n : Numeral, n.Written (Binary64.signed negative d.scientific) := by
  have hds := allDigits_digits d.coefficient
  simp only [Decimal.scientific]
  obtain ⟨c, es, h⟩ := List.exists_cons_of_ne_nil (digits_ne_nil d.coefficient)
  rw [h] at hds ⊢
  have hc : AllDigits [c] := fun b hb => List.mem_singleton.1 hb ▸ hds c List.mem_cons_self
  have hes : AllDigits es := fun b hb => hds b (List.mem_cons_of_mem c hb)
  have htail := ExponentText.signed (decide (d.leading < 0)) (.inl rfl)
    (digits_ne_nil d.leading.natAbs) (allDigits_digits _)
  refine ⟨⟨negative, [c], es, _⟩, List.cons_ne_nil _ _, hc, hes, _, htail, ?_⟩
  rw [List.append_assoc, List.append_assoc, signed_append]
  cases es <;> simp [pointed]

/-- A number that is kept is finite. -/
theorem exists_finite_of_float {x : Binary64} (h : n.float = some x) :
    ∃ negative m, x = .finite negative m := by
  unfold Numeral.float at h
  have hscaled : ∀ {y : Option Magnitude}, y.map (Binary64.finite n.negative) = some x →
      ∃ negative m, x = .finite negative m := by
    intro y hy
    obtain ⟨m, -, rfl⟩ := Option.map_eq_some_iff.1 hy
    exact ⟨n.negative, m, rfl⟩
  dsimp only at h
  split at h
  · exact hscaled h
  split at h
  · exact hscaled h
  split at h
  · cases h
    exact ⟨_, _, rfl⟩
  · cases h

/-- A number of a JSON text is finite, or it is none. -/
theorem exists_finite_of_value {x : Binary64} (h : n.value = some (.float x)) :
    ∃ negative m, x = .finite negative m := by
  have hfloat : ∀ {v : Number}, n.float.map Number.float = some v → v = .float x →
      ∃ negative m, x = .finite negative m := by
    intro v hv hx
    obtain ⟨y, hy, rfl⟩ := Option.map_eq_some_iff.1 hv
    cases hx
    exact exists_finite_of_float hy
  unfold Numeral.value at h
  dsimp only at h
  split at h
  · exact hfloat h rfl
  split at h
  · cases h
  split at h
  · exact hfloat h rfl
  · cases h

/-- Every finite number is written as a literal. -/
theorem exists_written_finite (negative : Bool) (m : Magnitude) :
    ∃ n : Numeral, n.Written (Binary64.finite negative m).jsonText.toList := by
  simp only [Binary64.jsonText, Binary64.jsonChars?, String.toList_ofList]
  have hzero : AllDigits ['0'] := allDigits_zeros 1
  split
  · exact ⟨_, written_plain negative (List.cons_ne_nil _ _) hzero hzero⟩
  split
  · obtain ⟨ds, es, hne, hds, hes, he⟩ := positional_eq (m.shortest .even)
    exact ⟨_, he ▸ written_plain negative hne hds hes⟩
  · exact exists_written_scientific negative _

/-- The text of what a numeral means is the text of a numeral again. -/
theorem exists_written_chars {v : Number} (h : n.value = some v) :
    ∃ m : Numeral, m.Written v.chars := by
  have hdigits : ∀ negative k, ∃ m : Numeral, m.Written (Binary64.signed negative (digits k)) := by
    intro negative k
    have hnil : AllDigits [] := nofun
    have hk := written_plain negative (digits_ne_nil k) (allDigits_digits k) hnil
    rw [pointed, List.append_nil] at hk
    exact ⟨_, hk⟩
  cases v with
  | natural k => exact hdigits false k
  | negative k => exact hdigits true k
  | float x =>
    obtain ⟨negative, m, rfl⟩ := exists_finite_of_value h
    exact exists_written_finite negative m

end Json
end Criteria
