import Criteria.Proofs.Predicate.Days
import Criteria.Proofs.Predicate.Faults

/-! White space around operands.

Whatever a locale reads, it reads without the white space around it (`Locale.instant?_trimmed`,
`Locale.date?_trimmed`), and so do the types of fields by themselves (`strict_trimmed`), dates and
instants excepted. Instants lose nothing by that. A date that the locale does not read is read once
more as it stands, and then white space in front is passed over but white space behind is not: such
a text is `Overlooked`, and is refused although its trimmed form is bound. In all other cases an
operand is bound as its trimmed form is (`coerce_trimmed`). -/
namespace Criteria

open Coercion Text Calendar

variable {l : Locale} {field : Field} {o : Operator} {cs : Bool} {s : String} {v : Value}

/-- Without the white space around it. -/
def trimmed (s : String) : String := String.ofList (trim s.toList)

/-- What the locale does not read, and what would be read by the layout of dates that is tried at
last, but for the white space behind it. -/
structure Overlooked (l : Locale) (field : Field) (s : String) (d : Date) : Prop where
  type_eq : field.type = .date
  unread : l.date? s = none
  behind : trimRight s.toList ≠ s.toList
  strict : Layout.date strictDate (trim s.toList) = .ok d

/-! ### Without white space -/

theorem toList_trimmed (s : String) : (trimmed s).toList = trim s.toList := String.toList_ofList

theorem trim_trimmed (s : String) : trim (trimmed s).toList = trim s.toList := by
  rw [toList_trimmed, trim_trim]

theorem isBlank_trimmed (s : String) : Coercion.isBlank (trimmed s) = Coercion.isBlank s := by
  rw [Coercion.isBlank, toList_trimmed, allBlank_trim, Coercion.isBlank]

theorem Locale.instant?_trimmed (l : Locale) (s : String) :
    l.instant? (trimmed s) = l.instant? s := by
  simp only [instant?, instantBy?, dateBy?, trim_trimmed]

theorem Locale.date?_trimmed (l : Locale) (s : String) : l.date? (trimmed s) = l.date? s := by
  simp only [date?, instant?_trimmed, dateBy?, trim_trimmed]

/-- Numbers, truth values and UUIDs are read without the white space around them. -/
theorem strict_trimmed (l : Locale) {type : FieldType} (hstring : type ≠ .string)
    (hdatetime : type ≠ .datetime) (hdate : type ≠ .date) (s : String) :
    strict l type (trimmed s) = strict l type s := by
  cases type with
  | string => exact absurd rfl hstring
  | datetime => exact absurd rfl hdatetime
  | date => exact absurd rfl hdate
  | boolean => simp only [strict, Locale.boolean, trim_trimmed]
  | integer => simp only [strict, Locale.integer, Locale.plain, trim_trimmed]
  | float => simp only [strict, Locale.float, Locale.plain, trim_trimmed]
  | uuid => simp only [strict, trim_trimmed]

/-! ### Converting -/

/-- The trimmed form is read where the text is, and where only white space behind the text is in the
way. -/
theorem strictDate_trimmed {d : Date} : Layout.date strictDate (trim s.toList) = .ok d ↔
    Layout.date strictDate s.toList = .ok d ∨
      trimRight s.toList ≠ s.toList ∧ Layout.date strictDate (trim s.toList) = .ok d := by
  by_cases hbehind : trimRight s.toList = s.toList
  · simp only [strictDate_trim hbehind, hbehind, ne_eq, not_true, false_and, or_false]
  · simp only [ne_eq, hbehind, not_false_eq_true, true_and]
    exact (or_iff_right fun h => hbehind (trimRight_of_strictDate h)).symm

theorem convert_trimmed_of_ne (hstring : field.type ≠ .string) (hdate : field.type ≠ .date) :
    convert l field (some (trimmed s)) = .ok v ↔ convert l field (some s) = .ok v := by
  by_cases hdatetime : field.type = .datetime
  · rw [convert_datetime_eq_ok_iff hdatetime, convert_datetime_eq_ok_iff hdatetime,
      Locale.instant?_trimmed]
  · have hlenient : ∀ t, lenient? l field.type t = none := by
      intro t
      cases htype : field.type with
      | datetime => exact absurd htype hdatetime
      | date => exact absurd htype hdate
      | _ => rfl
    simp only [convert_eq_ok_iff, hlenient, strict_trimmed l hstring hdatetime hdate]

/-- White space matters only to a date that the strict layout alone reads. -/
theorem convert_trimmed (hstring : field.type ≠ .string) :
    convert l field (some (trimmed s)) = .ok v ↔
      convert l field (some s) = .ok v ∨ ∃ d, v = .date d ∧ Overlooked l field s d := by
  by_cases hdate : field.type = .date
  · rw [convert_date_eq_ok_iff hdate, convert_date_eq_ok_iff hdate, Locale.date?_trimmed,
      toList_trimmed]
    constructor
    · rintro ⟨d, rfl, hread | ⟨hunread, hstrict⟩⟩
      · exact .inl ⟨d, rfl, .inl hread⟩
      · rcases strictDate_trimmed.1 hstrict with hstrict | ⟨hbehind, hstrict⟩
        · exact .inl ⟨d, rfl, .inr ⟨hunread, hstrict⟩⟩
        · exact .inr ⟨d, rfl, hdate, hunread, hbehind, hstrict⟩
    · rintro (⟨d, rfl, hread | ⟨hunread, hstrict⟩⟩ | ⟨d, rfl, h⟩)
      · exact ⟨d, rfl, .inl hread⟩
      · exact ⟨d, rfl, .inr ⟨hunread, strictDate_trimmed.2 (.inl hstrict)⟩⟩
      · exact ⟨d, rfl, .inr ⟨h.unread, h.strict⟩⟩
  · rw [convert_trimmed_of_ne hstring hdate, or_iff_left]
    rintro ⟨d, -, h⟩
    exact hdate h.type_eq

/-! ### Overlooked dates -/

namespace Overlooked

variable {d : Date}

theorem type_ne (h : Overlooked l field s d) : field.type ≠ .string := by
  rw [h.type_eq]
  decide

theorem not_blank (h : Overlooked l field s d) : Coercion.isBlank s = false := by
  refine Bool.eq_false_iff.2 fun hall => ?_
  have hempty : (Layout.date strictDate []).toOption = none := by decide +kernel
  have hstrict := toOption_eq_some_iff.2 h.strict
  rw [trim_of_allBlank hall, hempty] at hstrict
  cases hstrict

/-- The trimmed form is bound. -/
theorem coerce_trimmed_eq (h : Overlooked l field s d) :
    coerce l field o cs (some (trimmed s)) = .ok (.date d) := by
  rw [coerce_eq_convert h.type_ne (by rw [isBlank_trimmed, h.not_blank])]
  exact (convert_trimmed h.type_ne).2 (.inr ⟨d, rfl, h⟩)

/-- The text itself is refused, since what stands behind the last digit is read by nothing. -/
theorem exists_error (h : Overlooked l field s d) :
    ∃ r, coerce l field o cs (some s) = .error (.conversion field.name (some s) field.type r) := by
  have hnot : ∀ v, coerce l field o cs (some s) ≠ .ok v := by
    intro v hv
    rw [coerce_eq_convert h.type_ne h.not_blank, convert_date_eq_ok_iff h.type_eq] at hv
    obtain ⟨d', -, hread | ⟨-, hstrict⟩⟩ := hv
    · cases h.unread.symm.trans hread
    · exact h.behind (trimRight_of_strictDate hstrict)
  obtain ⟨e, he⟩ := exists_error_of_ne_ok hnot
  obtain ⟨r, rfl⟩ := conversion_of_coerce he
  exact ⟨r, he⟩

end Overlooked

/-- **White space around an operand makes no difference unless it is overlooked.** A field that is
not text is bound to the same value by an operand and by its trimmed form, except where the operand
is an overlooked date: then the trimmed form is bound as that date, and the operand itself is
refused. -/
theorem coerce_trimmed (l : Locale) {field : Field} (hstring : field.type ≠ .string) (o : Operator)
    (cs : Bool) (s : String) :
    (∀ v, (coerce l field o cs (some s) = .ok v ↔ coerce l field o cs (some (trimmed s)) = .ok v) ↔
      ¬∃ d, v = .date d ∧ Overlooked l field s d) ∧
    ∀ d, Overlooked l field s d → coerce l field o cs (some (trimmed s)) = .ok (.date d) ∧
      ∃ r, coerce l field o cs (some s) = .error (.conversion field.name (some s) field.type r) := by
  refine ⟨fun v => ⟨?_, ?_⟩, fun d h => ⟨h.coerce_trimmed_eq, h.exists_error⟩⟩
  · rintro heq ⟨d, rfl, h⟩
    have hbound := heq.2 h.coerce_trimmed_eq
    obtain ⟨r, hr⟩ := h.exists_error
    cases hr.symm.trans hbound
  · intro hnone
    rw [coerce_some hstring, coerce_some hstring, isBlank_trimmed]
    split
    · exact Iff.rfl
    · rw [convert_trimmed hstring, or_iff_left hnone]

/-- Dates and instants with the day first, and none in the order of ISO 8601. -/
def dayFirst : Locale :=
  { Locale.invariant with
    datetimeLayouts := ["%d.%m.%Y %H:%M:%S"]
    dateLayouts := ["%d.%m.%Y"] }

/-- White space in front of a date that the locale does not read is passed over. -/
theorem coerce_trimmed_front :
    let day : Field := ⟨"Day", .date, false⟩
    day.type ≠ .string ∧ ∀ v, coerce dayFirst day .eq false (some " 2024-01-15") = .ok v ↔
      coerce dayFirst day .eq false (some (trimmed " 2024-01-15")) = .ok v := by
  intro day
  have hstring : day.type ≠ .string := by decide
  have hfront : trimRight " 2024-01-15".toList = " 2024-01-15".toList := by decide +kernel
  obtain ⟨hsame, -⟩ := coerce_trimmed dayFirst hstring .eq false " 2024-01-15"
  exact ⟨hstring, fun v => (hsame v).2 fun h => h.elim fun d hd => hd.2.behind hfront⟩

/-- White space behind it is not. -/
theorem date_overlooked :
    let day : Field := ⟨"Day", .date, false⟩
    ∃ d : Date, d.text = "2024-01-15" ∧
      coerce dayFirst day .eq false (some (trimmed "2024-01-15 ")) = .ok (.date d) ∧
      ∃ r, coerce dayFirst day .eq false (some "2024-01-15 ") =
        .error (.conversion "Day" (some "2024-01-15 ") .date r) := by
  intro day
  obtain ⟨d, hd, htext⟩ := Option.map_eq_some_iff.1 (by decide +kernel :
    (Layout.date strictDate (trim "2024-01-15 ".toList)).toOption.map Date.text = some "2024-01-15")
  have h : Overlooked dayFirst day "2024-01-15 " d :=
    ⟨rfl, by decide +kernel, by decide +kernel, toOption_eq_some_iff.1 hd⟩
  exact ⟨d, htext, h.coerce_trimmed_eq, h.exists_error⟩

end Criteria
