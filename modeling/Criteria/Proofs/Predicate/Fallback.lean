import Criteria.Proofs.Predicate.Whitespace

/-! Dates and instants that a locale does not read.

When the locale reads nothing, a field of dates or instants tries its operand once more, as it
stands and by the type of the field alone. A locale reads nothing just when the text is no timestamp
and none of its layouts fits (`Locale.Unread`), and that is the same for dates as for instants
(`Locale.instant?_eq_none_iff`, `Locale.date?_eq_none_iff`). A timestamp has no white space around
it, so one that is refused without its white space is refused with it, and the second reading never
gives an instant (`convert_datetime_of_unread`). It may give a date, but only of an unread text
(`convert_date_iff_unread`). So a field is bound to what the locale reads whenever it reads anything
(`coerce_fallback`). -/
namespace Criteria

open Coercion Text Calendar

variable {l : Locale} {field : Field} {o : Operator} {cs : Bool} {s : String} {v : Value}

/-! ### The empty text

A locale reads no instant of an empty text and asks no layout for one. No layout would have given
one, nor a date. -/

namespace Calendar

variable {layout : String} {f g : Fields} {r : List Char}

/-- All that an item can take of an empty text is a fraction that is to have no digits. -/
theorem Scan.of_takes_item_nil {i : Item} (h : Takes (item f i) [] g r) :
    r = [] ∧ ∃ n, g = { f with nanosecond := n } := by
  cases i with
  | space | fraction | zoneName =>
    cases h
    exact ⟨rfl, f.nanosecond, rfl⟩
  | number n => cases n <;> cases h
  | fractionOf places point =>
    cases point with
    | true =>
      cases h
      exact ⟨rfl, f.nanosecond, rfl⟩
    | false =>
      obtain ⟨n, u, hn, hset⟩ := takes_bind_iff.1 h
      obtain ⟨hstated, rfl⟩ := takes_lift_iff.1 hset
      obtain ⟨m, w, hm, hw⟩ := takes_bind_iff.1 hn
      obtain ⟨-, rfl⟩ := takes_pure_iff.1 hw
      obtain ⟨ds, -, -, hds⟩ := exists_of_takes_number hm
      obtain ⟨p, -, hp⟩ := bind_eq_ok_iff.1 hstated
      cases hp
      exact ⟨(List.nil_eq_append_iff.1 hds).2, p, rfl⟩
  | offset minutesOptional => cases minutesOptional <;> cases h
  | _ => cases h

theorem Scan.of_takes_sequence_nil {is : List Item} (h : Takes (sequence f is) [] g r) :
    ∃ n, g = { f with nanosecond := n } := by
  induction is generalizing f with
  | nil =>
    obtain ⟨rfl, -⟩ := takes_pure_iff.1 h
    exact ⟨f.nanosecond, rfl⟩
  | cons i is ih =>
    obtain ⟨k, u, hitem, hrest⟩ := takes_bind_iff.1 h
    obtain ⟨rfl, n, rfl⟩ := of_takes_item_nil hitem
    obtain ⟨m, hm⟩ := ih hrest
    exact ⟨m, hm⟩

theorem Layout.of_fields_nil (h : Layout.fields layout [] = .ok f) :
    ∃ n, f = { nanosecond := n } :=
  Scan.of_takes_sequence_nil (Scan.takes_of_all h)

theorem Layout.date_nil (layout : String) (d : Date) : Layout.date layout [] ≠ .ok d := by
  intro h
  obtain ⟨f, hf, hd⟩ := bind_eq_ok_iff.1 h
  obtain ⟨n, rfl⟩ := Layout.of_fields_nil hf
  cases hd

theorem Layout.instant_nil (layout : String) (i : Instant) : Layout.instant layout [] ≠ .ok i := by
  intro h
  obtain ⟨f, hf, hi⟩ := bind_eq_ok_iff.1 h
  obtain ⟨n, rfl⟩ := Layout.of_fields_nil hf
  cases hi

end Calendar

/-! ### What a locale does not read -/

namespace Locale

/-- No timestamp, and nothing that one of the layouts fits. -/
structure Unread (l : Locale) (s : String) : Prop where
  timestamp : ∀ i, Instant.ofRfc3339 (trim s.toList) ≠ .ok i
  instants : ∀ layout ∈ l.datetimeLayouts, ∀ i, Layout.instant layout (trim s.toList) ≠ .ok i
  dates : ∀ layout ∈ l.dateLayouts, ∀ d, Layout.date layout (trim s.toList) ≠ .ok d

/-- A text has no date when no layout gives it one. -/
theorem dateBy?_eq_none_iff {layouts : List String} {t : List Char} : dateBy? layouts t = none ↔
    ∀ layout ∈ layouts, ∀ d, Layout.date layout (trim t) ≠ .ok d := by
  simp only [dateBy?, List.findSome?_eq_none_iff, toOption_eq_none_iff]

/-- A text has no instant when nothing reads it. -/
theorem instant?_eq_none_iff : l.instant? s = none ↔ l.Unread s := by
  rw [instant?, instantBy?]
  split
  next hempty =>
    refine iff_of_true rfl ⟨?_, fun layout _ => ?_, fun layout _ => ?_⟩
    · rw [hempty]
      rintro i ⟨⟩
    · rw [hempty]
      exact Layout.instant_nil layout
    · rw [hempty]
      exact Layout.date_nil layout
  next =>
    simp only [Option.or_eq_none_iff, Option.map_eq_none_iff, List.findSome?_eq_none_iff,
      toOption_eq_none_iff, dateBy?_eq_none_iff, trim_trim]
    constructor
    · rintro ⟨htimestamp, hinstants, hdates⟩
      exact ⟨htimestamp, hinstants, hdates⟩
    · exact fun h => ⟨h.timestamp, h.instants, h.dates⟩

/-- A date is read of what an instant is read of. -/
theorem date?_eq_none_iff : l.date? s = none ↔ l.Unread s := by
  rw [date?, Option.or_eq_none_iff, Option.map_eq_none_iff, instant?_eq_none_iff,
    dateBy?_eq_none_iff]
  exact and_iff_right_of_imp Unread.dates

end Locale

/-! ### The second reading -/

/-- What is a timestamp as it stands is the same timestamp when it is trimmed. -/
theorem Calendar.ofRfc3339_trim {t : List Char} {i : Instant} (h : Instant.ofRfc3339 t = .ok i) :
    Instant.ofRfc3339 (trim t) = .ok i := by
  rw [(text_of_ofRfc3339 h).2, h]

/-- The second reading of an instant fails, and its fault is the one that is reported. -/
theorem convert_datetime_of_unread (htype : field.type = .datetime) (h : l.Unread s) :
    ∃ f, Instant.ofRfc3339 s.toList = .error f ∧ convert l field (some s) =
      .error (.conversion field.name (some s) .datetime (.calendar f)) := by
  obtain ⟨f, hf⟩ := exists_error_of_ne_ok fun i hi => h.timestamp i (ofRfc3339_trim hi)
  refine ⟨f, hf, ?_⟩
  simp only [convert, htype, lenient?, Locale.instant?_eq_none_iff.2 h, Option.map_none, strict, hf]
  rfl

/-- The strict layout is asked only when nothing else reads the text. -/
theorem convert_date_iff_unread (htype : field.type = .date) :
    convert l field (some s) = .ok v ↔ ∃ d, v = .date d ∧
      (l.date? s = some d ∨ l.Unread s ∧ Layout.date strictDate s.toList = .ok d) := by
  simp only [convert_date_eq_ok_iff htype, Locale.date?_eq_none_iff]

/-- A text that is not blank, or that is needed, is converted. -/
theorem coerce_of_present (htype : field.type ≠ .string)
    (hpresent : Coercion.isBlank s = false ∨ o.isValueless = false) :
    coerce l field o cs (some s) = convert l field (some s) := by
  rw [coerce_some htype, if_neg]
  rcases hpresent with h | h <;> simp [h]

/-- **The second reading overrules nothing.** A field of instants is bound to what the locale reads
and to nothing else: where the locale fails, so does the second reading, since a text that is a
timestamp as it stands is the same timestamp when it is trimmed. A field of dates is bound to what
the locale reads, and to what its second reading gives only when the text is no timestamp and no
layout of the locale fits it. -/
theorem coerce_fallback (l : Locale) {day moment : Field} (hday : day.type = .date)
    (hmoment : moment.type = .datetime) {o : Operator} {s : String}
    (hpresent : Coercion.isBlank s = false ∨ o.isValueless = false) (cs : Bool) :
    (∀ i, Instant.ofRfc3339 s.toList = .ok i → Instant.ofRfc3339 (trim s.toList) = .ok i) ∧
    (∀ i, coerce l moment o cs (some s) = .ok (.datetime i) ↔ l.instant? s = some i) ∧
    (l.instant? s = none → ∃ f, Instant.ofRfc3339 s.toList = .error f ∧
      coerce l moment o cs (some s) =
        .error (.conversion moment.name (some s) .datetime (.calendar f))) ∧
    (∀ d, l.date? s = some d → coerce l day o cs (some s) = .ok (.date d)) ∧
    (l.date? s = none → l.Unread s ∧ ∀ v, coerce l day o cs (some s) = .ok v ↔
      ∃ d, v = .date d ∧ Layout.date strictDate s.toList = .ok d) := by
  rw [coerce_of_present (by rw [hmoment]; decide) hpresent,
    coerce_of_present (by rw [hday]; decide) hpresent]
  refine ⟨fun i => ofRfc3339_trim, fun i => ?_, fun h => ?_, fun d h => ?_, fun h => ?_⟩
  · simp only [convert_datetime_eq_ok_iff hmoment, Value.datetime.injEq, exists_eq_right']
  · exact convert_datetime_of_unread hmoment (Locale.instant?_eq_none_iff.1 h)
  · exact (convert_date_iff_unread hday).2 ⟨d, rfl, .inl h⟩
  · have hunread := Locale.date?_eq_none_iff.1 h
    refine ⟨hunread, fun v => ?_⟩
    simp only [convert_date_iff_unread hday, h, hunread, reduceCtorEq, true_and, false_or]

/-- A date in the order of ISO 8601 under a locale that knows none: refused as an instant, and bound
as a date. -/
theorem coerce_fallback_iso :
    let day : Field := ⟨"Day", .date, false⟩
    let moment : Field := ⟨"Moment", .datetime, false⟩
    let sent := " 2024-01-15"
    day.type = .date ∧ moment.type = .datetime ∧ Coercion.isBlank sent = false ∧
      (∃ f, coerce dayFirst moment .isNull false (some sent) =
        .error (.conversion "Moment" (some sent) .datetime (.calendar f))) ∧
      dayFirst.Unread sent ∧ ∃ d : Date, d.text = "2024-01-15" ∧
        coerce dayFirst day .isNull false (some sent) = .ok (.date d) := by
  intro day moment sent
  have hpresent : Coercion.isBlank sent = false := by decide
  obtain ⟨-, -, hmoment, -, hday⟩ := coerce_fallback dayFirst (rfl : day.type = .date)
    (rfl : moment.type = .datetime) (o := .isNull) (.inl hpresent) false
  obtain ⟨d, hd, htext⟩ := Option.map_eq_some_iff.1 (by decide +kernel :
    (Layout.date strictDate sent.toList).toOption.map Date.text = some "2024-01-15")
  obtain ⟨hunread, hbound⟩ := hday (by decide +kernel)
  obtain ⟨f, -, herror⟩ := hmoment (by decide +kernel)
  exact ⟨rfl, rfl, hpresent, ⟨f, herror⟩, hunread, d, htext,
    (hbound _).2 ⟨d, rfl, toOption_eq_some_iff.1 hd⟩⟩

end Criteria
