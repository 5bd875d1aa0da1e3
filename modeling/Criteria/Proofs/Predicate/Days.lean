import Criteria.Proofs.Calendar.Consumed
import Criteria.Proofs.Predicate.Locales

/-! Days and instants.

The operand of a date field is read by the layouts of dates first, and that of a field of instants
as a timestamp first. Under the invariant locale both orders come to the same, for a timestamp and
what is read by a layout of instants have a colon, and what is read by a layout of dates has none
(`Locale.colon_of_instant`, `Locale.no_colon_of_date`). What the type of the field reads by itself,
after the locale has failed, adds nothing to this. So a date field is bound to the day of the
instant that the other field is bound to (`day_of_instant`). -/
namespace Criteria

open Coercion Text Calendar

variable {l : Locale} {field : Field} {o : Operator} {cs : Bool} {s : String} {v : Value}

/-! ### Reading by the type of a field -/

theorem Calendar.Layout.exists_fields {layout : String} {t : List Char} {d : Date}
    (h : Layout.date layout t = .ok d) : ∃ f, Layout.fields layout t = .ok f := by
  obtain ⟨f, hf, -⟩ := bind_eq_ok_iff.1 h
  exact ⟨f, hf⟩

/-- A field of instants is bound to what the locale reads. A timestamp that is read afterwards has
no white space around it, and would have been read before. -/
theorem convert_datetime_eq_ok_iff (htype : field.type = .datetime) :
    convert l field (some s) = .ok v ↔ ∃ i, l.instant? s = some i ∧ v = .datetime i := by
  rw [convert_eq_ok_iff, htype]
  simp only [lenient?, strict, Option.map_eq_some_iff, Option.map_eq_none_iff, mapError_eq_ok_iff,
    map_eq_ok_iff]
  constructor
  · intro h
    rcases h with ⟨i, hi, rfl⟩ | ⟨hnone, i, hi, rfl⟩
    · exact ⟨i, hi, rfl⟩
    · have hread : l.instant? s = some i :=
        Locale.instant?_timestamp (by rw [(text_of_ofRfc3339 hi).2, hi])
      cases hnone.symm.trans hread
  · intro h
    obtain ⟨i, hi, rfl⟩ := h
    exact .inl ⟨i, hi, rfl⟩

/-- A date is what the locale reads, or else what the strict layout reads. -/
theorem convert_date_eq_ok_iff (htype : field.type = .date) :
    convert l field (some s) = .ok v ↔ ∃ d, v = .date d ∧
      (l.date? s = some d ∨ l.date? s = none ∧ Layout.date strictDate s.toList = .ok d) := by
  rw [convert_eq_ok_iff, htype]
  simp only [lenient?, strict, Option.map_eq_some_iff, Option.map_eq_none_iff, mapError_eq_ok_iff,
    map_eq_ok_iff]
  constructor
  · intro h
    rcases h with ⟨d, hd, rfl⟩ | ⟨hnone, d, hd, rfl⟩
    · exact ⟨d, rfl, .inl hd⟩
    · exact ⟨d, rfl, .inr ⟨hnone, hd⟩⟩
  · intro h
    obtain ⟨d, rfl, hd | ⟨hnone, hd⟩⟩ := h
    · exact .inl ⟨d, hd, rfl⟩
    · exact .inr ⟨hnone, d, hd, rfl⟩

/-! ### The layout of dates when nothing else has read them -/

theorem items_strictDate : items strictDate =
    [.number .year, .literal '-', .number .month, .literal '-'] ++ [.number .day] := items_isoDate

/-- A text that it reads ends in a digit. -/
theorem trimRight_of_strictDate {t : List Char} {d : Date} (h : Layout.date strictDate t = .ok d) :
    trimRight t = t := by
  obtain ⟨f, hf⟩ := Layout.exists_fields h
  exact trimRight_of_fields (by rw [items_strictDate]; decide) items_strictDate hf

/-- White space in front makes no difference to it. -/
theorem strictDate_trim {t : List Char} (h : trimRight t = t) :
    Layout.date strictDate (trim t) = Layout.date strictDate t := by
  rw [trim, trimRight_trimLeft h, Layout.date, Layout.date, fields_trimLeft items_strictDate]

/-! ### The invariant locale -/

namespace Locale

theorem isPlain_invariant : ∀ layout ∈ invariant.datetimeLayouts ++ invariant.dateLayouts,
    ∀ i ∈ items layout, i.isPlain = true := by decide +kernel

theorem colon_of_datetimeLayout : ∀ layout ∈ invariant.datetimeLayouts,
    .literal ':' ∈ items layout := by decide +kernel

theorem no_colon_of_dateLayout : ∀ layout ∈ invariant.dateLayouts,
    .literal ':' ∉ items layout := by decide +kernel

/-- What the invariant locale reads as a date has no colon. -/
theorem no_colon_of_date {t : List Char} {d : Date}
    (h : dateBy? invariant.dateLayouts t = some d) : ':' ∉ trim t := by
  obtain ⟨layout, hlayout, hd⟩ := List.exists_of_findSome?_eq_some h
  obtain ⟨f, hf⟩ := Layout.exists_fields (toOption_eq_some_iff.1 hd)
  have hplain := isPlain_invariant layout (List.mem_append_right _ hlayout)
  exact (colon_mem_iff hplain hf).not.2 (no_colon_of_dateLayout layout hlayout)

/-- What it reads as an instant, other than by its date, has one. -/
theorem colon_of_instant {t : List Char} {i : Instant}
    (h : (Instant.ofRfc3339 t).toOption = some i ∨
      (invariant.datetimeLayouts.findSome? fun layout =>
        (Layout.instant layout t).toOption) = some i) : ':' ∈ t := by
  rcases h with h | h
  · exact (text_of_ofRfc3339 (toOption_eq_some_iff.1 h)).1
  · obtain ⟨layout, hlayout, hi⟩ := List.exists_of_findSome?_eq_some h
    obtain ⟨f, hf, -⟩ := bind_eq_ok_iff.1 (toOption_eq_some_iff.1 hi)
    have hplain := isPlain_invariant layout (List.mem_append_left _ hlayout)
    exact (colon_mem_iff hplain hf).2 (colon_of_datetimeLayout layout hlayout)

/-- What is read as a date is read as the start of that day, and as no other instant. -/
theorem instant?_of_date {d : Date} (h : dateBy? invariant.dateLayouts s.toList = some d) :
    invariant.instant? s = some ⟨d, .midnight⟩ := by
  have hcolon := no_colon_of_date h
  have hne : trim s.toList ≠ [] := by
    have hempty : dateBy? invariant.dateLayouts [] = none := by decide +kernel
    intro he
    simp only [dateBy?, he] at h
    cases hempty.symm.trans h
  have hnone : ∀ read : Option Instant, (∀ i, read = some i → ':' ∈ trim s.toList) → read = none :=
    fun read hread => Option.eq_none_iff_forall_ne_some.2 fun i hi => hcolon (hread i hi)
  have htrim : dateBy? invariant.dateLayouts (trim s.toList) = some d := by
    simpa only [dateBy?, trim_trim] using h
  simp only [instant?, instantBy?, if_neg hne, hnone _ fun i hi => colon_of_instant (.inl hi),
    hnone _ fun i hi => colon_of_instant (.inr hi), htrim]
  rfl

/-- The date of a text is the day of its instant. -/
theorem date?_invariant (s : String) :
    invariant.date? s = (invariant.instant? s).map (·.date) := by
  cases h : dateBy? invariant.dateLayouts s.toList with
  | some d => rw [date?, h, instant?_of_date h]; rfl
  | none => rw [date?, h]; rfl

theorem date?_of_strictDate {d : Date} (h : Layout.date strictDate s.toList = .ok d) :
    invariant.date? s = some d := by
  have htrim := strictDate_trim (trimRight_of_strictDate h)
  have hfirst : dateBy? invariant.dateLayouts s.toList = some d := by
    show List.findSome? _ (strictDate :: _) = _
    rw [List.findSome?_cons, htrim, h]
    rfl
  rw [date?, hfirst]
  rfl

end Locale

/-- Under the invariant locale a date field is bound to the day of what is read as an instant. -/
theorem convert_invariant_date_eq_ok_iff (htype : field.type = .date) :
    convert .invariant field (some s) = .ok v ↔
      ∃ i, Locale.invariant.instant? s = some i ∧ v = .date i.date := by
  rw [convert_date_eq_ok_iff htype]
  constructor
  · intro h
    obtain ⟨d, rfl, hd⟩ := h
    have hread : Locale.invariant.date? s = some d :=
      hd.elim id fun hstrict => Locale.date?_of_strictDate hstrict.2
    obtain ⟨i, hi, rfl⟩ := Option.map_eq_some_iff.1 (Locale.date?_invariant s ▸ hread)
    exact ⟨i, hi, rfl⟩
  · intro h
    obtain ⟨i, hi, rfl⟩ := h
    exact ⟨i.date, rfl, .inl (by rw [Locale.date?_invariant, hi]; rfl)⟩

/-- Under the invariant locale a date field takes the day of an instant. -/
theorem coerce_invariant_date (htype : field.type = .date) {i : Instant}
    (h : Locale.invariant.instant? s = some i) :
    coerce .invariant field o cs (some s) = .ok (.date i.date) := by
  rw [coerce_eq_convert (by rw [htype]; decide) (Locale.not_blank_of_instant? h)]
  exact (convert_invariant_date_eq_ok_iff htype).2 ⟨i, h, rfl⟩

/-- **A date field is bound to the day of the instant** that a field of instants is bound to by the
same text, under the invariant locale. Either field refuses a text that the other one refuses, and
null is bound to both or to none. A timestamp counts by its day in UTC, whatever its offset, and a
date by itself is the start of its day. -/
theorem day_of_instant {day moment : Field} (hday : day.type = .date)
    (hmoment : moment.type = .datetime) (o : Operator) (cs : Bool) (s : String) :
    ((∃ v, coerce .invariant day o cs (some s) = .ok v) ↔
      ∃ w, coerce .invariant moment o cs (some s) = .ok w) ∧
    (∀ v w, coerce .invariant day o cs (some s) = .ok v →
      coerce .invariant moment o cs (some s) = .ok w →
        v = .null ∧ w = .null ∨ ∃ i, v = .date i.date ∧ w = .datetime i) ∧
    (∀ i, Instant.ofRfc3339 (trim s.toList) = .ok i →
      coerce .invariant day o cs (some s) = .ok (.date i.date) ∧
        coerce .invariant moment o cs (some s) = .ok (.datetime i)) ∧
    ∀ d, Locale.dateBy? Locale.invariant.dateLayouts s.toList = some d →
      coerce .invariant day o cs (some s) = .ok (.date d) ∧
        coerce .invariant moment o cs (some s) = .ok (.datetime ⟨d, .midnight⟩) := by
  have hneither : day.type ≠ .string ∧ moment.type ≠ .string := by
    rw [hday, hmoment]
    decide
  have hread : ∀ i, Locale.invariant.instant? s = some i →
      coerce .invariant day o cs (some s) = .ok (.date i.date) ∧
        coerce .invariant moment o cs (some s) = .ok (.datetime i) :=
    fun i hi => ⟨coerce_invariant_date hday hi, coerce_instant? hmoment hi⟩
  refine ⟨?_, ?_, fun i hi => hread i (Locale.instant?_timestamp hi),
    fun d hd => hread _ (Locale.instant?_of_date hd)⟩
  · rw [coerce_some hneither.1, coerce_some hneither.2]
    split
    · exact iff_of_true ⟨_, rfl⟩ ⟨_, rfl⟩
    · simp only [convert_invariant_date_eq_ok_iff hday, convert_datetime_eq_ok_iff hmoment]
      constructor
      · rintro ⟨_, i, hi, -⟩
        exact ⟨_, i, hi, rfl⟩
      · rintro ⟨_, i, hi, -⟩
        exact ⟨_, i, hi, rfl⟩
  · intro v w hv hw
    rw [coerce_some hneither.1] at hv
    rw [coerce_some hneither.2] at hw
    split at hv
    next hblank =>
      rw [if_pos hblank] at hw
      cases hv
      cases hw
      exact .inl ⟨rfl, rfl⟩
    next hblank =>
      rw [if_neg hblank] at hw
      obtain ⟨i, hi, rfl⟩ := (convert_invariant_date_eq_ok_iff hday).1 hv
      obtain ⟨j, hj, rfl⟩ := (convert_datetime_eq_ok_iff hmoment).1 hw
      cases hi.symm.trans hj
      exact .inr ⟨i, rfl, rfl⟩

/-- Half an hour after midnight, two hours ahead of UTC: the day before. -/
theorem day_of_instant_ahead :
    let day : Field := ⟨"Day", .date, false⟩
    let moment : Field := ⟨"Moment", .datetime, false⟩
    let sent := " 2024-05-01T00:30:00+02:00 "
    day.type = .date ∧ moment.type = .datetime ∧ ∃ i : Instant,
      i.date.text = "2024-04-30" ∧ i.text = "2024-04-30T22:30:00+00:00" ∧
        coerce .invariant day .gt false (some sent) = .ok (.date i.date) ∧
        coerce .invariant moment .gt false (some sent) = .ok (.datetime i) := by
  intro day moment sent
  obtain ⟨i, hi, htexts⟩ := Option.map_eq_some_iff.1
    (by decide +kernel : ((Instant.ofRfc3339 (trim sent.toList)).toOption.map fun i =>
      (i.date.text, i.text)) = some ("2024-04-30", "2024-04-30T22:30:00+00:00"))
  obtain ⟨hdate, htext⟩ := Prod.mk.inj htexts
  obtain ⟨-, -, htimestamp, -⟩ :=
    day_of_instant (rfl : day.type = .date) (rfl : moment.type = .datetime) .gt false sent
  exact ⟨rfl, rfl, i, hdate, htext, htimestamp i (toOption_eq_some_iff.1 hi)⟩

end Criteria
