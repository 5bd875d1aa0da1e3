import Criteria.Calendar.Layout
import Criteria.Proofs.Calendar.Scanning
import Criteria.Proofs.Number.Localized

/-! Dates and instants as they are written.

The text of an instant is a timestamp, for the years that have four digits, and is read as the
same instant (`ofRfc3339_chars`). The text of any date, also one with a sign or more digits in
its year, is read back by the layout `%Y-%m-%d` (`date_chars`). -/
namespace Criteria.Calendar

open Text Scan

/-! ### Timestamps -/

/-- The years that are written with four digits and nothing else. -/
def FourDigits (year : Int) : Prop := 0 ≤ year ∧ year ≤ 9999

/-- What is written for the offset of UTC. -/
def IsUtc (offset : List Char) : Prop := offset = "+00:00".toList ∨ offset = ['Z']

variable {d : Date} {i : Instant} {r offset : List Char} {n : Nat}

theorem daysInMonth_le (year : Int) (month : Nat) : daysInMonth year month ≤ 31 := by
  unfold daysInMonth
  repeat' split
  all_goals decide

theorem Date.day_le (d : Date) : d.day ≤ 31 :=
  Nat.le_trans d.day_range.2 (daysInMonth_le d.year d.month)

theorem Date.day_lt (d : Date) : d.day < 10 ^ 2 := Nat.lt_of_le_of_lt d.day_le (by decide)

theorem Date.month_lt (d : Date) : d.month < 10 ^ 2 :=
  Nat.lt_of_le_of_lt d.month_range.2 (by decide)

theorem Date.chars_append (d : Date) (r : List Char) : d.chars ++ r =
    yearChars d.year ++ '-' :: (padded 2 d.month ++ '-' :: (padded 2 d.day ++ r)) := by
  simp only [Date.chars, List.append_assoc, List.cons_append]

/-- A date with a year of four digits is read back. -/
theorem takes_fullDate (hy : FourDigits d.year) (r : List Char) :
    Takes fullDate (d.chars ++ r) d r := by
  have hyear : d.year.natAbs < 10 ^ 4 := by
    unfold FourDigits at hy
    omega
  have hshort : yearChars d.year = padded 4 d.year.natAbs := if_pos hy
  rw [Date.chars_append, hshort]
  refine (takes_fixedNumber (by decide) hyear _).bind ((takes_one rfl _).bind ?_)
  refine (takes_fixedNumber (by decide) d.month_lt _).bind ((takes_one rfl _).bind ?_)
  refine (takes_fixedNumber (by decide) d.day_lt _).bind ?_
  rw [Int.natAbs_of_nonneg hy.1, Date.of?_self]
  exact takes_pure _ _

/-- A fraction is written with three, six or nine digits, or not at all. -/
theorem fractionChars_cases (hn : n < 10 ^ 9) :
    (n = 0 ∧ fractionChars n = []) ∨ ∃ w v, 0 < w ∧ w ≤ 9 ∧ v < 10 ^ w ∧ v * 10 ^ (9 - w) = n ∧
      fractionChars n = '.' :: padded w v := by
  unfold fractionChars
  split
  next h => exact .inl ⟨h, rfl⟩
  split
  next h => exact .inr ⟨3, n / 10 ^ 6, by decide, by decide, by omega, by omega, rfl⟩
  split
  next h => exact .inr ⟨6, n / 10 ^ 3, by decide, by decide, by omega, by omega, rfl⟩
  next h => exact .inr ⟨9, n, by decide, by decide, hn, by omega, rfl⟩

/-- A time of day is read back, unless more digits or a point follow it. -/
theorem takes_fullTime (t : TimeOfDay) (hr : NoDigit r) (hpoint : some '.' ≠ r.head?) :
    Takes fullTime (t.chars ++ r) t r := by
  have hhour : t.hour < 10 ^ 2 := Nat.lt_trans t.hour_lt (by decide)
  have hminute : t.minute < 10 ^ 2 := Nat.lt_trans t.minute_lt (by decide)
  have hsecond : t.second < 10 ^ 2 := Nat.lt_of_le_of_lt t.second_le (by decide)
  simp only [TimeOfDay.chars, List.append_assoc, List.cons_append]
  refine (takes_fixedNumber (by decide) hhour _).bind ((takes_one rfl _).bind ?_)
  refine (takes_fixedNumber (by decide) hminute _).bind ((takes_one rfl _).bind ?_)
  refine (takes_fixedNumber (by decide) hsecond _).bind ((takes_get _).bind ?_)
  have hdone : Takes (orElseFault .outOfRange
      (TimeOfDay.of? t.hour t.minute t.second t.nanosecond)) r t r := by
    rw [TimeOfDay.of?_self]
    exact takes_pure _ _
  rcases fractionChars_cases t.nanosecond_lt with ⟨hzero, htext⟩ | ⟨w, v, hw, hw9, hv, hn, htext⟩
  · rw [htext, List.nil_append]
    rw [hzero] at hdone
    split
    next => exact absurd rfl hpoint
    next => exact hdone
  · have hfraction : Takes fraction (padded w v ++ r) t.nanosecond r := by
      have hfits : ofDigits (padded w v) < 2 ^ 63 := by
        rw [ofDigits_padded]
        have hpow : 10 ^ w ≤ 10 ^ 9 := Nat.pow_le_pow_right (by decide) hw9
        omega
      have htaken := takes_fraction (allDigits_padded w v) (padded_ne_nil w v)
        (Nat.le_trans (Nat.le_of_eq (length_padded hw hv)) hw9) hr hfits
      rwa [ofDigits_padded, length_padded hw hv, hn] at htaken
    rw [htext]
    exact (takes_set _ _).bind (hfraction.bind hdone)

theorem takes_fullOffset (h : IsUtc offset) : Takes fullOffset offset 0 [] := by
  rcases h with rfl | rfl <;> rfl

/-- An instant in a year of four digits is read back when it is written in UTC. -/
theorem takes_timestamp (hy : FourDigits i.date.year) (h : IsUtc offset) :
    Takes timestamp (i.chars offset) (i, 0) [] := by
  have hr : NoDigit offset ∧ some '.' ≠ offset.head? := by
    rcases h with rfl | rfl
    · exact ⟨noDigit_cons rfl _, by decide⟩
    · exact ⟨noDigit_cons rfl _, by decide⟩
  rw [Instant.chars, List.append_assoc, List.cons_append]
  refine (takes_fullDate hy _).bind ((takes_one rfl _).bind ?_)
  exact (takes_fullTime i.time hr.1 hr.2).bind ((takes_fullOffset h).bind (takes_pure _ _))

theorem TimeOfDay.atMinute_self (t : TimeOfDay) {m : Nat} (hm : m = t.minuteOfDay) (h : m < 1440) :
    t.atMinute m h = t := by
  have hlt := t.minute_lt
  unfold TimeOfDay.minuteOfDay at hm
  have hhour : m / 60 = t.hour := by omega
  have hminute : m % 60 = t.minute := by omega
  simp only [TimeOfDay.atMinute, hhour, hminute]

/-- A clock that is not ahead shows the instant itself. -/
theorem Instant.behind?_zero (i : Instant) : i.behind? 0 = some i := by
  have hhour := i.time.hour_lt
  have hminute := i.time.minute_lt
  have hrange : 0 ≤ (i.time.minuteOfDay : Int) - 0 ∧ (i.time.minuteOfDay : Int) - 0 < 1440 := by
    unfold TimeOfDay.minuteOfDay
    omega
  simp only [Instant.behind?, dif_pos hrange]
  rw [i.time.atMinute_self (by omega)]

theorem four_le_length_yearChars (year : Int) : 4 ≤ (yearChars year).length := by
  have hpadded := le_length_padded 4 year.natAbs
  unfold yearChars
  split
  · exact hpadded
  · exact Nat.le_succ_of_le hpadded

/-- No instant is too short to be read as a timestamp. -/
theorem nineteen_le_length (i : Instant) (offset : List Char) :
    19 ≤ (i.chars offset).length := by
  have hyear := four_le_length_yearChars i.date.year
  have hmonth := le_length_padded 2 i.date.month
  have hday := le_length_padded 2 i.date.day
  have hhour := le_length_padded 2 i.time.hour
  have hminute := le_length_padded 2 i.time.minute
  have hsecond := le_length_padded 2 i.time.second
  simp only [Instant.chars, Date.chars, TimeOfDay.chars, List.length_append, List.length_cons]
  omega

/-- The text of an instant is read as that instant. -/
theorem ofRfc3339_chars (hy : FourDigits i.date.year) (h : IsUtc offset) :
    Instant.ofRfc3339 (i.chars offset) = .ok i := by
  have hbytes := Nat.le_trans (nineteen_le_length i offset) (length_le_byteLength _)
  rw [Instant.ofRfc3339, if_neg (by omega), (takes_timestamp hy h).all]
  simp [bind, Except.bind, Instant.behind?_zero, pure, Except.pure]

/-! ### Dates by their layout -/

theorem isBlank_of_isDigit {c : Char} (hc : c.isDigit = true) : isBlank c = false :=
  Locale.isBlank_of_numeric (.inl hc)

theorem isBlank_of_mem_padded (w n : Nat) : ∀ c ∈ padded w n, isBlank c = false :=
  fun c hc => isBlank_of_isDigit (allDigits_padded w n c hc)

theorem Date.chars_no_blank (d : Date) : ∀ c ∈ d.chars, isBlank c = false := by
  have hpadded := isBlank_of_mem_padded
  have hyear : ∀ c ∈ yearChars d.year, isBlank c = false := by
    unfold yearChars
    split
    · exact hpadded 4 _
    · rw [List.forall_mem_cons]
      exact ⟨by split <;> decide, hpadded 4 _⟩
  simp only [Date.chars, List.forall_mem_append, List.forall_mem_cons]
  exact ⟨⟨hyear, by decide, hpadded 2 _⟩, by decide, hpadded 2 _⟩

theorem Instant.chars_no_blank (i : Instant) (h : IsUtc offset) :
    ∀ c ∈ i.chars offset, isBlank c = false := by
  have hpadded := isBlank_of_mem_padded
  have hoffset : ∀ c ∈ offset, isBlank c = false := by
    have hall : offset.all (fun c => !isBlank c) = true := by rcases h with rfl | rfl <;> rfl
    intro c hc
    simpa using List.all_eq_true.1 hall c hc
  have hfraction : ∀ c ∈ fractionChars i.time.nanosecond, isBlank c = false := by
    rcases fractionChars_cases i.time.nanosecond_lt with ⟨-, he⟩ | ⟨w, v, -, -, -, -, he⟩
    · rw [he]
      exact List.forall_mem_nil _
    · rw [he, List.forall_mem_cons]
      exact ⟨by decide, hpadded w v⟩
  simp only [Instant.chars, TimeOfDay.chars, List.forall_mem_append, List.forall_mem_cons]
  exact ⟨⟨i.date.chars_no_blank, by decide, ⟨⟨hpadded 2 _, by decide, hpadded 2 _⟩, by decide,
    hpadded 2 _⟩, hfraction⟩, hoffset⟩

theorem takes_blanks {c : Char} (hc : isBlank c = false) (r : List Char) :
    Takes blanks (c :: r) ⟨⟩ (c :: r) :=
  congrArg (fun r => Except.ok (PUnit.unit, r)) (trimLeft_cons hc r)

variable {ds : List Char} {field : Numeric} {f g k : Fields} {s t : List Char}

/-- A number without a sign. -/
theorem takes_numeric (hds : AllDigits ds) (hne : ds ≠ [])
    (hwidth : ∀ w ∈ field.width, ds.length ≤ w)
    (hr : NoDigit r ∨ ∃ w ∈ field.width, w ≤ ds.length) (hfits : ofDigits ds < 2 ^ 63) :
    Takes (numeric field) (ds ++ r) (ofDigits ds) r := by
  have hnumber := takes_number hds (List.length_pos_iff.2 hne) hwidth hr hfits
  obtain ⟨c, ds, rfl⟩ := List.exists_cons_of_ne_nil hne
  have hc : c.isDigit = true := hds c List.mem_cons_self
  refine (takes_blanks (isBlank_of_isDigit hc) _).bind ((takes_get _).bind ?_)
  split
  next he => cases he; cases hc
  next he => cases he; cases hc
  next => exact hnumber.bind (takes_pure _ _)

/-- A year with its sign may have any number of digits. -/
theorem takes_signedYear (hds : AllDigits ds) (hne : ds ≠ []) (hr : NoDigit r)
    (hfits : ofDigits ds < 2 ^ 63) (negative : Bool) :
    Takes (numeric .year) ((if negative then '-' else '+') :: (ds ++ r))
      (if negative then -(ofDigits ds : Int) else ofDigits ds) r := by
  have hnumber : Takes (number 1 none) (ds ++ r) (ofDigits ds) r :=
    takes_number hds (List.length_pos_iff.2 hne) (fun _ hn => by cases hn) (.inl hr) hfits
  cases negative with
  | true =>
    refine (takes_blanks rfl _).bind ((takes_get _).bind ?_)
    exact (takes_set _ _).bind (hnumber.bind (takes_pure _ _))
  | false =>
    refine (takes_blanks rfl _).bind ((takes_get _).bind ?_)
    exact (takes_set _ _).bind (hnumber.bind (takes_pure _ _))

theorem takes_year (d : Date) (hr : NoDigit r) :
    Takes (numeric .year) (yearChars d.year ++ r) d.year r := by
  have hrange := d.year_range
  unfold minYear maxYear at hrange
  have hds := allDigits_padded 4 d.year.natAbs
  have hne := padded_ne_nil 4 d.year.natAbs
  have hfits : ofDigits (padded 4 d.year.natAbs) < 2 ^ 63 := by
    rw [ofDigits_padded]
    omega
  unfold yearChars
  split
  next hy =>
    have hlength : (padded 4 d.year.natAbs).length = 4 := length_padded (by decide) (by omega)
    have htaken : Takes (numeric .year) (padded 4 d.year.natAbs ++ r) (ofDigits _) r :=
      takes_numeric hds hne (by rintro w ⟨⟩; omega) (.inl hr) hfits
    rwa [ofDigits_padded, Int.natAbs_of_nonneg hy.1] at htaken
  next hy =>
    have hvalue : (if d.year < 0 then -(d.year.natAbs : Int) else d.year.natAbs) = d.year := by
      split <;> omega
    have htaken := takes_signedYear hds hne hr hfits (decide (d.year < 0))
    simp only [ofDigits_padded, decide_eq_true_eq, hvalue] at htaken
    exact htaken

theorem takes_twoDigits (hfield : field.width = some 2) (hn : n < 10 ^ 2) (r : List Char) :
    Takes (numeric field) (padded 2 n ++ r) n r := by
  have hlength : (padded 2 n).length = 2 := length_padded (by decide) hn
  have hfits : ofDigits (padded 2 n) < 2 ^ 63 := by
    rw [ofDigits_padded]
    omega
  have hwidth : ∀ w ∈ field.width, (padded 2 n).length ≤ w := by
    rw [hfield]
    rintro w ⟨⟩
    exact Nat.le_of_eq hlength
  have htaken : Takes (numeric field) (padded 2 n ++ r) (ofDigits _) r :=
    takes_numeric (allDigits_padded 2 n) (padded_ne_nil 2 n) hwidth
      (.inr ⟨2, hfield, Nat.le_of_eq hlength.symm⟩) hfits
  rwa [ofDigits_padded] at htaken

theorem takes_item_number {v : Int} (h : Takes (numeric field) s v r)
    (hset : f.set field v = .ok g) : Takes (item f (.number field)) s g r := by
  refine h.bind ?_
  rw [hset]
  rfl

theorem takes_sequence_cons {i : Item} {is : List Item} (h : Takes (item f i) s g r)
    (hrest : Takes (sequence g is) r k t) : Takes (sequence f (i :: is)) s k t :=
  h.bind hrest

theorem items_isoDate : items "%Y-%m-%d" = isoDate := by decide +kernel

theorem ranged_none {low high : Nat} (h : low ≤ n ∧ n ≤ high) :
    Fields.ranged low high none n = .ok (some n) := by
  rw [Fields.ranged, if_pos ⟨Int.ofNat_le.2 h.1, Int.ofNat_le.2 h.2⟩]
  rfl

/-- What a date states of itself. -/
def Date.stated (d : Date) : Fields := { year := d.year, month := d.month, day := d.day }

/-- Any date is read back by the layout that wrote it, the years of more than four digits
included. -/
theorem takes_isoDate (d : Date) : Takes (sequence {} isoDate) d.chars d.stated [] := by
  have hyear : -2 ^ 31 ≤ d.year ∧ d.year < 2 ^ 31 := by
    have hrange := d.year_range
    unfold minYear maxYear at hrange
    omega
  have hday : 1 ≤ d.day ∧ d.day ≤ 31 := ⟨d.day_range.1, d.day_le⟩
  have htext := Date.chars_append d []
  rw [List.append_nil, List.append_nil] at htext
  rw [htext]
  refine takes_sequence_cons (takes_item_number (g := { year := d.year }) (takes_year d ?_) ?_) ?_
  · exact noDigit_cons rfl _
  · simp only [Fields.set, Fields.int32, if_pos hyear]
    rfl
  refine takes_sequence_cons ((takes_literal _ _).bind (takes_pure _ _)) ?_
  refine takes_sequence_cons (takes_item_number (g := { year := d.year, month := d.month })
    (takes_twoDigits rfl d.month_lt _) ?_) ?_
  · simp only [Fields.set, ranged_none d.month_range]
    rfl
  refine takes_sequence_cons ((takes_literal _ _).bind (takes_pure _ _)) ?_
  have hlast : Takes (numeric .day) (padded 2 d.day ++ []) d.day [] :=
    takes_twoDigits rfl d.day_lt []
  rw [List.append_nil] at hlast
  refine takes_sequence_cons (takes_item_number hlast ?_) (takes_pure _ _)
  simp only [Fields.set, ranged_none hday]
  rfl

/-- What a date states of itself is true of it. -/
theorem holdsOf_stated (d : Date) : d.stated.holdsOf d = true := by
  have hunstated : ∀ {α : Type} [DecidableEq α] (a : α), Fields.matchesOption none a = true :=
    fun _ => rfl
  have hstated : ∀ {α : Type} [DecidableEq α] (a : α), Fields.matchesOption (some a) a = true :=
    fun a => beq_self_eq_true a
  have hcentury : ∀ year, Fields.matchesCentury none none year = true := by
    intro year
    unfold Fields.matchesCentury
    split <;> rfl
  simp only [Fields.holdsOf, Date.stated, hunstated, hstated, hcentury, Bool.and_self]

/-- What a date states of itself names that date and no other. -/
theorem date_stated (d : Date) : d.stated.date = .ok d := by
  have hcandidate : d.stated.candidate (some d.year) none = .ok d := by
    show (Date.of? d.year d.month d.day).elim _ _ = _
    rw [Date.of?_self]
    rfl
  show (d.stated.candidate (some d.year) none >>= fun found =>
    if d.stated.holdsOf found then pure found else throw Fault.impossible) = _
  rw [hcandidate]
  exact if_pos (holdsOf_stated d)

/-- The text of a date is read back by its layout, whatever its year. -/
theorem date_chars (d : Date) : Layout.date "%Y-%m-%d" d.chars = .ok d := by
  rw [Layout.date, Layout.fields, items_isoDate, (takes_isoDate d).all]
  exact date_stated d

end Criteria.Calendar
