import Criteria.Proofs.Calendar.Texts
import Criteria.Proofs.Uuid
import Criteria.Proofs.Wire.Integers

/-! Bound values that are sent back.

A value that has been bound is shown by one text and sent on by another. Either text, as the
operand of a comparison with the same field, is coerced to the value again, under any locale and
by any operator: that is so of booleans, identifiers, instants of the years with four digits and
integers that the locale leaves alone, and of every date under the invariant locale
(`coerce_rereads`). Null is shown as a word that no field reads, and is sent as no operand at all. -/
namespace Criteria

open Json Json.Reader Text Coercion

variable {l : Locale} {field : Field} {o : Operator} {cs : Bool} {v : Value} {chars : List Char}

/-! ### Reading one text -/

theorem isBlank_ofList (hne : chars ≠ []) (h : ∀ c ∈ chars, Text.isBlank c = false) :
    Coercion.isBlank (String.ofList chars) = false := by
  obtain ⟨c, chars, rfl⟩ := List.exists_cons_of_ne_nil hne
  rw [Coercion.isBlank, String.toList_ofList, allBlank, List.all_cons, h c List.mem_cons_self]
  rfl

/-- What the type of a field makes of a text, where the locale has nothing to say. -/
theorem coerce_strict (htype : field.type ≠ .string) {s : String} (hs : Coercion.isBlank s = false)
    (hlenient : lenient? l field.type s = none) (h : strict l field.type s = .ok v) :
    coerce l field o cs (some s) = .ok v := by
  simp only [coerce_eq_convert htype hs, convert, hlenient, h]
  rfl

theorem coerce_lenient (htype : field.type ≠ .string) {s : String} (hs : Coercion.isBlank s = false)
    (h : lenient? l field.type s = some v) : coerce l field o cs (some s) = .ok v := by
  simp only [coerce_eq_convert htype hs, convert, h]

theorem coerce_wordChars (htype : field.type = .boolean) (b : Bool) :
    coerce l field o cs (some (String.ofList (wordChars b))) = .ok (.boolean b) := by
  have hword : Locale.boolean (String.ofList (wordChars b)) = .ok b := by cases b <;> decide
  have hs : Coercion.isBlank (String.ofList (wordChars b)) = false := by cases b <;> decide
  refine coerce_strict (by rw [htype]; decide) hs (by rw [htype]; rfl) ?_
  rw [htype, strict, hword]
  rfl

theorem coerce_signedDigits (htype : field.type = .integer) (hl : l.KeepsIntegers) {m : Int}
    (hm : -2 ^ 63 ≤ m ∧ m < 2 ^ 63) :
    coerce l field o cs (some (String.ofList (signedDigits m))) = .ok (.integer m) := by
  have hblank : ∀ c ∈ signedDigits m, Text.isBlank c = false := fun c hc =>
    Locale.isBlank_of_numeric ((Locale.mem_signedDigits hc).imp_right .inl)
  have hne : signedDigits m ≠ [] := by
    unfold signedDigits
    split
    · exact List.cons_ne_nil _ _
    · exact digits_ne_nil _
  have hread := Locale.integer_signedDigits hl m
  rw [if_pos hm] at hread
  rw [coerce_integer htype (isBlank_ofList hne hblank), hread]
  rfl

theorem coerce_uuidChars (htype : field.type = .uuid) (u : Uuid) :
    coerce l field o cs (some (String.ofList u.chars)) = .ok (.uuid u) := by
  have hne : u.chars ≠ [] := by simp [Uuid.chars]
  have hread : Uuid.read (trim (String.ofList u.chars).toList) = .ok u := by
    rw [String.toList_ofList, Locale.trim_of_no_blank u.chars_no_blank, u.read_chars]
  refine coerce_strict (by rw [htype]; decide) (isBlank_ofList hne u.chars_no_blank)
    (by rw [htype]; rfl) ?_
  rw [htype, strict, hread]
  rfl

open Calendar in
theorem coerce_instantChars (htype : field.type = .datetime) {i : Instant}
    (hy : FourDigits i.date.year) {offset : List Char} (h : IsUtc offset) :
    coerce l field o cs (some (String.ofList (i.chars offset))) = .ok (.datetime i) := by
  have hne : i.chars offset ≠ [] := by simp [Instant.chars]
  have hread : l.instant? (String.ofList (i.chars offset)) = some i := by
    rw [Locale.instant?, Locale.instantBy?, String.toList_ofList,
      Locale.trim_of_no_blank (i.chars_no_blank h), if_neg hne, ofRfc3339_chars hy h]
    rfl
  refine coerce_lenient (by rw [htype]; decide) (isBlank_ofList hne (i.chars_no_blank h)) ?_
  rw [htype, lenient?, hread]
  rfl

theorem coerce_dateChars (htype : field.type = .date) (d : Calendar.Date) :
    coerce .invariant field o cs (some (String.ofList d.chars)) = .ok (.date d) := by
  have hne : d.chars ≠ [] := by simp [Calendar.Date.chars]
  have hread : Locale.date? .invariant (String.ofList d.chars) = some d := by
    have hfirst : Locale.dateBy? Locale.invariant.dateLayouts d.chars = some d := by
      rw [Locale.dateBy?, Locale.trim_of_no_blank d.chars_no_blank]
      show ["%Y-%m-%d", "%m/%d/%Y"].findSome? _ = _
      rw [List.findSome?_cons, Calendar.date_chars]
      rfl
    rw [Locale.date?, String.toList_ofList, hfirst]
    rfl
  refine coerce_lenient (by rw [htype]; decide) (isBlank_ofList hne d.chars_no_blank) ?_
  rw [htype, lenient?, hread]
  rfl

/-! ### Sending a value back -/

/-- What is read where the JSON text of a value stands for an operand. -/
def Value.Sends (v : Value) (s : Option String) : Prop :=
  ∀ depth, Reads (Descriptor.operand depth) v.jsonText.toList s

theorem sends_null : Value.null.Sends none := by
  intro depth r hr
  exact (reads_value_null depth r hr).bind (takes_pure _ _)

theorem sends_boolean (b : Bool) :
    (Value.boolean b).Sends (some (String.ofList (wordChars b))) := by
  intro depth r hr
  rw [Value.jsonText, String.toList_ofList]
  have hstart := takes_start_boolean b r
  have hvalue : Takes (value depth) (wordChars b ++ r) (.boolean b) r := by
    cases depth <;> exact hstart.bind (takes_pure _ _)
  exact hvalue.bind (takes_pure _ _)

theorem sends_integer {m : Int} (hm : -2 ^ 63 ≤ m ∧ m < 2 ^ 63) :
    (Value.integer m).Sends (some (String.ofList (signedDigits m))) := by
  obtain ⟨v, hv, hchars⟩ := exists_value_ofInt (m := m) (by omega)
  intro depth
  have hreads := reads_operand_number (literal_ofInt m) hv depth
  rw [Number.text, hchars] at hreads
  rwa [Value.jsonText, String.toList_ofList]

/-- A value whose JSON text is quoted. -/
theorem sends_quoted {s : String} (h : v.jsonText = stringText s) : v.Sends (some s) := by
  intro depth r hr
  rw [h, stringText, String.toList_ofList]
  exact (reads_value_string depth s r hr).bind (takes_pure _ _)

/-- Both texts of a value are coerced to the value again. -/
structure Rereads (l : Locale) (field : Field) (o : Operator) (cs : Bool) (v : Value) : Prop where
  shown : coerce l field o cs (some v.text) = .ok v
  sent : ∃ s, v.Sends s ∧ coerce l field o cs s = .ok v

theorem rereads_boolean (htype : field.type = .boolean) (b : Bool) :
    Rereads l field o cs (.boolean b) :=
  ⟨coerce_wordChars htype b, _, sends_boolean b, coerce_wordChars htype b⟩

/-- Both texts of an integer give it back where the locale leaves digits and the minus alone. -/
theorem rereads_integer (htype : field.type = .integer) (hl : l.KeepsIntegers) {m : Int}
    (hm : -2 ^ 63 ≤ m ∧ m < 2 ^ 63) : Rereads l field o cs (.integer m) :=
  ⟨coerce_signedDigits htype hl hm, _, sends_integer hm, coerce_signedDigits htype hl hm⟩

theorem rereads_uuid (htype : field.type = .uuid) (u : Uuid) : Rereads l field o cs (.uuid u) :=
  ⟨coerce_uuidChars htype u, _, sends_quoted rfl, coerce_uuidChars htype u⟩

theorem rereads_instant (htype : field.type = .datetime) {i : Calendar.Instant}
    (hy : Calendar.FourDigits i.date.year) : Rereads l field o cs (.datetime i) :=
  ⟨coerce_instantChars htype hy (.inl rfl), _, sends_quoted rfl,
    coerce_instantChars htype hy (.inr rfl)⟩

/-- Both texts of a date give it back under the invariant locale. -/
theorem rereads_date (htype : field.type = .date) (d : Calendar.Date) :
    Rereads .invariant field o cs (.date d) :=
  ⟨coerce_dateChars htype d, _, sends_quoted rfl, coerce_dateChars htype d⟩

/-! ### What has been bound -/

/-- An integer that is bound fits 64 bits with its sign. -/
theorem range_of_coerce {l : Locale} {operand : Option String} {m : Int}
    (hint : field.type = .integer) (h : coerce l field o cs operand = .ok (.integer m)) :
    -2 ^ 63 ≤ m ∧ m < 2 ^ 63 := by
  rcases coerce_cases h with ⟨-, hnull, -⟩ | ⟨-, -, -, hnull⟩ | ⟨s, rfl, hneeded, -⟩
  · cases hnull
  · cases hnull
  · have hfolds : ¬folds field.type o cs = true := by
      rw [hint]
      exact Bool.false_ne_true
    rw [coerce, if_neg hfolds, Option.all_some, if_neg (by rwa [Bool.and_eq_true]), convert,
      hint] at h
    simp only [lenient?, strict, mapError_eq_ok_iff, map_eq_ok_iff] at h
    obtain ⟨n, hn, he⟩ := h
    cases he
    exact Locale.range_of_integer hn

/-- Without an operand the locale has no say. -/
theorem coerce_none_of_null {operand : Option String}
    (h : coerce l field o cs operand = .ok .null) (l' : Locale) :
    coerce l' field o cs none = .ok .null := by
  rcases coerce_cases h with ⟨rfl, -, -⟩ | ⟨s, -, ⟨hvalueless, -⟩, -⟩ | ⟨s, -, -, htype⟩
  · exact h
  · simp only [coerce, hvalueless, Option.all_none, Bool.and_self, if_true, Option.elim_none,
      ite_self]
  · cases htype

/-- **The texts of a bound value are coerced to it again.** What has been bound for a field of
integers, booleans, identifiers or instants, under whatever locale and by whatever operator,
comes back from both of its texts under every other; an instant needs a year of four digits,
and integers a locale whose separators are no part of an integer. So does every date, as the
invariant locale reads it. Null has no text that comes back, but it is sent as no operand, for
which null is bound again. -/
theorem coerce_rereads :
    (∀ {l₀ : Locale} {field : Field} {o₀ : Operator} {cs₀ : Bool} {operand : Option String}
      {v : Value}, coerce l₀ field o₀ cs₀ operand = .ok v → v ≠ .null →
        field.type ∈ [.integer, .boolean, .uuid, .datetime] →
        (∀ i, v = .datetime i → 0 ≤ i.date.year ∧ i.date.year ≤ 9999) →
        ∀ (l : Locale) (o : Operator) (cs : Bool), (field.type = .integer → l.KeepsIntegers) →
          Rereads l field o cs v) ∧
    (∀ {field : Field}, field.type = .date → ∀ (o : Operator) (cs : Bool) (d : Calendar.Date),
      Rereads .invariant field o cs (.date d)) ∧
    ∀ {l₀ : Locale} {field : Field} {o : Operator} {cs : Bool} {operand : Option String},
      coerce l₀ field o cs operand = .ok .null →
        Value.null.Sends none ∧ ∀ l : Locale, coerce l field o cs none = .ok .null := by
  refine ⟨?_, fun htype o cs d => rereads_date htype d,
    fun h => ⟨sends_null, coerce_none_of_null h⟩⟩
  intro l₀ field o₀ cs₀ operand v h hnull htypes hyear l o cs hl
  have htype : v.type? = some field.type := (coerce_typed h).resolve_left hnull
  cases v with
  | null => exact absurd rfl hnull
  | integer m =>
    have hint : field.type = .integer := (Option.some.inj htype).symm
    exact rereads_integer hint (hl hint) (range_of_coerce hint h)
  | boolean b => exact rereads_boolean (Option.some.inj htype).symm b
  | uuid u => exact rereads_uuid (Option.some.inj htype).symm u
  | datetime i => exact rereads_instant (Option.some.inj htype).symm (hyear i rfl)
  | _ =>
    rw [← Option.some.inj htype] at htypes
    exact absurd htypes (by decide)

/-- A leap second, read by a layout with the month first, comes back where days come first; so
do a day before the first year and the absence of an age. -/
theorem coerce_rereads_leap :
    let at? : Field := ⟨"At", .datetime, false⟩
    let day : Field := ⟨"Day", .date, false⟩
    let age : Field := ⟨"Age", .integer, true⟩
    let dayFirst : Locale := { Locale.invariant with datetimeLayouts := ["%d/%m/%Y %H:%M:%S"] }
    (∃ i, coerce .invariant at? .gt false (some "12/31/2016 23:59:60") = .ok (.datetime i) ∧
      Rereads dayFirst at? .eq true (.datetime i)) ∧
    (∃ d : Calendar.Date, d.year = -44 ∧ Rereads .invariant day .lt false (.date d)) ∧
    coerce dayFirst age .isNull false none = .ok .null := by
  intro at? day age dayFirst
  obtain ⟨hvalues, hdates, hnull⟩ := coerce_rereads
  let d : Calendar.Date := ⟨2016, 12, 31, by decide, by decide, by decide⟩
  let t : Calendar.TimeOfDay := ⟨23, 59, 60, 0, by decide, by decide, by decide, by decide⟩
  have hinstant : coerce .invariant at? .gt false (some "12/31/2016 23:59:60") =
      .ok (.datetime ⟨d, t⟩) := toOption_eq_some_iff.1 (by decide +kernel)
  have habsent : coerce .invariant age .isNull false (some " ") = .ok .null :=
    toOption_eq_some_iff.1 (by decide +kernel)
  have hyear : ∀ i, Value.datetime ⟨d, t⟩ = .datetime i → 0 ≤ i.date.year ∧ i.date.year ≤ 9999 := by
    rintro i ⟨⟩
    decide
  have hlegible : at?.type = .integer → dayFirst.KeepsIntegers := fun h => absurd h (by decide)
  exact ⟨⟨_, hinstant, hvalues hinstant (by decide) (by decide) hyear dayFirst .eq true hlegible⟩,
    ⟨⟨-44, 3, 15, by decide, by decide, by decide⟩, rfl, hdates rfl .lt false _⟩,
    (hnull habsent).2 dayFirst⟩

/-- The word that shows null is no integer. -/
theorem null_not_reread :
    let age : Field := ⟨"Age", .integer, true⟩
    coerce .invariant age .eq false none = .ok .null ∧
      coerce .invariant age .eq false (some Value.null.text) ≠ .ok .null := by
  intro age
  rw [← toOption_eq_some_iff, Ne, ← toOption_eq_some_iff]
  decide +kernel

end Criteria
