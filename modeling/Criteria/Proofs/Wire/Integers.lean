import Criteria.Proofs.Json.Integers
import Criteria.Proofs.Wire.Numbers

/-! Integers that are sent without quotes.

An integer crosses from its digits in a JSON text to a number of at most 64 bits or a
floating-point one, to text again, and from there to what the locale makes of it. It is
bound as it was sent, or it is refused (`answer_integer`), and refused only when it does
not fit 64 bits with a sign. -/
namespace Criteria

open Json Text

variable {schema : Schema} {name s : String} {field : Field} {l : Locale} {limits : Limits}
  {o : Operator} {caseSensitive : Bool} {m : Int} {v : Number}

/-! ### What the locale reads -/

theorem integer_of_kept (hl : l.KeepsIntegers) (hchars : v.chars = signedDigits m) :
    l.integer v.text = if -2 ^ 63 ≤ m ∧ m < 2 ^ 63 then .ok m
      else .error (.integer (if m < 0 then .tooSmall else .tooLarge)) := by
  rw [Number.text, hchars]
  exact Locale.integer_signedDigits hl m

/-- The locale reads an integer back, or it reads nothing. -/
theorem integer_of_value (hl : l.KeepsIntegers) (hv : (Numeral.ofInt m).value = some v) :
    if -2 ^ 63 ≤ m ∧ m < 2 ^ 63 then l.integer v.text = .ok m
    else ∃ f, l.integer v.text = .error f := by
  by_cases hkept : -2 ^ 63 ≤ m ∧ m < 2 ^ 64
  · obtain ⟨w, hw, hchars⟩ := exists_value_ofInt hkept
    cases hv.symm.trans hw
    have hread := integer_of_kept hl hchars
    split
    next hm => rwa [if_pos hm] at hread
    next hm => exact ⟨_, hread.trans (if_neg hm)⟩
  · obtain ⟨y, rfl, hy⟩ := leading_of_value_ofInt hkept hv
    obtain ⟨n, hwritten⟩ := exists_written_chars hv
    rw [if_neg (by omega)]
    exact Locale.integer_of_marked hl (marked_float hy _) fun c hc =>
      Locale.isBlank_of_numeric (hwritten.numeric hc)

/-! ### What is bound -/

theorem coerce_integer (hint : field.type = .integer) (hs : Coercion.isBlank s = false) :
    coerce l field o caseSensitive (some s) =
      ((l.integer s).map .integer).mapError fun f =>
        .conversion field.name (some s) .integer (.locale f) := by
  have htype : field.type ≠ .string := by
    rw [hint]
    decide
  rw [coerce_eq_convert htype hs, Coercion.convert, hint]
  simp only [Coercion.lenient?, Coercion.strict]
  cases l.integer s <;> rfl

/-- What the locale makes of the text that becomes of an integer. -/
theorem coerce_value_ofInt (hint : field.type = .integer) (hl : l.KeepsIntegers)
    (hv : (Numeral.ofInt m).value = some v) (o : Operator) (caseSensitive : Bool) :
    if -2 ^ 63 ≤ m ∧ m < 2 ^ 63 then
      coerce l field o caseSensitive (some v.text) = .ok (.integer m)
    else ∃ r, coerce l field o caseSensitive (some v.text) =
      .error (.conversion field.name (some v.text) .integer r) := by
  obtain ⟨n, hwritten⟩ := exists_written_chars hv
  have hinteger := integer_of_value hl hv
  rw [coerce_integer hint (isBlank_text hwritten)]
  split
  next hm =>
    rw [if_pos hm] at hinteger
    rw [hinteger]
    rfl
  next hm =>
    rw [if_neg hm] at hinteger
    obtain ⟨f, hf⟩ := hinteger
    rw [hf]
    exact ⟨_, rfl⟩

/-- The predicate of one comparison with the integer `m`. -/
def integerCompiled (field : Field) (o : Operator) (caseSensitive : Bool) (m : Int) : Compiled :=
  ⟨.leaf (.of field o caseSensitive 0), [.integer m]⟩

/-- **An integer that is sent without quotes is bound exactly, or it is refused.** Wherever it
stands in a filter, its comparison with an integer field either binds that integer, which then
has 64 bits with its sign, or the filter does not compile; on its own the comparison fails to
convert. No separators of the locale change that. Only of an integer beyond 64 bits it has to be
assumed that it is accepted as a number at all. -/
theorem answer_integer (hfield : schema.resolve? name = some field) (hint : field.type = .integer)
    (hl : l.KeepsIntegers)
    (haccepted : m < -2 ^ 63 ∨ 2 ^ 64 ≤ m → (Numeral.ofInt m).value.isSome = true)
    (limits : Limits) (o : Operator) (caseSensitive : Bool) :
    let text := operandText name o (signedDigits m) caseSensitive
    ∃ s, (∀ depth, Reader.Reads (Descriptor.operand depth) (signedDigits m) (some s)) ∧
      (∀ f c (i : Nat), compile schema l f = .ok c →
        f.leaves[i]? = some ⟨name, o, some s, caseSensitive⟩ →
          (-2 ^ 63 ≤ m ∧ m < 2 ^ 63) ∧ c.parameters[i]? = some (.integer m)) ∧
      (Accepted limits name text → ∃ f, Filter.ofJson limits text = .ok f ∧
        if -2 ^ 63 ≤ m ∧ m < 2 ^ 63 then
          compile schema l f = .ok (integerCompiled field o caseSensitive m)
        else ∃ r, compile schema l f = .error (.conversion field.name (some s) .integer r)) := by
  intro text
  obtain ⟨v, hv⟩ : ∃ v, (Numeral.ofInt m).value = some v := by
    by_cases hkept : -2 ^ 63 ≤ m ∧ m < 2 ^ 64
    · obtain ⟨v, hv, -⟩ := exists_value_ofInt hkept
      exact ⟨v, hv⟩
    · exact Option.isSome_iff_exists.1 (haccepted (by omega))
  have hcoerce := coerce_value_ofInt hint hl hv o caseSensitive
  refine ⟨v.text, reads_operand_number (literal_ofInt m) hv, fun f c i hc hq => ?_, fun ha => ?_⟩
  · obtain ⟨w, hw, hparameter⟩ := exists_coerced hc hq hfield
    split at hcoerce
    next hm =>
      cases hcoerce.symm.trans hw
      exact ⟨hm, hparameter⟩
    next hm =>
      obtain ⟨r, hr⟩ := hcoerce
      cases hr.symm.trans hw
  · refine ⟨_, (ofJson_operandText_eq_ok_iff (literal_ofInt m) hv).2 ⟨ha, rfl⟩, ?_⟩
    rw [compile_leaf (q := ⟨name, o, some v.text, caseSensitive⟩) hfield]
    split
    next hm =>
      rw [if_pos hm] at hcoerce
      rw [hcoerce]
      rfl
    next hm =>
      rw [if_neg hm] at hcoerce
      obtain ⟨r, hr⟩ := hcoerce
      rw [hr]
      exact ⟨r, rfl⟩

/-- Where points separate groups, the largest integer is bound, and one whose text has a point
is refused. -/
theorem answer_integer_long :
    let schema : Schema := ⟨[⟨"Age", .integer, false⟩]⟩
    let text (m : Int) := operandText "age" .gte (signedDigits m) false
    (∃ f, Filter.ofJson {} (text (2 ^ 63 - 1)) = .ok f ∧ compile schema pointGroups f =
      .ok (integerCompiled ⟨"Age", .integer, false⟩ .gte false (2 ^ 63 - 1))) ∧
    ∃ f s r, Filter.ofJson {} (text 123456789012345678901234567890) = .ok f ∧
      compile schema pointGroups f = .error (.conversion "Age" (some s) .integer r) := by
  intro schema text
  have hfield : schema.resolve? "age" = some ⟨"Age", .integer, false⟩ := by decide +kernel
  have hkeeps : pointGroups.KeepsIntegers := by
    intro c hc
    rcases hc with rfl | hc
    · decide
    · cases hc
      decide
  have hwithin : ∀ m, (text m).utf8ByteSize ≤ Limits.maxJsonBytes {} → Accepted {} "age" (text m) :=
    fun m hsize => ⟨hsize, ⟨'a', by decide, by decide⟩, by decide, by decide⟩
  obtain ⟨_, -, -, hbound⟩ := answer_integer hfield rfl hkeeps (m := 2 ^ 63 - 1)
    (fun h => absurd h (by decide)) {} .gte false
  obtain ⟨s, -, -, hrefused⟩ := answer_integer hfield rfl hkeeps
    (m := 123456789012345678901234567890) (fun _ => by decide +kernel) {} .gte false
  obtain ⟨f, hf, r, hr⟩ := hrefused (hwithin _ (by decide +kernel))
  exact ⟨hbound (hwithin _ (by decide +kernel)), f, s, r, hf, hr⟩

end Criteria
