import Criteria.Proofs.Number.Localized
import Criteria.Proofs.Number.Overflow
import Criteria.Proofs.Predicate.Typing
import Criteria.Proofs.Text.Trimming

/-! Which numbers are bound.

The operand of a number field is bound as the literal it is read as (`coerce_eq_float_iff`), and
nothing asks whether that literal fits. So a filter has finite parameters just when all its literals
fit (`compile_finite`). One that does not fit is bound as an infinite number, which is sent on as
null. -/
namespace Criteria

open Criteria.Tree Coercion Text

variable {schema : Schema} {l : Locale} {field : Field} {o : Operator} {cs : Bool}
  {operand : Option String} {s : String} {x : Binary64} {lit : Literal}

/-! ### The literal of an operand -/

/-- The text, made plain, is this literal. -/
def Locale.Reads (l : Locale) (s : String) (lit : Literal) : Prop :=
  ∃ plain, l.plain s = .ok plain ∧ Literal.read? plain = some lit

theorem Locale.Reads.allDigits (h : l.Reads s lit) : AllDigits lit.digits := by
  obtain ⟨plain, -, hread⟩ := h
  exact Literal.allDigits_of_read? hread

/-- A floating-point number is the value of the literal that the locale reads. -/
theorem Locale.float_reads_iff : l.float s = .ok x ↔ ∃ lit, l.Reads s lit ∧ lit.value = x := by
  simp only [float_eq_ok_iff, Binary64.ofLiteral?, Option.map_eq_some_iff, Reads]
  constructor
  · rintro ⟨plain, hplain, lit, hread, hvalue⟩
    exact ⟨lit, ⟨plain, hplain, hread⟩, hvalue⟩
  · rintro ⟨lit, ⟨plain, hplain, hread⟩, hvalue⟩
    exact ⟨plain, hplain, lit, hread, hvalue⟩

theorem Locale.Reads.not_blank (h : l.Reads s lit) : isBlank s = false := by
  obtain ⟨plain, hplain, hread⟩ := h
  refine Bool.eq_false_iff.2 fun hblank => ?_
  rw [Locale.plain, trim_of_allBlank hblank] at hplain
  cases hplain
  cases hread

/-- A floating-point number is bound just when the field has them, and it is then the value of the
literal that the operand is read as. -/
theorem coerce_eq_float_iff : coerce l field o cs operand = .ok (.float x) ↔
    field.type = .float ∧ ∃ s lit, operand = some s ∧ l.Reads s lit ∧ lit.value = x := by
  have hconvert : field.type = .float → ∀ s, convert l field (some s) = .ok (.float x) ↔
      ∃ lit, l.Reads s lit ∧ lit.value = x := by
    intro htype s
    simp only [convert, htype, lenient?, strict, mapError_eq_ok_iff, map_eq_ok_iff,
      Value.float.injEq, exists_eq_right, Locale.float_reads_iff]
  constructor
  · intro h
    rcases coerce_cases h with ⟨-, hv, -⟩ | ⟨s, -, -, hv⟩ | ⟨s, rfl, hneeded, htyped⟩
    · cases hv
    · cases hv
    · have htype : field.type = .float := (Option.some.inj htyped).symm
      rw [coerce_some (by rw [htype]; decide), if_neg (by rwa [Bool.and_eq_true]),
        hconvert htype] at h
      obtain ⟨lit, hlit⟩ := h
      exact ⟨htype, s, lit, rfl, hlit⟩
  · intro h
    obtain ⟨htype, s, lit, rfl, hreads, hvalue⟩ := h
    rw [coerce_eq_convert (by rw [htype]; decide) hreads.not_blank]
    exact (hconvert htype s).2 ⟨lit, hreads, hvalue⟩

/-! ### The parameters of a filter -/

/-- The leaf compares a field of floating-point numbers with this literal. -/
def Comparison.States (schema : Schema) (l : Locale) (q : Comparison) (lit : Literal) : Prop :=
  ∃ field s, schema.resolve? q.field = some field ∧ field.type = .float ∧
    q.operand = some s ∧ l.Reads s lit

/-- The number of a leaf finds a floating-point number just when the leaf states its literal. -/
theorem float_parameter_iff {f : Filter} {k : Compiled} (h : compile schema l f = .ok k) {i : Nat}
    {q : Comparison} (hq : f.leaves[i]? = some q) :
    k.parameters[i]? = some (.float x) ↔ ∃ lit, q.States schema l lit ∧ lit.value = x := by
  obtain ⟨field, v, hb, hv⟩ := exists_parameter h hq
  rw [hv, Option.some.injEq]
  constructor
  · rintro rfl
    obtain ⟨htype, s, lit, hs, hreads, hvalue⟩ := coerce_eq_float_iff.1 hb.coerced
    exact ⟨lit, ⟨field, s, hb.resolved, htype, hs, hreads⟩, hvalue⟩
  · rintro ⟨lit, ⟨field', s, hfield, htype, hs, hreads⟩, hvalue⟩
    cases hb.resolved.symm.trans hfield
    exact Except.ok.inj (hb.coerced.symm.trans
      (coerce_eq_float_iff.2 ⟨htype, s, lit, hs, hreads, hvalue⟩))

theorem exists_leaf_of_parameter {f : Filter} {k : Compiled} (h : compile schema l f = .ok k)
    {i : Nat} {v : Value} (hv : k.parameters[i]? = some v) : ∃ q, f.leaves[i]? = some q := by
  have hlength := (compile_eq_ok_iff.1 h).2.2.length_eq
  obtain ⟨hi, -⟩ := List.getElem?_eq_some_iff.1 hv
  exact ⟨_, List.getElem?_eq_getElem (hlength ▸ hi)⟩

/-- **The parameters of a filter are finite just when its literals fit.** A floating-point
parameter is the value of the literal that its leaf states, and so is never the result of no number.
It is finite if that literal fits. If not, it is infinite, of the sign that is written, and is sent
on as null. -/
theorem compile_finite {f : Filter} {k : Compiled} (h : compile schema l f = .ok k) :
    ((∀ x, .float x ∈ k.parameters → x.isFinite = true) ↔
      ∀ q ∈ f.leaves, ∀ lit, q.States schema l lit → lit.Fits) ∧
    ∀ (i : Nat) (q : Comparison) (x : Binary64), f.leaves[i]? = some q →
      k.parameters[i]? = some (.float x) → ∃ lit, q.States schema l lit ∧
        (lit.Fits → ∃ m, x = .finite lit.negative m) ∧
        (¬lit.Fits → x = .infinite lit.negative ∧ (Value.float x).jsonText = "null") := by
  have hvalue : ∀ {q : Comparison} {lit : Literal}, q.States schema l lit →
      (lit.Fits ∧ ∃ m, lit.value = .finite lit.negative m) ∨
        ¬lit.Fits ∧ lit.value = .infinite lit.negative := by
    intro q lit hstates
    obtain ⟨_, _, _, _, _, hreads⟩ := hstates
    exact Literal.value_cases hreads.allDigits
  refine ⟨⟨fun hfinite q hq lit hstates => ?_, fun hfits x hx => ?_⟩, fun i q x hq hx => ?_⟩
  · obtain ⟨i, hi⟩ := List.getElem?_of_mem hq
    have hbound := (float_parameter_iff h hi).2 ⟨lit, hstates, rfl⟩
    rcases hvalue hstates with ⟨hfits, -⟩ | ⟨-, hinfinite⟩
    · exact hfits
    · have hnot := hfinite _ (List.mem_of_getElem? hbound)
      rw [hinfinite] at hnot
      cases hnot
  · obtain ⟨i, hi⟩ := List.getElem?_of_mem hx
    obtain ⟨q, hq⟩ := exists_leaf_of_parameter h hi
    obtain ⟨lit, hstates, rfl⟩ := (float_parameter_iff h hq).1 hi
    rcases hvalue hstates with ⟨-, m, hm⟩ | ⟨hnot, -⟩
    · rw [hm]
      rfl
    · exact absurd (hfits q (List.mem_of_getElem? hq) lit hstates) hnot
  · obtain ⟨lit, hstates, rfl⟩ := (float_parameter_iff h hq).1 hx
    refine ⟨lit, hstates, fun hfits => ?_, fun hnot => ?_⟩
    · rcases hvalue hstates with ⟨-, hm⟩ | ⟨hnot, -⟩
      · exact hm
      · exact absurd hfits hnot
    · rcases hvalue hstates with ⟨hfits, -⟩ | ⟨-, hinfinite⟩
      · exact absurd hfits hnot
      · exact ⟨hinfinite, by rw [hinfinite]; rfl⟩

/-- A field of floating-point numbers, and one comparison with it. -/
def scores : Schema := ⟨[⟨"Score", .float, false⟩]⟩

/-- A comparison of the score with a text. -/
def scored (s : String) : Filter := .leaf ⟨"score", .eq, some s, false⟩

/-- The least number that is finite. -/
theorem compile_finite_least :
    ∃ k, compile scores .invariant (scored "-1.7976931348623157e308") = .ok k ∧
      ∀ x, .float x ∈ k.parameters → x.isFinite = true := by
  obtain ⟨k, hk⟩ := Option.isSome_iff_exists.1 (by decide +kernel :
    (compile scores .invariant (scored "-1.7976931348623157e308")).toOption.isSome = true)
  have hk := toOption_eq_some_iff.1 hk
  refine ⟨k, hk, (compile_finite hk).1.2 fun q hq lit hstates => ?_⟩
  cases List.mem_singleton.1 hq
  obtain ⟨_, _, -, -, hs, plain, hplain, hread⟩ := hstates
  cases hs
  cases hplain
  cases hread
  decide +kernel

/-- A number that is too large is bound all the same, and is lost when it is sent on. -/
theorem infinite_bound :
    ∃ k x, compile scores .invariant (scored "1e400") = .ok k ∧ .float x ∈ k.parameters ∧
      x.isFinite = false ∧ (Value.float x).jsonText = "null" := by
  obtain ⟨k, hk, hparameters⟩ := Option.map_eq_some_iff.1 (by decide +kernel :
    (compile scores .invariant (scored "1e400")).toOption.map Compiled.parameters =
      some [.float (.infinite false)])
  refine ⟨k, .infinite false, toOption_eq_some_iff.1 hk, ?_, rfl, rfl⟩
  rw [hparameters]
  exact List.mem_singleton_self _

end Criteria
