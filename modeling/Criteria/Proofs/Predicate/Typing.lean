import Criteria.Proofs.Predicate.Alignment
import Criteria.Proofs.Predicate.Atom

/-! Parameters have the types of their fields.

What an operand is coerced to is a value of its field's type or null, and null only where
there is no operand or none that a test for absence needs (`coerce_cases`). Such a test
refers to no placeholder. So a predicate never compares a field with null unless the field
may be null or is text (`compile_typed`). -/
namespace Criteria

open Criteria.Tree Coercion

variable {schema : Schema} {locale : Locale} {field : Field} {o : Operator} {cs : Bool}
  {operand : Option String} {v : Value}

/-! ### What an operand is coerced to -/

/-- The type of the fields that a value suits; null is of no type. -/
def Value.type? : Value → Option FieldType
  | null => none
  | string _ => some .string
  | boolean _ => some .boolean
  | integer _ => some .integer
  | float _ => some .float
  | datetime _ => some .datetime
  | date _ => some .date
  | uuid _ => some .uuid

theorem type?_of_lenient {type : FieldType} {s : String} (h : lenient? locale type s = some v) :
    v.type? = some type := by
  cases type with
  | datetime =>
    obtain ⟨i, -, rfl⟩ := Option.map_eq_some_iff.1 h
    rfl
  | date =>
    obtain ⟨d, -, rfl⟩ := Option.map_eq_some_iff.1 h
    rfl
  | _ => cases h

theorem type?_of_strict {type : FieldType} {s : String} (h : strict locale type s = .ok v) :
    v.type? = some type := by
  cases type with
  | string =>
    cases h
    rfl
  | _ =>
    simp only [strict, mapError_eq_ok_iff, map_eq_ok_iff] at h
    obtain ⟨x, -, rfl⟩ := h
    rfl

theorem not_valueless_of_foldsCase {o : Operator} (h : o.foldsCase) : o.isValueless = false := by
  cases o <;> first | rfl | cases h

/-- What is converted without an operand is null, and everything else is of the type of the
field. -/
theorem convert_cases (h : convert locale field operand = .ok v) :
    (operand = none ∧ v = .null ∧ field.permitsAbsence) ∨
      ∃ s, operand = some s ∧ v.type? = some field.type := by
  cases operand with
  | none =>
    by_cases hp : field.permitsAbsence
    · simp only [convert, hp, if_true] at h
      cases h
      exact .inl ⟨rfl, rfl, hp⟩
    · simp only [convert, hp, if_false, Bool.false_eq_true, reduceCtorEq] at h
  | some s =>
    refine .inr ⟨s, rfl, ?_⟩
    cases hl : lenient? locale field.type s with
    | some w =>
      simp only [convert, hl] at h
      cases h
      exact type?_of_lenient hl
    | none =>
      simp only [convert, hl, mapError_eq_ok_iff] at h
      exact type?_of_strict h

/-- What a coercion can give: null without an operand, null for a test for absence with a
blank one, and in all other cases a value of the type of the field. -/
theorem coerce_cases (h : coerce locale field o cs operand = .ok v) :
    (operand = none ∧ v = .null ∧ (o.isValueless ∨ field.permitsAbsence)) ∨
    (∃ s, operand = some s ∧ (o.isValueless ∧ isBlank s) ∧ v = .null) ∨
    ∃ s, operand = some s ∧ ¬(o.isValueless ∧ isBlank s) ∧ v.type? = some field.type := by
  by_cases hf : folds field.type o cs
  · -- lowering, which is for text only and never for a test for absence
    rw [coerce, if_pos hf] at h
    cases h
    simp only [folds, Bool.and_eq_true] at hf
    obtain ⟨⟨htext, -⟩, hfold⟩ := hf
    cases operand with
    | none => exact .inl ⟨rfl, rfl, .inr (Bool.or_eq_true_iff.2 (.inr htext))⟩
    | some s =>
      refine .inr (.inr ⟨s, rfl, fun hv => ?_, ?_⟩)
      · rw [not_valueless_of_foldsCase hfold] at hv
        exact absurd hv.1 (by decide)
      · rw [FieldType.isString, beq_iff_eq] at htext
        rw [htext]
        rfl
  · by_cases hb : o.isValueless && operand.all isBlank
    · rw [coerce, if_neg hf, if_pos hb] at h
      cases h
      obtain ⟨hv, hb⟩ := Bool.and_eq_true_iff.1 hb
      cases operand with
      | none => exact .inl ⟨rfl, rfl, .inl hv⟩
      | some s => exact .inr (.inl ⟨s, rfl, ⟨hv, hb⟩, rfl⟩)
    · rw [coerce, if_neg hf, if_neg hb] at h
      rcases convert_cases h with ⟨rfl, rfl, hp⟩ | ⟨s, rfl, ht⟩
      · exact .inl ⟨rfl, rfl, .inr hp⟩
      · exact .inr (.inr ⟨s, rfl, fun hv => hb (Bool.and_eq_true_iff.2 hv), ht⟩)

/-- The locale reads an operand, or leaves it to the type of the field. -/
theorem convert_eq_ok_iff {s : String} : convert locale field (some s) = .ok v ↔
    lenient? locale field.type s = some v ∨
      lenient? locale field.type s = none ∧ strict locale field.type s = .ok v := by
  cases hl : lenient? locale field.type s with
  | some w =>
    simp only [convert, hl, Except.ok.injEq, Option.some.injEq, reduceCtorEq, false_and, or_false]
  | none => simp only [convert, hl, mapError_eq_ok_iff, reduceCtorEq, true_and, false_or]

/-- Unless the field is text, an operand is converted, or it is blank and goes with a test for
absence. -/
theorem coerce_some (htype : field.type ≠ .string) (s : String) :
    coerce locale field o cs (some s) =
      if o.isValueless && isBlank s then .ok .null else convert locale field (some s) := by
  have hfolds : folds field.type o cs = false := by
    rw [folds, FieldType.isString, beq_eq_false_iff_ne.2 htype]
    rfl
  rw [coerce, hfolds, if_neg Bool.false_ne_true, Option.all_some]

theorem coerce_eq_convert (htype : field.type ≠ .string) {s : String} (hs : isBlank s = false) :
    coerce locale field o cs (some s) = convert locale field (some s) := by
  rw [coerce_some htype, hs, Bool.and_false, if_neg Bool.false_ne_true]

/-- A value is null or of the type of its field. -/
theorem coerce_typed (h : coerce locale field o cs operand = .ok v) :
    v = .null ∨ v.type? = some field.type := by
  rcases coerce_cases h with ⟨-, hv, -⟩ | ⟨s, -, -, hv⟩ | ⟨s, -, -, ht⟩
  · exact .inl hv
  · exact .inl hv
  · exact .inr ht

/-- Null stands for a missing operand, or for a blank one that a test for absence does not need. -/
theorem coerce_null_iff (h : coerce locale field o cs operand = .ok v) :
    v = .null ↔ operand = none ∨ o.isValueless ∧ ∃ s, operand = some s ∧ isBlank s := by
  rcases coerce_cases h with ⟨hn, hv, -⟩ | ⟨s, hs, ⟨ho, hb⟩, hv⟩ | ⟨s, hs, hnb, ht⟩
  · exact iff_of_true hv (.inl hn)
  · exact iff_of_true hv (.inr ⟨ho, s, hs, hb⟩)
  · refine iff_of_false (fun hv => ?_) (fun hor => ?_)
    · rw [hv] at ht
      cases ht
    · rw [hs] at hor
      rcases hor with hn | ⟨ho, s', hs', hb⟩
      · cases hn
      · cases hs'
        exact hnb ⟨ho, hb⟩

/-- Null where a value is needed: the field may be null, or it is text. -/
theorem permitsAbsence_of_coerce (h : coerce locale field o cs operand = .ok .null)
    (ho : o.isValueless = false) : field.nullable ∨ field.type = .string := by
  have hp : field.permitsAbsence := by
    rcases coerce_cases h with ⟨-, -, hv | hp⟩ | ⟨s, -, ⟨hv, -⟩, -⟩ | ⟨s, -, -, ht⟩
    · rw [ho] at hv
      cases hv
    · exact hp
    · rw [ho] at hv
      cases hv
    · cases ht
  simpa only [Field.permitsAbsence, FieldType.isString, Bool.or_eq_true, beq_iff_eq] using hp

/-! ### The parameters of a predicate -/

theorem needed_of_placeholder {i n : Nat} (h : (Atom.of field o cs i).placeholder? = some n) :
    o.isValueless = false ∧ n = i := by
  rw [Atom.placeholder?_of] at h
  by_cases ho : o.isValueless
  · rw [if_pos ho] at h
    cases h
  · rw [if_neg ho] at h
    cases h
    exact ⟨Bool.eq_false_iff.2 ho, rfl⟩

/-- Unless the name of a field has an `@`, its atom shows a placeholder just when it
refers to one. -/
theorem placeholder_occurs_iff (hname : '@' ∉ field.name.toList) (i : Nat) :
    (Atom.placeholderText i).toList <:+: (Atom.of field o cs i).text.toList ↔
      (Atom.of field o cs i).placeholder? = some i := by
  refine ⟨fun h => ?_, Atom.placeholder_occurs⟩
  have hat : '@' ∈ (Atom.placeholderText i).toList := by
    rw [Atom.placeholderText, String.toList_append]
    exact List.mem_append_left _ (List.mem_singleton_self '@')
  obtain ⟨n, hn⟩ := Atom.at_mem_text (by rw [Atom.field_of]; exact hname) (h.subset hat)
  rw [hn, (needed_of_placeholder hn).2]

/-- **Parameters have the types of their fields.** The parameter of a leaf is null or a
value of the type of its field. It is null just when the leaf has no operand, or tests for
absence with a blank one. Where the atom of the leaf does refer to it, a null means that
the field may be null or is text. -/
theorem compile_typed {f : Filter} {c : Compiled} (h : compile schema locale f = .ok c) {i : Nat}
    {q : Comparison} (hq : f.leaves[i]? = some q) :
    ∃ field v a, schema.resolve? q.field = some field ∧
      c.parameters[i]? = some v ∧ c.predicate.leaves[i]? = some a ∧
      a = .of field q.operator q.caseSensitive i ∧
      (v = .null ∨ v.type? = some field.type) ∧
      (v = .null ↔ q.operand = none ∨
        q.operator.isValueless ∧ ∃ s, q.operand = some s ∧ isBlank s) ∧
      (a.placeholder? = some i → v = .null → field.nullable ∨ field.type = .string) ∧
      ('@' ∉ field.name.toList →
        ((Atom.placeholderText i).toList <:+: a.text.toList ↔ a.placeholder? = some i)) := by
  obtain ⟨field, v, hb, hv⟩ := exists_parameter h hq
  obtain ⟨a, ha, field', v', hb', rfl⟩ := exists_atom h hq
  obtain ⟨rfl, -⟩ := hb.unique hb'
  refine ⟨field, v, _, hb.resolved, hv, ha, rfl, coerce_typed hb.coerced,
    coerce_null_iff hb.coerced, fun hp hn => ?_, fun hname => placeholder_occurs_iff hname i⟩
  subst hn
  exact permitsAbsence_of_coerce hb.coerced (needed_of_placeholder hp).1

/-- A number beside a text that is null: the parameter of the number has its type. -/
theorem compile_typed_age :
    let schema : Schema := ⟨[⟨"Age", .integer, false⟩, ⟨"Name", .string, false⟩]⟩
    let f : Filter := .group .and
      [.leaf ⟨"name", .eq, none, false⟩, .leaf ⟨"age", .gt, some "5", false⟩]
    ∃ c v, compile schema .invariant f = .ok c ∧ c.parameters[1]? = some v ∧
      v.type? = some .integer := by
  intro schema f
  obtain ⟨c, hc⟩ : ∃ c, compile schema .invariant f = .ok c := ⟨_, rfl⟩
  obtain ⟨field, v, a, hf, hv, -, -, htyped, hnull, -⟩ :=
    compile_typed hc (rfl : f.leaves[1]? = some ⟨"age", .gt, some "5", false⟩)
  cases hf
  refine ⟨c, v, hc, hv, htyped.resolve_left fun h => ?_⟩
  rcases hnull.1 h with hn | ⟨hn, -⟩ <;> cases hn

end Criteria
