import Criteria.Proofs.Predicate.Typing
import Mathlib.Data.List.Rotate

/-! Case is ignored on both sides of a comparison, or on neither.

Whether the field is lowered is decided where an atom is made, whether the operand is lowered
where it is coerced. Both come to the same answer (`folds_iff`): the comparison is one of text,
its case does not matter, and its operator is one of five (`Comparison.IgnoresCase`). Text in
any other comparison is bound as it was sent (`coerce_text_kept`). `compile_folds_both` says so
for every leaf of a compiled filter. -/
namespace Criteria

open Criteria.Tree Coercion

variable {schema : Schema} {locale : Locale} {field : Field} {o : Operator} {cs : Bool} {v : Value}

/-! ### Lowering in the text of an atom -/

namespace Atom

/-- The text of the atom lowers its field: a call of `ToLower` stands right after its name. -/
def Lowers (a : Atom) : Prop :=
  ∃ r, a.text = negation a.negated ++ a.field ++ ".ToLower()" ++ r

/-- A text that begins both with `p` and `x` and with `x` itself goes on after `x` with `p`
from some place on and from its start up to there. -/
theorem exists_rotation {p s t : List Char} (hp : p ≠ []) : ∀ x : List Char,
    p ++ (x ++ s) = x ++ t → ∃ a b, p = a ++ b ∧ t = b ++ (a ++ s)
  | x, h => by
    rcases List.append_eq_append_iff.1 h with ⟨y, hx, h'⟩ | ⟨b, hb, h'⟩
    · have hshorter : y.length < x.length := by
        have hlength := List.length_pos_iff.2 hp
        rw [hx, List.length_append]
        omega
      rw [hx, List.append_assoc] at h'
      exact exists_rotation hp y h'
    · exact ⟨x, b, hb, h'⟩
termination_by x => x.length

/-- How a test for emptiness begins. -/
def emptinessCall : List Char := "String".toList ++ '.' :: ("IsNullOrEmpty".toList ++ ['('])

/-- In no rotation of the call does a point stand before a `T`. -/
theorem take_rotate_emptinessCall (n : Nat) : (emptinessCall.rotate n).take 2 ≠ ['.', 'T'] := by
  have hall : ∀ m < 21, (emptinessCall.rotate m).take 2 ≠ ['.', 'T'] := by decide +kernel
  rw [← List.rotate_mod]
  exact hall _ (Nat.mod_lt n (by decide))

/-- No name makes a test for emptiness look like a lowered field. -/
theorem emptinessCall_append_ne (name r : List Char) :
    emptinessCall ++ (name ++ [')']) ≠ name ++ '.' :: 'T' :: r := by
  intro h
  obtain ⟨a, b, hab, hr⟩ := exists_rotation (by decide) name h
  have hrotate : emptinessCall.rotate a.length = b ++ a := by
    rw [hab, List.rotate_append_length_eq]
  have hlong : 2 ≤ (b ++ a).length := by
    rw [← hrotate, List.length_rotate]
    decide
  have hmore : (b ++ a ++ [')']).take 2 = (b ++ a).take 2 := List.take_append_of_le_length hlong
  refine take_rotate_emptinessCall a.length ?_
  rw [hrotate, ← hmore, List.append_assoc, ← hr]
  rfl

theorem toList_lowerCall (r : List Char) :
    ".ToLower()".toList ++ r = '.' :: ("ToLower".toList ++ '(' :: ')' :: r) := rfl

theorem name_append_ne {m : Method} (x y : List Char) :
    m.name.toList ++ '(' :: x ≠ "ToLower".toList ++ '(' :: y := by
  intro h
  have hname := (word_append_inj m.name_word (t := "ToLower") (List.all_eq_true.1 rfl)
    (ends_cons rfl _) (ends_cons rfl _) h).1
  exact name_ne_toLower m hname

/-- An atom shows a call that lowers just when it folds. -/
theorem lowers_iff (a : Atom) : a.Lowers ↔ a.folds = true := by
  have htext : ∀ r, a.text = negation a.negated ++ a.field ++ ".ToLower()" ++ r ↔
      a.firstWord.toList ++ a.mark :: (a.key.toList ++ a.rest) =
        a.field.toList ++ '.' :: ("ToLower".toList ++ '(' :: ')' :: r.toList) := by
    intro r
    rw [← String.toList_inj, toList_text]
    simp only [String.toList_append, List.append_assoc, toList_lowerCall,
      List.append_cancel_left_eq]
  simp only [Lowers, htext]
  constructor
  · intro h
    obtain ⟨r, h⟩ := h
    cases a with
    | compare f s n => cases (List.cons.inj (List.append_cancel_left h)).1
    | call b f folded m n =>
      cases folded with
      | true => rfl
      | false =>
        have hkey := (List.cons.inj (List.append_cancel_left h)).2
        exact absurd hkey (name_append_ne _ _)
    | nullness f s => cases (List.cons.inj (List.append_cancel_left h)).1
    | emptiness b f =>
      have hcall : ∀ a b x : List Char,
          a ++ '.' :: (b ++ ['(']) ++ x = a ++ '.' :: (b ++ '(' :: x) := by
        intro a b x
        rw [List.append_assoc, List.cons_append, List.append_assoc, List.singleton_append]
      exact absurd ((hcall _ _ _).trans h)
        (emptinessCall_append_ne f.toList ("oLower".toList ++ '(' :: ')' :: r.toList))
  · intro h
    cases a with
    | call b f folded m n =>
      cases h
      obtain ⟨r, hr⟩ : ∃ r : String,
          r.toList = '.' :: (m.name.toList ++ '(' :: '@' :: (Text.digits n ++ [')'])) :=
        ⟨String.ofList _, String.toList_ofList⟩
      exact ⟨r, by rw [hr]; rfl⟩
    | _ => cases h

end Atom

/-! ### Lowering an operand -/

/-- A comparison of text whose case does not matter. -/
structure Comparison.IgnoresCase (field : Field) (q : Comparison) : Prop where
  text : field.type = .string
  insensitive : q.caseSensitive = false
  operator : q.operator ∈ [.eq, .contains, .doesNotContain, .startsWith, .endsWith]

theorem foldsCase_iff : o.foldsCase = true ↔
    o ∈ [.eq, .contains, .doesNotContain, .startsWith, .endsWith] := by
  cases o <;> decide

theorem valueless_iff {s : String} :
    (o ∈ [.isNull, .isNotNull, .isEmpty, .isNotEmpty] ∧ isBlank s) ↔
      (o.isValueless ∧ isBlank s) := by
  refine and_congr_left' ?_
  cases o <;> decide

/-- An operand is lowered just when its comparison ignores case. -/
theorem folds_iff {q : Comparison} :
    folds field.type q.operator q.caseSensitive = true ↔ q.IgnoresCase field := by
  rw [folds, Bool.and_eq_true, Bool.and_eq_true, foldsCase_iff, Bool.not_eq_true',
    FieldType.isString, beq_iff_eq]
  exact ⟨fun h => ⟨h.1.1, h.1.2, h.2⟩, fun h => ⟨⟨h.text, h.insensitive⟩, h.operator⟩⟩

/-- A field is lowered just when its comparison ignores case. -/
theorem lowers_of_iff {q : Comparison} (n : Nat) :
    (Atom.of field q.operator q.caseSensitive n).Lowers ↔ q.IgnoresCase field := by
  rw [Atom.lowers_iff, Atom.folds_of, Bool.and_comm]
  exact folds_iff

theorem coerce_lowered (h : folds field.type o cs = true) (s : String) :
    coerce locale field o cs (some s) = .ok (.string (Text.lower s)) := by
  rw [coerce, if_pos h]
  rfl

/-- Text that is not lowered is bound as it was sent. -/
theorem coerce_text_kept (htext : field.type = .string) (h : ¬folds field.type o cs = true)
    {s : String} (hs : ¬(o.isValueless ∧ isBlank s)) :
    coerce locale field o cs (some s) = .ok (.string s) := by
  have hneeded : ¬(o.isValueless && (some s).all isBlank) = true := by
    rw [Option.all_some, Bool.and_eq_true]
    exact hs
  rw [coerce, if_neg h, if_neg hneeded]
  simp only [convert, htext, lenient?, strict]
  rfl

/-! ### Both sides -/

/-- **Case is ignored on both sides of a comparison, or on neither.** The atom of a leaf lowers
its field just when the field is text, the leaf ignores case and its operator can; then an
operand is bound in small letters. In every other leaf with a text field an operand is bound
as it was sent, unless it is blank and only absence is tested. So letters are never lowered on
one side alone. -/
theorem compile_folds_both {f : Filter} {c : Compiled} (h : compile schema locale f = .ok c)
    {i : Nat} {q : Comparison} (hq : f.leaves[i]? = some q) :
    ∃ field v a, schema.resolve? q.field = some field ∧
      c.parameters[i]? = some v ∧ c.predicate.leaves[i]? = some a ∧ a.field = field.name ∧
      (a.Lowers ↔ q.IgnoresCase field) ∧
      ∀ s, q.operand = some s →
        (q.IgnoresCase field → v = .string (Text.lower s)) ∧
        (field.type = .string → ¬q.IgnoresCase field →
          ¬(q.operator ∈ [.isNull, .isNotNull, .isEmpty, .isNotEmpty] ∧ isBlank s) →
            v = .string s) ∧
        (v = .string (Text.lower s) → q.IgnoresCase field ∨ Text.lower s = s) := by
  obtain ⟨field, v, hb, hv⟩ := exists_parameter h hq
  obtain ⟨a, ha, field', v', hb', rfl⟩ := exists_atom h hq
  obtain ⟨rfl, -⟩ := hb.unique hb'
  refine ⟨field, v, _, hb.resolved, hv, ha, Atom.field_of .., lowers_of_iff i, fun s hs => ?_⟩
  have hcoerce := hb.coerced
  rw [hs] at hcoerce
  have hkept : field.type = .string → ¬q.IgnoresCase field →
      ¬(q.operator.isValueless ∧ isBlank s) → v = .string s := by
    intro htext hq hs
    exact Except.ok.inj
      (hcoerce.symm.trans (coerce_text_kept htext (fun hf => hq (folds_iff.1 hf)) hs))
  refine ⟨fun hq => ?_, fun htext hq hn => hkept htext hq (valueless_iff.not.1 hn), fun hlow => ?_⟩
  · exact Except.ok.inj (hcoerce.symm.trans (coerce_lowered (folds_iff.2 hq) s))
  · subst hlow
    by_cases hq : q.IgnoresCase field
    · exact .inl hq
    · -- a value that is text comes from a field of text, and it is what was sent
      rcases coerce_cases hcoerce with ⟨-, hnull, -⟩ | ⟨-, -, -, hnull⟩ | ⟨s', hs', hn, htype⟩
      · cases hnull
      · cases hnull
      · cases hs'
        exact .inr (Value.string.inj (hkept (Option.some.inj htype).symm hq hn))

/-- Of two comparisons that ignore case, only that by an operator that can is lowered. -/
theorem compile_folds_both_city :
    let schema : Schema := ⟨[⟨"City", .string, false⟩]⟩
    let f : Filter := .group .and
      [.leaf ⟨"city", .neq, some "ÅR", false⟩, .leaf ⟨"CITY", .doesNotContain, some "ÅR", false⟩]
    ∃ c a b, compile schema .invariant f = .ok c ∧
      c.predicate.leaves[0]? = some a ∧ c.predicate.leaves[1]? = some b ∧
      (¬a.Lowers ∧ c.parameters[0]? = some (.string "ÅR")) ∧
      b.Lowers ∧ c.parameters[1]? = some (.string "år") := by
  intro schema f
  obtain ⟨c, hc⟩ : ∃ c, compile schema .invariant f = .ok c := ⟨_, rfl⟩
  obtain ⟨field, v, a, hf, hv, ha, -, hlow, hcompared⟩ :=
    compile_folds_both hc (rfl : f.leaves[0]? = some ⟨"city", .neq, some "ÅR", false⟩)
  obtain ⟨field', w, b, hf', hw, hb, -, hlows, hcalled⟩ :=
    compile_folds_both hc (rfl : f.leaves[1]? = some ⟨"CITY", .doesNotContain, some "ÅR", false⟩)
  have hfield : schema.resolve? "city" = some ⟨"City", .string, false⟩ := by decide +kernel
  have hfield' : schema.resolve? "CITY" = some ⟨"City", .string, false⟩ := by decide +kernel
  cases hf.symm.trans hfield
  cases hf'.symm.trans hfield'
  have hneq : ¬Comparison.IgnoresCase ⟨"City", .string, false⟩ ⟨"city", .neq, some "ÅR", false⟩ :=
    fun h => absurd h.operator (by decide)
  have hcontains : Comparison.IgnoresCase ⟨"City", .string, false⟩
      ⟨"CITY", .doesNotContain, some "ÅR", false⟩ := ⟨rfl, rfl, by decide⟩
  have hsent := (hcompared "ÅR" rfl).2.1 rfl hneq (fun h => absurd h.1 (by decide))
  have hlowered := (hcalled "ÅR" rfl).1 hcontains
  have hlower : Text.lower "ÅR" = "år" := by decide +kernel
  exact ⟨c, a, b, hc, ha, hb, ⟨hlow.not.2 hneq, hsent ▸ hv⟩, hlows.2 hcontains,
    hlower ▸ hlowered ▸ hw⟩

end Criteria
