import Criteria.Proofs.Number.Written
import Criteria.Proofs.Predicate.Readability

/-! Placeholders, as they are found in the text of a predicate.

A reader who only has the text goes from left to right and takes each `@` together with all
digits behind it (`placeholders`). Where no field is named with an `@`, that finds the number
of every leaf that needs a value, once and in order, and nothing else: what stands behind a
placeholder is never a digit, so no number runs into what follows it
(`placeholders_append`, `compile_placeholders`). -/
namespace Criteria

open Criteria.Tree Text

variable {schema : Schema} {locale : Locale} {f : Filter} {a b : List Char}

/-! ### Scanning a text -/

namespace Predicate

/-- The digits behind each `@` of a text, from left to right. -/
def placeholders : List Char → List (List Char)
  | [] => []
  | c :: r => if c = '@' then r.takeWhile Char.isDigit :: placeholders r else placeholders r

theorem placeholders_cons_ne {c : Char} (hc : c ≠ '@') (r : List Char) :
    placeholders (c :: r) = placeholders r := by
  rw [placeholders, if_neg hc]

/-- A text without an `@` adds no placeholder. -/
theorem placeholders_notMem_append (ha : '@' ∉ a) (b : List Char) :
    placeholders (a ++ b) = placeholders b := by
  induction a with
  | nil => rfl
  | cons c a ih =>
    rw [List.mem_cons, not_or] at ha
    rw [List.cons_append, placeholders_cons_ne (Ne.symm ha.1), ih ha.2]

/-- Texts may be scanned apart when no digit stands where they meet. -/
theorem placeholders_append (hb : NoDigit b) (a : List Char) :
    placeholders (a ++ b) = placeholders a ++ placeholders b := by
  induction a with
  | nil => rfl
  | cons c a ih =>
    by_cases hc : c = '@'
    · rw [List.cons_append, placeholders, placeholders, if_pos hc, if_pos hc, ih,
        takeWhile_append_noDigit hb, List.cons_append]
    · rw [List.cons_append, placeholders_cons_ne hc, placeholders_cons_ne hc, ih]

theorem placeholders_digits (n : Nat) : placeholders ('@' :: digits n) = [digits n] := by
  have hnone : '@' ∉ digits n := by
    intro h
    cases isDigit_of_mem_digits h
  have htake := takeWhile_digits (allDigits_digits n) noDigit_nil
  have hrest := placeholders_notMem_append hnone []
  rw [List.append_nil] at htake hrest
  rw [placeholders, if_pos rfl, htake, hrest]
  rfl

end Predicate

open Predicate

/-! ### The text of an atom -/

namespace Atom

/-- The placeholders that an atom shows: one if it needs a value, and none if it does not. -/
def shown (a : Atom) : List (List Char) := a.placeholder?.toList.map digits

/-- A placeholder stands at the end of an atom or before a closing parenthesis. -/
theorem exists_placeholder_parts {a : Atom} (ha : '@' ∉ a.field.toList) {n : Nat}
    (hn : a.placeholder? = some n) : ∃ pre post, a.text.toList = pre ++ ('@' :: digits n ++ post) ∧
      '@' ∉ pre ∧ '@' ∉ post ∧ NoDigit post := by
  have htext : (placeholderText n).toList = '@' :: digits n := by
    rw [placeholderText, String.toList_append, decimal, String.toList_ofList (l := digits n)]
    rfl
  have hspace : '@' ∉ " ".toList := by decide
  cases a with
  | compare f s m =>
    cases hn
    have hsign : '@' ∉ s.sign.toList := by cases s <;> decide
    refine ⟨(f ++ " " ++ s.sign ++ " ").toList, [], ?_, ?_, List.not_mem_nil, noDigit_nil⟩
    · rw [text, String.toList_append, htext, List.append_nil]
    · simp only [String.toList_append, List.mem_append, not_or]
      exact ⟨⟨⟨ha, hspace⟩, hsign⟩, hspace⟩
  | call b f folded m k =>
    cases hn
    have hnegation : '@' ∉ (negation b).toList := by cases b <;> decide
    have hname : '@' ∉ m.name.toList := by cases m <;> decide
    have haccess : '@' ∉ (access f folded).toList := by
      cases folded with
      | false => exact ha
      | true =>
        rw [access, if_pos rfl, String.toList_append, List.mem_append, not_or]
        exact ⟨ha, by decide⟩
    refine ⟨(negation b ++ access f folded ++ "." ++ m.name ++ "(").toList, [')'], ?_, ?_,
      by decide, noDigit_cons rfl _⟩
    · rw [text, String.toList_append, String.toList_append, htext, List.append_assoc]
      rfl
    · simp only [String.toList_append, List.mem_append, not_or]
      exact ⟨⟨⟨⟨hnegation, haccess⟩, by decide⟩, hname⟩, by decide⟩
  | nullness f s => cases hn
  | emptiness b f => cases hn

/-- An atom shows the placeholder that it refers to, and no other. -/
theorem placeholders_text {a : Atom} (ha : '@' ∉ a.field.toList) :
    placeholders a.text.toList = a.shown := by
  cases hn : a.placeholder? with
  | none =>
    have hat : '@' ∉ a.text.toList := by
      intro hmem
      obtain ⟨n, h⟩ := at_mem_text ha hmem
      cases hn.symm.trans h
    have h := placeholders_notMem_append hat []
    rw [List.append_nil] at h
    rw [h, shown, hn]
    rfl
  | some n =>
    obtain ⟨pre, post, htext, hpre, hpost, hdigit⟩ := exists_placeholder_parts ha hn
    have h := placeholders_notMem_append hpost []
    rw [List.append_nil] at h
    rw [htext, placeholders_notMem_append hpre, placeholders_append hdigit, placeholders_digits, h,
      shown, hn]
    rfl

end Atom

/-! ### The text of a predicate -/

mutual

theorem Term.placeholders_text : ∀ t : Term Atom, (∀ a ∈ t.leaves, '@' ∉ a.field.toList) →
    placeholders t.text.toList = t.leaves.flatMap Atom.shown
  | .atom a, h => by
    rw [Term.text, Atom.placeholders_text (h a (List.mem_singleton_self a)), Term.leaves,
      List.flatMap_singleton]
  | .parens e, h => by
    have htext := Term.toList_text_parens e []
    rw [List.append_nil] at htext
    rw [htext, placeholders_cons_ne (by decide), placeholders_append (noDigit_cons rfl _),
      Chain.placeholders_text e h]
    exact List.append_nil _

theorem Chain.placeholders_text : ∀ e : Chain Atom, (∀ a ∈ e.leaves, '@' ∉ a.field.toList) →
    placeholders e.text.toList = e.leaves.flatMap Atom.shown
  | .one t, h => Term.placeholders_text t h
  | .join t l e, h => by
    have htext := Chain.toList_text_join t l e []
    have hword : '@' ∉ l.word.toList := by cases l <;> decide
    rw [List.append_nil, List.append_nil] at htext
    rw [htext, placeholders_append (noDigit_cons rfl _), placeholders_cons_ne (by decide),
      placeholders_notMem_append hword, placeholders_cons_ne (by decide),
      Term.placeholders_text t fun a ha => h a (List.mem_append_left _ ha),
      Chain.placeholders_text e fun a ha => h a (List.mem_append_right _ ha), Chain.leaves,
      List.flatMap_append]

end

/-! ### The leaves that need a value -/

/-- The numbers of the leaves that need a value, in order. -/
def Filter.needed (f : Filter) : List Nat :=
  (f.numbered.leaves.filter fun p => !p.2.operator.isValueless).map Prod.fst

/-- A number is needed when its leaf has an operator that needs a value. -/
theorem mem_needed {n : Nat} : n ∈ Filter.needed f ↔
    ∃ q, f.leaves[n]? = some q ∧ q.operator ∉ [.isNull, .isNotNull, .isEmpty, .isNotEmpty] := by
  have hvalueless : ∀ o : Operator, (!o.isValueless) = true ↔
      o ∉ [.isNull, .isNotNull, .isEmpty, .isNotEmpty] := by
    intro o
    cases o <;> decide
  simp only [Filter.needed, List.mem_map, List.mem_filter, hvalueless]
  constructor
  · intro h
    obtain ⟨⟨i, q⟩, ⟨hq, ho⟩, rfl⟩ := h
    exact ⟨q, mem_leaves_numbered.1 hq, ho⟩
  · intro h
    obtain ⟨q, hq, ho⟩ := h
    exact ⟨(n, q), ⟨mem_leaves_numbered.2 hq, ho⟩, rfl⟩

theorem pairwise_needed (f : Filter) : (Filter.needed f).Pairwise (· < ·) := by
  have hall : f.numbered.leaves.map Prod.fst = List.range' 0 f.leaves.length := by
    rw [numbered, leaves_numberedFrom, List.map_map]
    exact List.zipIdx_map_snd 0 f.leaves
  have hsublist : (Filter.needed f).Sublist (f.numbered.leaves.map Prod.fst) :=
    List.filter_sublist.map Prod.fst
  rw [hall] at hsublist
  exact List.Pairwise.sublist hsublist List.pairwise_lt_range'

theorem shown_of_compiles {ps : List (Nat × Comparison)} {as : List Atom}
    (h : List.Forall₂ (Compiles schema locale) ps as) :
    as.flatMap Atom.shown =
      ((ps.filter fun p => !p.2.operator.isValueless).map Prod.fst).map digits := by
  induction h with
  | nil => rfl
  | @cons p a ps as hp _ ih =>
    obtain ⟨field, v, -, rfl⟩ := hp
    rw [List.flatMap_cons, ih, Atom.shown, Atom.placeholder?_of, List.filter_cons]
    cases p.2.operator.isValueless <;> rfl

/-- The placeholders in the text of a compiled filter are the numbers of the leaves that need
a value. -/
theorem placeholders_of_compile {c : Compiled} (h : compile schema locale f = .ok c)
    (hnames : ∀ field ∈ schema.fields, '@' ∉ field.name.toList) :
    placeholders c.text.toList = (Filter.needed f).map digits := by
  obtain ⟨u, hu, htext, hall⟩ := exists_reading h
  have hfields : ∀ a ∈ u.leaves, '@' ∉ a.field.toList := by
    intro a ha
    obtain ⟨name, field, o, cs, n, hf, rfl⟩ := hall a ha
    rw [Atom.field_of]
    exact hnames field (List.mem_of_find?_eq_some hf)
  rw [← htext, Term.placeholders_text u hfields, hu.leaves,
    shown_of_compiles (compile_eq_ok_iff.1 h).2.1.leaves]
  rfl

/-- **The text of a predicate shows the placeholders of its leaves and nothing else.** Every
`@` has a number behind it, the numbers increase from left to right, each has a parameter, and
they are the numbers of the leaves that do not merely test for absence. -/
theorem compile_placeholders {c : Compiled} (h : compile schema locale f = .ok c)
    (hnames : ∀ field ∈ schema.fields, '@' ∉ field.name.toList) :
    let found := placeholders c.text.toList
    (∀ ds ∈ found, ds ≠ []) ∧ (found.map ofDigits).Pairwise (· < ·) ∧
      (∀ n ∈ found.map ofDigits, n < c.parameters.length) ∧
      ∀ n, n ∈ found.map ofDigits ↔ ∃ q, f.leaves[n]? = some q ∧
        q.operator ∉ [.isNull, .isNotNull, .isEmpty, .isNotEmpty] := by
  intro found
  have hfound : found = (Filter.needed f).map digits := placeholders_of_compile h hnames
  have hnumbers : found.map ofDigits = Filter.needed f := by
    rw [hfound, List.map_map]
    exact (List.map_congr_left fun n _ => ofDigits_digits n).trans (List.map_id _)
  rw [hnumbers]
  refine ⟨fun ds hds => ?_, pairwise_needed f, fun n hn => ?_, fun n => mem_needed⟩
  · rw [hfound, List.mem_map] at hds
    obtain ⟨n, -, rfl⟩ := hds
    exact digits_ne_nil n
  · obtain ⟨q, hq, -⟩ := mem_needed.1 hn
    rw [← (compile_eq_ok_iff.1 h).2.2.length_eq]
    exact (List.getElem?_eq_some_iff.1 hq).1

/-- The digit that a field is named with does not join the number before it. -/
theorem compile_placeholders_digits :
    let schema : Schema := ⟨[⟨"1", .integer, true⟩]⟩
    let f : Filter := .group .or
      [.leaf ⟨"1", .gt, some "5", false⟩, .leaf ⟨"1", .isNull, none, false⟩,
        .group .and [.leaf ⟨"1", .eq, some "5", false⟩]]
    ∃ c, compile schema .invariant f = .ok c ∧
      ∀ n, n ∈ (placeholders c.text.toList).map ofDigits ↔ n = 0 ∨ n = 2 := by
  intro schema f
  obtain ⟨c, hc⟩ : ∃ c, compile schema .invariant f = .ok c := ⟨_, rfl⟩
  have hnames : ∀ field ∈ schema.fields, '@' ∉ field.name.toList := by
    intro field hfield
    cases List.mem_singleton.1 hfield
    decide
  refine ⟨c, hc, fun n => ((compile_placeholders hc hnames).2.2.2 n).trans ?_⟩
  match n with
  | 0 => simp [f, leaves, leavesAll]
  | 1 => simp [f, leaves, leavesAll]
  | 2 => simp [f, leaves, leavesAll]
  | n + 3 => simp [f, leaves, leavesAll]

end Criteria
