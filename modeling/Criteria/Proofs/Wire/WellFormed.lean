import Criteria.Limits
import Criteria.Proofs.Predicate.Faults

/-! Filters that are read are well formed.

A descriptor becomes a group only when it has children and a comparison only when it has
a field, so a filter that is read has no empty group and no blank field, at any depth
(`wellFormed_of_tree`). The compiler's complaints about the shape of a filter are about
just these, and what is left to complain about is an undeclared field or an operand that
does not suit its own (`wellFormed_of_ofJson`). -/
namespace Criteria

open Criteria.Tree

/-- No group is empty, and every comparison has more than white space for a field. -/
structure Filter.WellFormed (f : Filter) : Prop where
  populated : f.Populated
  named : ∀ q ∈ f.leaves, ∃ c ∈ q.field.toList, Text.isBlank c = false

/-! ### From a descriptor -/

namespace Descriptor

/-- The field of a comparison is not blank. -/
theorem field_of_comparison {d : Descriptor} {q : Comparison} (h : d.comparison = .ok q) :
    ∃ c ∈ q.field.toList, Text.isBlank c = false := by
  unfold comparison at h
  split at h
  · cases h
  next field hfield =>
    split at h
    · cases h
    split at h
    · cases h
    · cases h
      have hblank := (Option.filter_eq_some_iff.1 hfield).2
      simpa [Text.allBlank] using hblank

/-- Without children, whether they are left out or none are given, it is a comparison. -/
theorem tree_of_no_children (strict : Bool) {d : Descriptor} (h : d.filters.getD [] = []) :
    tree strict d = d.comparison.map .leaf := by
  obtain ⟨field, operator, value, logic, filters, caseSensitive⟩ := d
  match filters, h with
  | none, _ => rw [tree]; nofun
  | some [], _ => rw [tree]; nofun

/-- What reading a group has come through. -/
theorem tree_group_eq_ok_iff {strict : Bool} {field operator value logic : Option String}
    {d : Descriptor} {ds : List Descriptor} {caseSensitive : Bool} {f : Filter} :
    tree strict ⟨field, operator, value, logic, some (d :: ds), caseSensitive⟩ = .ok f ↔
      (strict && statesComparison field operator value) = false ∧
        ∃ l ts, connective logic = .ok l ∧ trees strict (d :: ds) = .ok ts ∧ f = .group l ts := by
  constructor
  · intro h
    rw [tree] at h
    split at h
    · cases h
    next hstates =>
      split at h
      · cases h
      next l hl =>
        split at h
        · cases h
        next ts hts =>
          cases h
          exact ⟨Bool.eq_false_iff.2 hstates, l, ts, hl, hts, rfl⟩
  · intro h
    obtain ⟨hstates, l, ts, hl, hts, rfl⟩ := h
    simp only [tree, hstates, hl, hts, Bool.false_eq_true, if_false]

theorem trees_cons_eq_ok_iff {strict : Bool} {d : Descriptor} {ds : List Descriptor}
    {ts : List Filter} : trees strict (d :: ds) = .ok ts ↔
      ∃ t us, tree strict d = .ok t ∧ trees strict ds = .ok us ∧ ts = t :: us := by
  constructor
  · intro h
    rw [trees] at h
    split at h
    · cases h
    next t ht =>
      split at h
      · cases h
      next us hus =>
        cases h
        exact ⟨t, us, ht, hus, rfl⟩
  · intro h
    obtain ⟨t, us, ht, hus, rfl⟩ := h
    simp only [trees, ht, hus]

theorem wellFormed_of_comparison {d : Descriptor} {f : Filter}
    (h : d.comparison.map .leaf = .ok f) : f.WellFormed := by
  obtain ⟨q, hq, rfl⟩ := map_eq_ok_iff.1 h
  refine ⟨trivial, fun p hp => ?_⟩
  cases List.mem_singleton.1 hp
  exact field_of_comparison hq

mutual

/-- Whatever filter a descriptor states is well formed. -/
theorem wellFormed_of_tree {strict : Bool} : ∀ {d : Descriptor} {f : Filter},
    tree strict d = .ok f → f.WellFormed
  | ⟨_, _, _, _, some (d :: ds), _⟩, f, h => by
    obtain ⟨-, l, ts, -, hts, rfl⟩ := tree_group_eq_ok_iff.1 h
    obtain ⟨hlength, hpop, hnamed⟩ := wellFormed_of_trees hts
    exact ⟨⟨List.ne_nil_of_length_eq_add_one hlength, hpop⟩, hnamed⟩
  | ⟨_, _, _, _, some [], _⟩, f, h => by
    rw [tree_of_no_children strict rfl] at h
    exact wellFormed_of_comparison h
  | ⟨_, _, _, _, none, _⟩, f, h => by
    rw [tree_of_no_children strict rfl] at h
    exact wellFormed_of_comparison h

/-- As many nodes as descriptors, all of them well formed. -/
theorem wellFormed_of_trees {strict : Bool} : ∀ {ds : List Descriptor} {ts : List Filter},
    trees strict ds = .ok ts → ts.length = ds.length ∧ PopulatedAll ts ∧
      ∀ q ∈ leavesAll ts, ∃ c ∈ q.field.toList, Text.isBlank c = false
  | [], ts, h => by
    cases h
    exact ⟨rfl, trivial, nofun⟩
  | d :: ds, ts, h => by
    obtain ⟨t, us, ht, hus, rfl⟩ := trees_cons_eq_ok_iff.1 h
    have hd := wellFormed_of_tree ht
    obtain ⟨hlength, hpop, hnamed⟩ := wellFormed_of_trees hus
    refine ⟨congrArg (· + 1) hlength, ⟨hd.populated, hpop⟩, fun q hq => ?_⟩
    rcases List.mem_append.1 hq with hq | hq
    · exact hd.named q hq
    · exact hnamed q hq

end

end Descriptor

/-! ### From a text -/

/-- A filter passes when it keeps both bounds. -/
theorem check_eq_ok_iff {l : Limits} {f : Filter} :
    l.check f = .ok () ↔ f.depth ≤ l.maxDepth ∧ f.leaves.length ≤ l.maxLeaves := by
  unfold Limits.check
  split
  · simp only [reduceCtorEq, false_iff]
    omega
  split
  · simp only [reduceCtorEq, false_iff]
    omega
  · simp only [true_iff]
    omega

/-- A text that is read is small enough, describes the filter, and the filter is within the
limits. -/
theorem ofJson_eq_ok_iff {l : Limits} {text : String} {f : Filter} :
    Filter.ofJson l text = .ok f ↔ text.utf8ByteSize ≤ l.maxJsonBytes ∧
      (∃ d, Descriptor.ofJson text = .ok d ∧ d.tree l.strictNodes = .ok f) ∧
      f.depth ≤ l.maxDepth ∧ f.leaves.length ≤ l.maxLeaves := by
  rw [← check_eq_ok_iff]
  constructor
  · intro h
    unfold Filter.ofJson at h
    split at h
    · cases h
    next hsize =>
      split at h
      · cases h
      next d hd =>
        split at h
        · cases h
        next g hg =>
          split at h
          · cases h
          next hcheck =>
            cases h
            exact ⟨Nat.le_of_not_lt hsize, ⟨d, hd, hg⟩, hcheck⟩
  · intro h
    obtain ⟨hsize, ⟨d, hd, hf⟩, hcheck⟩ := h
    simp only [Filter.ofJson, if_neg (Nat.not_lt_of_le hsize), hd, hf, hcheck]

theorem wellFormed_of_read {l : Limits} {text : String} {f : Filter}
    (h : Filter.ofJson l text = .ok f) : f.WellFormed := by
  obtain ⟨-, ⟨d, -, hd⟩, -⟩ := ofJson_eq_ok_iff.1 h
  exact Descriptor.wellFormed_of_tree hd

/-! ### Compiling what has been read -/

namespace Tree

variable {α : Type}

mutual

/-- An empty group is not met in a populated tree. -/
theorem Populated.full {t : Tree α} (h : t.Populated) : Node.group true ∉ t.nodes := by
  match t, h with
  | leaf a, _ => simp only [nodes, List.mem_singleton, reduceCtorEq, not_false_eq_true]
  | group l ts, h =>
    rw [nodes, List.mem_cons, not_or]
    refine ⟨fun he => ?_, PopulatedAll.full h.2⟩
    cases ts with
    | nil => exact h.1 rfl
    | cons t ts => cases he

theorem PopulatedAll.full {ts : List (Tree α)} (h : PopulatedAll ts) :
    Node.group true ∉ nodesAll ts := by
  match ts, h with
  | [], _ => exact List.not_mem_nil
  | t :: ts, h =>
    rw [nodesAll, List.mem_append, not_or]
    exact ⟨h.1.full, h.2.full⟩

end

end Tree

/-- The errors that are about a comparison and the schema, and not about the shape. -/
inductive Error.Binding : Error → Prop
  | unresolvedField (name : String) : Binding (.unresolvedField name)
  | conversion (field : String) (operand : Option String) (target : FieldType) (r : Reason) :
    Binding (.conversion field operand target r)

/-- A node that is no empty group fails only over its field or its operand. -/
theorem binding_of_fails {schema : Schema} {locale : Locale} {x : Node Comparison} {e : Error}
    (hx : x ≠ .group true) (h : Fails schema locale x e) : e.Binding := by
  cases h with
  | noChildren => exact absurd rfl hx
  | unresolved => exact .unresolvedField _
  | unsuitable hf he =>
    obtain ⟨r, rfl⟩ := conversion_of_coerce he
    exact .conversion _ _ _ r

/-- **Filters that are read are well formed**, and so the shape of a filter is never what
its compilation complains about: it gives a predicate, or the field of a comparison is not
declared, or an operand does not suit its field. -/
theorem wellFormed_of_ofJson {l : Limits} {text : String} {f : Filter}
    (h : Filter.ofJson l text = .ok f) :
    f.WellFormed ∧ ∀ schema locale,
      (∃ k, compile schema locale f = .ok k) ∨
        ∃ e, compile schema locale f = .error e ∧ e.Binding := by
  have hf := wellFormed_of_read h
  refine ⟨hf, fun schema locale => ?_⟩
  cases hc : compile schema locale f with
  | ok k => exact .inl ⟨k, rfl⟩
  | error e =>
    obtain ⟨x, hx, hfails⟩ := fails_of_compile hc
    refine .inr ⟨e, rfl, binding_of_fails (fun he => ?_) hfails⟩
    exact hf.populated.full (he ▸ hx)

/-- Two comparisons, one with an empty list of children, one written as a list of its parts. -/
theorem wellFormed_of_ofJson_mixed :
    let text := "\x7b\"logic\":\"OR\",\"filters\":[" ++
      "\x7b\"field\":\" Age\",\"operator\":\"eq\",\"filters\":[]\x7d," ++
      "[\"age\",\"gt\",\"old\",null,null]]\x7d"
    ∃ f, Filter.ofJson {} text = .ok f ∧
      f.leaves = [⟨" Age", .eq, none, false⟩, ⟨"age", .gt, some "old", false⟩] ∧ f.WellFormed ∧
      ∀ schema locale, (∃ k, compile schema locale f = .ok k) ∨
        ∃ e, compile schema locale f = .error e ∧ e.Binding := by
  intro text
  have h : (Filter.ofJson {} text).toOption.map leaves =
      some [⟨" Age", .eq, none, false⟩, ⟨"age", .gt, some "old", false⟩] := by decide +kernel
  obtain ⟨f, hf, hleaves⟩ := Option.map_eq_some_iff.1 h
  have hf : Filter.ofJson {} text = .ok f := by
    cases hr : Filter.ofJson {} text <;> rw [hr] at hf <;> cases hf
    rfl
  exact ⟨f, hf, hleaves, wellFormed_of_ofJson hf⟩

end Criteria
