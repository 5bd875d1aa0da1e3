import Criteria.Proofs.Wire.WellFormed

/-! What strictness decides.

A descriptor with children may state a comparison beside them (`Mixed`). Strict reading refuses
it, lenient reading passes over the comparison. `erased` takes these comparisons away at every
depth, and changes nothing just when there are none (`erased_eq_self_iff`). Lenient reading is
strict reading of what is left (`tree_lenient_eq`). So the two agree where nothing is mixed, and
where something is, strict reading gives no tree (`tree_strict_iff`). -/
namespace Criteria.Descriptor

/-! ### Mixed descriptors -/

mutual

/-- The descriptor and all below it, in document order. -/
def parts : Descriptor → List Descriptor
  | ⟨field, operator, value, logic, some ds, caseSensitive⟩ =>
    ⟨field, operator, value, logic, some ds, caseSensitive⟩ :: partsAll ds
  | d => [d]

def partsAll : List Descriptor → List Descriptor
  | [] => []
  | d :: ds => parts d ++ partsAll ds

end

/-- It has children and states a part of a comparison as well. -/
structure Mixed (d : Descriptor) : Prop where
  children : d.filters.getD [] ≠ []
  comparison : d.field ≠ none ∨ d.operator ≠ none ∨ d.value ≠ none

/-- Nothing in it is mixed, at any depth. -/
def Unmixed (d : Descriptor) : Prop := ∀ p ∈ d.parts, ¬p.Mixed

/-- No part of any of the descriptors is mixed. -/
def UnmixedAll (ds : List Descriptor) : Prop := ∀ p ∈ partsAll ds, ¬p.Mixed

theorem unmixedAll_cons {d : Descriptor} {ds : List Descriptor} :
    UnmixedAll (d :: ds) ↔ d.Unmixed ∧ UnmixedAll ds := by
  rw [UnmixedAll, partsAll]
  exact List.forall_mem_append

/-- What has no children is never mixed. -/
theorem unmixed_of_no_children {d : Descriptor} (h : d.filters.getD [] = []) : d.Unmixed := by
  have hparts : d.parts = [d] := by
    obtain ⟨field, operator, value, logic, filters, caseSensitive⟩ := d
    match filters, h with
    | none, _ => rw [parts]; nofun
    | some [], _ => rw [parts, partsAll]
  intro p hp hmixed
  rw [hparts] at hp
  cases List.mem_singleton.1 hp
  exact hmixed.children h

theorem unmixed_group {field operator value logic : Option String} {d : Descriptor}
    {ds : List Descriptor} {caseSensitive : Bool} :
    Unmixed ⟨field, operator, value, logic, some (d :: ds), caseSensitive⟩ ↔
      (field = none ∧ operator = none ∧ value = none) ∧ UnmixedAll (d :: ds) := by
  have hmixed : Mixed ⟨field, operator, value, logic, some (d :: ds), caseSensitive⟩ ↔
      field ≠ none ∨ operator ≠ none ∨ value ≠ none :=
    ⟨fun h => h.comparison, fun h => ⟨List.cons_ne_nil d ds, h⟩⟩
  rw [Unmixed, parts, List.forall_mem_cons, hmixed, not_or, not_or, not_not, not_not, not_not]
  rfl

theorem statesComparison_eq_false_iff {field operator value : Option String} :
    statesComparison field operator value = false ↔
      field = none ∧ operator = none ∧ value = none := by
  simp [statesComparison, and_assoc]

/-! ### Erasing -/

mutual

/-- Without the comparisons that stand beside children. -/
def erased : Descriptor → Descriptor
  | ⟨_, _, _, logic, some (d :: ds), caseSensitive⟩ =>
    ⟨none, none, none, logic, some (erasedAll (d :: ds)), caseSensitive⟩
  | d => d

def erasedAll : List Descriptor → List Descriptor
  | [] => []
  | d :: ds => erased d :: erasedAll ds

end

theorem erased_of_no_children {d : Descriptor} (h : d.filters.getD [] = []) : d.erased = d := by
  obtain ⟨field, operator, value, logic, filters, caseSensitive⟩ := d
  match filters, h with
  | none, _ => rw [erased]; nofun
  | some [], _ => rw [erased]; nofun

mutual

/-- Erasing changes nothing just where nothing is mixed. -/
theorem erased_eq_self_iff : ∀ {d : Descriptor}, d.erased = d ↔ d.Unmixed
  | ⟨field, operator, value, logic, some (d :: ds), caseSensitive⟩ => by
    rw [erased, unmixed_group, ← erasedAll_eq_self_iff]
    simp only [mk.injEq, Option.some.injEq, true_and, and_true, eq_comm (a := none), and_assoc]
  | ⟨_, _, _, _, some [], _⟩ =>
    iff_of_true (erased_of_no_children rfl) (unmixed_of_no_children rfl)
  | ⟨_, _, _, _, none, _⟩ =>
    iff_of_true (erased_of_no_children rfl) (unmixed_of_no_children rfl)

theorem erasedAll_eq_self_iff : ∀ {ds : List Descriptor}, erasedAll ds = ds ↔ UnmixedAll ds
  | [] => iff_of_true rfl nofun
  | d :: ds => by
    rw [erasedAll, unmixedAll_cons, List.cons.injEq, erased_eq_self_iff, erasedAll_eq_self_iff]

end

/-! ### Both readings -/

mutual

/-- Lenient reading is strict reading of what is left. -/
theorem tree_lenient_eq : ∀ d : Descriptor, tree false d = tree true d.erased
  | ⟨field, operator, value, logic, some (d :: ds), caseSensitive⟩ => by
    have hds : trees false (d :: ds) = trees true (d.erased :: erasedAll ds) :=
      trees_lenient_eq (d :: ds)
    rw [erased, erasedAll, tree, tree, hds, statesComparison_eq_false_iff.2 ⟨rfl, rfl, rfl⟩,
      Bool.false_and, Bool.and_false]
  | ⟨_, _, _, _, some [], _⟩ => by
    rw [erased_of_no_children rfl, tree_of_no_children false rfl, tree_of_no_children true rfl]
  | ⟨_, _, _, _, none, _⟩ => by
    rw [erased_of_no_children rfl, tree_of_no_children false rfl, tree_of_no_children true rfl]

theorem trees_lenient_eq : ∀ ds : List Descriptor, trees false ds = trees true (erasedAll ds)
  | [] => rfl
  | d :: ds => by
    rw [erasedAll, trees, trees, tree_lenient_eq d, trees_lenient_eq ds]

end

mutual

/-- Strict reading gives a tree only when nothing is mixed. -/
theorem unmixed_of_tree : ∀ {d : Descriptor} {f : Filter}, tree true d = .ok f → d.Unmixed
  | ⟨field, operator, value, logic, some (d :: ds), caseSensitive⟩, f, h => by
    obtain ⟨hstates, l, ts, -, hts, rfl⟩ := tree_group_eq_ok_iff.1 h
    rw [Bool.true_and, statesComparison_eq_false_iff] at hstates
    exact unmixed_group.2 ⟨hstates, unmixedAll_of_trees hts⟩
  | ⟨_, _, _, _, some [], _⟩, _, _ => unmixed_of_no_children rfl
  | ⟨_, _, _, _, none, _⟩, _, _ => unmixed_of_no_children rfl

theorem unmixedAll_of_trees : ∀ {ds : List Descriptor} {ts : List Filter},
    trees true ds = .ok ts → UnmixedAll ds
  | [], _, _ => nofun
  | d :: ds, ts, h => by
    obtain ⟨t, us, ht, hus, rfl⟩ := trees_cons_eq_ok_iff.1 h
    exact unmixedAll_cons.2 ⟨unmixed_of_tree ht, unmixedAll_of_trees hus⟩

end

/-- Where nothing is mixed, strictness does not matter. -/
theorem tree_strict_of_unmixed {d : Descriptor} (h : d.Unmixed) : tree true d = tree false d := by
  rw [tree_lenient_eq, erased_eq_self_iff.2 h]

/-- **Strictness refuses mixed descriptors and decides nothing else.** Lenient reading is strict
reading of the descriptor without the comparisons that stand beside children, in its tree and in
its error. Strict reading gives a tree just when lenient reading gives this tree and no descriptor
with children states a part of a comparison; where none does, the two have the same error too. -/
theorem tree_strict_iff (d : Descriptor) :
    d.tree false = d.erased.tree true ∧
    (∀ f, d.tree true = .ok f ↔ d.tree false = .ok f ∧ d.Unmixed) ∧
    (d.Unmixed → d.tree true = d.tree false) := by
  refine ⟨tree_lenient_eq d, fun f => ⟨fun h => ?_, fun h => ?_⟩, tree_strict_of_unmixed⟩
  · have hunmixed := unmixed_of_tree h
    exact ⟨tree_strict_of_unmixed hunmixed ▸ h, hunmixed⟩
  · exact (tree_strict_of_unmixed h.2).trans h.1

/-- A value beside children, one level down: passed over or refused. -/
example :
    let age : Descriptor := ⟨some "Age", some "gt", some "5", none, none, false⟩
    let mixed : Descriptor := ⟨none, none, some "x", none, some [age], false⟩
    let d : Descriptor := ⟨none, none, none, some "or", some [age, mixed], false⟩
    let q : Comparison := ⟨"Age", .gt, some "5", false⟩
    d.tree false = .ok (.group .or [.leaf q, .group .and [.leaf q]]) ∧
      d.tree true = .error (.malformed .mixed) := ⟨rfl, rfl⟩

end Criteria.Descriptor
