import Criteria.Proofs.Predicate.Compilation

/-! Placeholders and parameters line up.

`writeFrom` is the plain way to write a filter: it knows no places and no slots, only a
counter that goes up by one at each leaf. `compile_aligned` says that a compilation
writes the same text, and that the parameter at a leaf's number is the value of that
leaf and of no other, also when many leaves are equal. -/
namespace Criteria

open Criteria.Tree Compiler

variable {schema : Schema} {locale : Locale}

/-! ### Writing with a counter -/

mutual

/-- The text of a filter whose first leaf has the number `n`, and the number after its
last leaf; nothing when a field is not declared. -/
def writeFrom (schema : Schema) : Filter → Nat → Option (String × Nat)
  | .leaf q, n => do
    let field ← schema.resolve? q.field
    pure ((Atom.of field q.operator q.caseSensitive n).text, n + 1)
  | .group l ts, n => do
    let (parts, n) ← writeAllFrom schema ts n
    pure ("(" ++ (" " ++ l.word ++ " ").intercalate parts ++ ")", n)

def writeAllFrom (schema : Schema) : List Filter → Nat → Option (List String × Nat)
  | [], n => some ([], n)
  | t :: ts, n => do
    let (part, n) ← writeFrom schema t n
    let (parts, n) ← writeAllFrom schema ts n
    pure (part :: parts, n)

end

mutual

/-- A predicate whose atoms are those of the leaves is written as the counter writes it. -/
theorem writeFrom_of_alike : ∀ {f : Filter} {n : Nat} {p : Predicate},
    Alike (Compiles schema locale) (numberedFrom n f) p →
      writeFrom schema f n = some (Predicate.text p, n + f.leaves.length)
  | .leaf q, n, _, .leaf h => by
    obtain ⟨field, v, hb, rfl⟩ := h
    rw [writeFrom, hb.resolved]
    rfl
  | .group l ts, n, _, .group _ h => by
    rw [writeFrom, writeAllFrom_of_alike h]
    rfl

theorem writeAllFrom_of_alike : ∀ {ts : List Filter} {n : Nat} {ps : List Predicate},
    AlikeAll (Compiles schema locale) (numberedAllFrom n ts) ps →
      writeAllFrom schema ts n = some (Predicate.texts ps, n + (leavesAll ts).length)
  | [], n, _, .nil => rfl
  | t :: ts, n, _, .cons h hs => by
    rw [writeAllFrom, writeFrom_of_alike h, leavesAll, List.length_append, ← Nat.add_assoc]
    show (writeAllFrom schema ts (n + t.leaves.length)).bind _ = _
    rw [writeAllFrom_of_alike hs]
    rfl

end

/-! ### The compiled text and parameters -/

/-- The number of a leaf finds the value of that leaf among the parameters. -/
theorem exists_parameter {f : Filter} {k : Compiled} (h : compile schema locale f = .ok k)
    {i : Nat} {q : Comparison} (hq : f.leaves[i]? = some q) :
    ∃ field v, q.Binds schema locale field v ∧ k.parameters[i]? = some v := by
  obtain ⟨v, hv, field, hb⟩ := exists_getElem?_of_forall₂ (compile_eq_ok_iff.1 h).2.2 hq
  exact ⟨field, v, hb, hv⟩

/-- What a leaf of a resolved field is coerced to is found among the parameters. -/
theorem exists_coerced {f : Filter} {k : Compiled} {field : Field} {i : Nat} {q : Comparison}
    (h : compile schema locale f = .ok k) (hq : f.leaves[i]? = some q)
    (hfield : schema.resolve? q.field = some field) :
    ∃ v, coerce locale field q.operator q.caseSensitive q.operand = .ok v ∧
      k.parameters[i]? = some v := by
  obtain ⟨field', v, hb, hv⟩ := exists_parameter h hq
  cases hfield.symm.trans hb.resolved
  exact ⟨v, hb.coerced, hv⟩

/-- The number of a leaf is that of its atom. -/
theorem exists_atom {f : Filter} {k : Compiled} (h : compile schema locale f = .ok k)
    {i : Nat} {q : Comparison} (hq : f.leaves[i]? = some q) :
    ∃ a, k.predicate.leaves[i]? = some a ∧ Compiles schema locale (i, q) a := by
  have hnum : f.numbered.leaves[i]? = some (i, q) := by
    rw [numbered, leaves_numberedFrom, List.getElem?_map, List.getElem?_zipIdx, hq]
    simp
  exact exists_getElem?_of_forall₂ (compile_eq_ok_iff.1 h).2.1.leaves hnum

/-- A filter compiles just when it has no empty group and every leaf can be bound. -/
theorem exists_compile_iff {f : Filter} : (∃ k, compile schema locale f = .ok k) ↔
    f.Populated ∧ ∀ q ∈ f.leaves, ∃ field v, q.Binds schema locale field v := by
  constructor
  · intro h
    obtain ⟨k, h⟩ := h
    refine ⟨(compile_eq_ok_iff.1 h).1, fun q hq => ?_⟩
    obtain ⟨i, hi⟩ := List.getElem?_of_mem hq
    obtain ⟨field, v, hb, -⟩ := exists_parameter h hi
    exact ⟨field, v, hb⟩
  · intro h
    obtain ⟨hpop, hall⟩ := h
    have hleaves : ∀ q ∈ f.numbered.leaves, ∃ a, Compiles schema locale q a := by
      intro p hq
      obtain ⟨i, q⟩ := p
      obtain ⟨field, v, hb⟩ := hall q (List.mem_of_getElem? (mem_leaves_numbered.1 hq))
      exact ⟨_, field, v, hb, rfl⟩
    obtain ⟨p, hp⟩ := exists_alike f.numbered hleaves
    obtain ⟨u, hu⟩ : ∃ u : Tree Value,
        Alike (fun q v => ∃ field, q.Binds schema locale field v) f u :=
      exists_alike f fun q hq => exists_comm.1 (hall q hq)
    exact ⟨⟨p, u.leaves⟩, compile_eq_ok_iff.2 ⟨hpop, hp, hu.leaves⟩⟩

/-- **A filter is compiled as if its leaves were written and bound one by one.** It
compiles just when no group is empty and every leaf can be bound; then leaf `i` is
written with the number `i`, parameter `i` is the value of leaf `i`, and no slot is left
to stand for a null. -/
theorem compile_aligned (schema : Schema) (locale : Locale) (f : Filter) :
    ((∃ k, compile schema locale f = .ok k) ↔
      f.Populated ∧ ∀ q ∈ f.leaves, ∃ field v, q.Binds schema locale field v) ∧
    ∀ k, compile schema locale f = .ok k →
      k.parameters.length = f.leaves.length ∧
      (∀ (i : Nat) (q : Comparison), f.leaves[i]? = some q →
        ∃ field v, q.Binds schema locale field v ∧ k.parameters[i]? = some v) ∧
      writeFrom schema f 0 = some (k.text, f.leaves.length) ∧
      (slotsAfter schema locale f).values = k.parameters.map some := by
  refine ⟨exists_compile_iff, fun k h => ?_⟩
  obtain ⟨-, halike, hall⟩ := compile_eq_ok_iff.1 h
  refine ⟨hall.length_eq.symm, fun i q hq => exists_parameter h hq, ?_, (slotsAfter_of_compile h).1⟩
  have hwrite := writeFrom_of_alike halike
  rw [Nat.zero_add] at hwrite
  exact hwrite

/-- Equal leaves have a number each, and a parameter each. -/
example :
    let q : Comparison := ⟨"age", .gt, some "5", false⟩
    compile ⟨[⟨"Age", .integer, false⟩]⟩ .invariant (.group .or [.leaf q, .group .and [.leaf q]]) =
      .ok ⟨.group .or [.leaf (.compare "Age" .gt 0), .group .and [.leaf (.compare "Age" .gt 1)]],
        [.integer 5, .integer 5]⟩ := rfl

end Criteria
