import Criteria.Proofs.Predicate.Compilation

/-! The first fault decides.

A compilation ends at the first node, in document order, that is wrong by itself: an
empty group, a comparison with an undeclared field, or an operand that does not suit its
field. `Fails` says what is wrong with one node and knows nothing of the tree around it.
A search of the nodes in order (`firstFault`) finds what a compilation without slots
reports (`errorOf?_alone`), and the compilation of a filter reports the same, whatever
stands behind the node (`compile_first_fault`). -/
namespace Criteria

open Criteria.Tree

/-! ### Nodes in document order -/

namespace Tree

variable {α β : Type}

/-- What a node is when it is met: a leaf, or a group with members or without. -/
inductive Node (α : Type)
  | leaf (a : α)
  | group (empty : Bool)

mutual

/-- A group before its members, members from left to right. -/
def nodes : Tree α → List (Node α)
  | leaf a => [.leaf a]
  | group _ ts => .group ts.isEmpty :: nodesAll ts

def nodesAll : List (Tree α) → List (Node α)
  | [] => []
  | t :: ts => nodes t ++ nodesAll ts

end

mutual

theorem leaf_mem_nodes_iff {a : α} : ∀ {t : Tree α}, .leaf a ∈ t.nodes ↔ a ∈ t.leaves
  | leaf b => by simp [nodes, leaves]
  | group _ ts => by simp [nodes, leaves, leaf_mem_nodesAll_iff]

theorem leaf_mem_nodesAll_iff {a : α} : ∀ {ts : List (Tree α)},
    .leaf a ∈ nodesAll ts ↔ a ∈ leavesAll ts
  | [] => by simp [nodesAll, leavesAll]
  | t :: ts => by
    rw [nodesAll, leavesAll, List.mem_append, List.mem_append, leaf_mem_nodes_iff,
      leaf_mem_nodesAll_iff]

end

/-- What is wrong with a node, when `judge` says what is wrong with a leaf. -/
def Node.fault? (judge : α → Option Error) : Node α → Option Error
  | leaf a => judge a
  | group true => some (.malformed .noChildren)
  | group false => none

/-- The first node with a fault has its say. -/
def firstFault (judge : α → Option Error) (ns : List (Node α)) : Option Error :=
  ns.findSome? (Node.fault? judge)

theorem firstFault_append (judge : α → Option Error) (ns ms : List (Node α)) :
    firstFault judge (ns ++ ms) = (firstFault judge ns).or (firstFault judge ms) :=
  List.findSome?_append

theorem firstFault_leaf (judge : α → Option Error) (a : α) :
    firstFault judge (nodes (leaf a)) = judge a := by
  rw [nodes, firstFault, List.findSome?_singleton]
  rfl

theorem firstFault_empty (judge : α → Option Error) (l : Logic) :
    firstFault judge (nodes (group l [])) = some (.malformed .noChildren) := rfl

/-- A group with members has no fault of its own. -/
theorem firstFault_group (judge : α → Option Error) (l : Logic) (t : Tree α) (ts : List (Tree α)) :
    firstFault judge (nodes (group l (t :: ts))) = firstFault judge (nodesAll (t :: ts)) := rfl

variable {judge : α → Option Error} {judge' : β → Option Error}

mutual

/-- The same judgement from leaf to leaf gives the same first fault. -/
theorem Alike.firstFault_eq {t : Tree α} {u : Tree β} :
    Alike (fun a b => judge a = judge' b) t u →
      firstFault judge t.nodes = firstFault judge' u.nodes
  | .leaf h => by
    rw [firstFault_leaf, firstFault_leaf, h]
  | .group l .nil => by
    rw [firstFault_empty, firstFault_empty]
  | .group l (.cons h hs) => by
    rw [firstFault_group, firstFault_group]
    exact (AlikeAll.cons h hs).firstFault_eq

theorem AlikeAll.firstFault_eq {ts : List (Tree α)} {us : List (Tree β)} :
    AlikeAll (fun a b => judge a = judge' b) ts us →
      firstFault judge (nodesAll ts) = firstFault judge' (nodesAll us)
  | .nil => rfl
  | .cons h hs => by
    rw [nodesAll, nodesAll, firstFault_append, firstFault_append, h.firstFault_eq,
      hs.firstFault_eq]

end

end Tree

/-! ### Compiling without slots -/

namespace Compiler

variable (c : Compiler)

mutual

/-- What a compilation without slots reports is the first fault of the nodes in order. -/
theorem errorOf?_alone : ∀ t : Tree Occurrence,
    errorOf? (c.alone t) = firstFault (fun o => errorOf? (c.atom o)) t.nodes
  | .leaf o => by
    rw [alone, errorOf?_map, firstFault_leaf]
  | .group l [] => rfl
  | .group l (t :: ts) => by
    rw [alone, errorOf?_map, firstFault_group]
    exact errorOf?_aloneAll (t :: ts)

theorem errorOf?_aloneAll : ∀ ts : List (Tree Occurrence),
    errorOf? (c.aloneAll ts) = firstFault (fun o => errorOf? (c.atom o)) (nodesAll ts)
  | [] => rfl
  | t :: ts => by
    rw [nodesAll, firstFault_append, ← errorOf?_alone t, ← errorOf?_aloneAll ts, aloneAll]
    cases c.alone t with
    | error e => rfl
    | ok p => cases c.aloneAll ts <;> rfl

end

end Compiler

/-! ### What is wrong with a comparison -/

/-- Why a comparison cannot be bound. -/
def Comparison.fault? (schema : Schema) (locale : Locale) (q : Comparison) : Option Error :=
  match schema.resolve? q.field with
  | none => some (.unresolvedField q.field)
  | some field => errorOf? (coerce locale field q.operator q.caseSensitive q.operand)

/-- What is wrong with a node by itself. -/
inductive Fails (schema : Schema) (locale : Locale) : Node Comparison → Error → Prop
  | noChildren : Fails schema locale (.group true) (.malformed .noChildren)
  | unresolved {q : Comparison} : schema.resolve? q.field = none →
      Fails schema locale (.leaf q) (.unresolvedField q.field)
  | unsuitable {q : Comparison} {field : Field} {e : Error} :
      schema.resolve? q.field = some field →
      coerce locale field q.operator q.caseSensitive q.operand = .error e →
      Fails schema locale (.leaf q) e

variable {schema : Schema} {locale : Locale}

theorem fails_iff {n : Node Comparison} {e : Error} :
    Fails schema locale n e ↔ n.fault? (Comparison.fault? schema locale) = some e := by
  constructor
  · intro h
    cases h with
    | noChildren => rfl
    | unresolved hf => simp only [Node.fault?, Comparison.fault?, hf]
    | unsuitable hf he => simp only [Node.fault?, Comparison.fault?, hf, he, errorOf?]
  · intro h
    cases n with
    | group empty =>
      cases empty with
      | true =>
        cases h
        exact .noChildren
      | false => cases h
    | leaf q =>
      simp only [Node.fault?, Comparison.fault?] at h
      cases hf : schema.resolve? q.field with
      | none =>
        rw [hf] at h
        cases h
        exact .unresolved hf
      | some field =>
        rw [hf] at h
        exact .unsuitable hf (errorOf?_eq_some_iff.1 h)

/-- A coercion fails with the name and type of its field and the operand as it was sent. -/
theorem conversion_of_coerce {field : Field} {o : Operator} {cs : Bool} {operand : Option String}
    {e : Error} (h : coerce locale field o cs operand = .error e) :
    ∃ r, e = .conversion field.name operand field.type r := by
  rw [coerce] at h
  split at h
  · cases h
  split at h
  · cases h
  cases operand with
  | none =>
    simp only [Coercion.convert] at h
    split at h
    · cases h
    · cases h
      exact ⟨_, rfl⟩
  | some s =>
    simp only [Coercion.convert] at h
    split at h
    · cases h
    · obtain ⟨r, -, rfl⟩ := mapError_eq_error_iff.1 h
      exact ⟨r, rfl⟩

/-! ### The compilation of a filter -/

/-- The nodes before `x` have nothing wrong with them, and `x` fails with `e`. -/
structure FirstFails (schema : Schema) (locale : Locale) (before : List (Node Comparison))
    (x : Node Comparison) (e : Error) : Prop where
  sound : ∀ y ∈ before, ∀ e', ¬Fails schema locale y e'
  fails : Fails schema locale x e

theorem firstFault_eq_some_iff {ns : List (Node Comparison)} {e : Error} :
    firstFault (Comparison.fault? schema locale) ns = some e ↔
      ∃ before x after, ns = before ++ x :: after ∧ FirstFails schema locale before x e := by
  have hsound : ∀ y : Node Comparison, y.fault? (Comparison.fault? schema locale) = none ↔
      ∀ e', ¬Fails schema locale y e' := fun y => by
    simp only [fails_iff, Option.eq_none_iff_forall_ne_some, ne_eq]
  rw [firstFault, List.findSome?_eq_some_iff]
  constructor
  · intro h
    obtain ⟨before, x, after, rfl, hx, hbefore⟩ := h
    exact ⟨before, x, after, rfl, fun y hy => (hsound y).1 (hbefore y hy), fails_iff.2 hx⟩
  · intro h
    obtain ⟨before, x, after, rfl, hbefore, hx⟩ := h
    exact ⟨before, x, after, rfl, fails_iff.1 hx, fun y hy => (hsound y).2 (hbefore y hy)⟩

/-- Every leaf of a filter has its place, so its own compiler reports what is wrong with
the comparison and nothing else. -/
theorem errorOf?_atom_own {f : Filter} {o : Occurrence} (ho : o ∈ (Occurrence.own f).leaves) :
    errorOf? ((Compiler.ofFilter schema locale f).atom o) =
      Comparison.fault? schema locale o.comparison := by
  rw [Occurrence.own, leaves_map, List.mem_map] at ho
  obtain ⟨⟨n, q⟩, hq, rfl⟩ := ho
  have hn := (List.getElem?_eq_some_iff.1 (mem_leaves_numbered.1 hq)).1
  have hslot : (Numbering.all f.leaves.length).slot? n = some n := Numbering.slot?_all.2 ⟨rfl, hn⟩
  simp only [Compiler.atom, Compiler.ofFilter, Comparison.fault?, Option.bind_some, hslot]
  cases schema.resolve? q.field with
  | none => rfl
  | some field => exact errorOf?_map _ _

/-- The error of a compilation is that of its first faulty node. -/
theorem errorOf?_compile (schema : Schema) (locale : Locale) (f : Filter) :
    errorOf? (compile schema locale f) =
      firstFault (Comparison.fault? schema locale) f.nodes := by
  rw [compile_eq, errorOf?_map, Compiler.errorOf?_alone]
  have hself : Alike (fun o q => o.comparison = q) (Occurrence.own f) f :=
    alike_map_left_iff.2 (alike_numbered_self 0 f).flip
  refine (hself.imp fun o ho q hq => ?_).firstFault_eq
  rw [← hq]
  exact errorOf?_atom_own ho

theorem compile_eq_error_iff {f : Filter} {e : Error} : compile schema locale f = .error e ↔
    ∃ before x after, f.nodes = before ++ x :: after ∧ FirstFails schema locale before x e := by
  rw [← errorOf?_eq_some_iff, errorOf?_compile, firstFault_eq_some_iff]

/-- A compilation fails because some node does. -/
theorem fails_of_compile {f : Filter} {e : Error} (h : compile schema locale f = .error e) :
    ∃ x ∈ f.nodes, Fails schema locale x e := by
  obtain ⟨before, x, after, hnodes, hx⟩ := compile_eq_error_iff.1 h
  exact ⟨x, hnodes ▸ List.mem_append_cons_self, hx.fails⟩

/-- **The first fault in document order decides.** A filter fails to compile with `e` just
when there is a first node that is wrong by itself and `e` is what is wrong with it: that a
group has no children, that the field, as the client spells it, is not declared, or the
conversion error of the coercion, which names the declared field, its type and the operand
as sent. Nothing that comes after the node matters: a filter that begins with the same
nodes fails in the same way. -/
theorem compile_first_fault (schema : Schema) (locale : Locale) (f : Filter) (e : Error) :
    (compile schema locale f = .error e ↔
      ∃ before x after, f.nodes = before ++ x :: after ∧ FirstFails schema locale before x e) ∧
    (∀ before x, FirstFails schema locale before x e → before ++ [x] <+: f.nodes →
      compile schema locale f = .error e) ∧
    (∀ (q : Comparison) (field : Field), schema.resolve? q.field = some field →
      Fails schema locale (.leaf q) e →
        ∃ r, e = .conversion field.name q.operand field.type r) := by
  refine ⟨compile_eq_error_iff, fun before x hx hprefix => ?_, fun q field hf h => ?_⟩
  · obtain ⟨after, hafter⟩ := hprefix
    exact compile_eq_error_iff.2 ⟨before, x, after, by rw [← hafter, List.append_assoc]; rfl, hx⟩
  · cases h with
    | unresolved hn => cases hn.symm.trans hf
    | unsuitable hf' he =>
      cases hf.symm.trans hf'
      exact conversion_of_coerce he

/-- Of a value that does not suit, a field that is not declared and an empty group, the
value comes first, though the empty group stands higher in the tree. -/
example :
    let schema : Schema := ⟨[⟨"Age", .integer, false⟩]⟩
    let bad : Filter := .leaf ⟨"age", .eq, some " x", false⟩
    compile schema .invariant (.group .and [.group .or [bad, .leaf ⟨"size", .eq, none, false⟩],
        .group .or []]) =
      .error (.conversion "Age" (some " x") .integer (.locale (.integer .invalidDigit))) := rfl

end Criteria
