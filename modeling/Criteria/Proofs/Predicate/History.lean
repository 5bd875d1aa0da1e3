import Criteria.Proofs.Predicate.Faults

/-! A compiler has no history.

A compiler may be asked again and again, for any nodes of its filter, also after it has failed
half way through a group and filled the slots of what came before. `Reached` says which leaves a
compilation gets to: those before the first fault in document order. One compilation adds their
values to the slots and nothing else (`node_adds`), and answers as if there were no slots. So it
is with any number of them (`run_outcome`): the answers are those of a compiler that has just been
made, and a slot is filled just when some compilation got to its leaf (`run_independent`). -/
namespace Criteria

open Criteria.Tree

/-! ### How far a compilation gets -/

namespace Tree

variable {α : Type} {judge judge' : α → Option Error} {a : α} {t : Tree α}

/-- The leaf is sound, and so is every node before it. -/
def Reached (judge : α → Option Error) (ns : List (Node α)) (a : α) : Prop :=
  ∃ before after, ns = before ++ .leaf a :: after ∧ (∀ y ∈ before, y.fault? judge = none) ∧
    judge a = none

theorem not_reached_nil : ¬Reached judge [] a := by
  intro h
  obtain ⟨before, after, hns, -⟩ := h
  exact absurd hns (by simp)

theorem reached_leaf_iff {b : α} : Reached judge (nodes (leaf b)) a ↔ a = b ∧ judge b = none := by
  constructor
  · intro h
    obtain ⟨before, after, hns, -, ha⟩ := h
    rw [nodes, List.singleton_eq_append_iff] at hns
    rcases hns with ⟨-, hns⟩ | ⟨-, hns⟩
    · cases hns
      exact ⟨rfl, ha⟩
    · cases hns
  · intro h
    obtain ⟨rfl, ha⟩ := h
    exact ⟨[], [], rfl, nofun, ha⟩

/-- Behind a fault nothing is reached. -/
theorem reached_append_iff {ns ms : List (Node α)} : Reached judge (ns ++ ms) a ↔
    Reached judge ns a ∨ firstFault judge ns = none ∧ Reached judge ms a := by
  constructor
  · intro h
    obtain ⟨before, after, hns, hbefore, ha⟩ := h
    rcases List.append_eq_append_iff.1 hns with ⟨xs, rfl, hms⟩ | ⟨xs, rfl, hxs⟩
    · refine .inr ⟨List.findSome?_eq_none_iff.2 fun y hy => ?_, xs, after, hms, fun y hy => ?_, ha⟩
      · exact hbefore y (List.mem_append_left _ hy)
      · exact hbefore y (List.mem_append_right _ hy)
    · rcases List.cons_eq_append_iff.1 hxs with ⟨rfl, hms⟩ | ⟨ys, rfl, -⟩
      · refine .inr ⟨List.findSome?_eq_none_iff.2 fun y hy => ?_, [], after, hms, nofun, ha⟩
        rw [List.append_nil] at hy
        exact hbefore y hy
      · exact .inl ⟨before, ys, rfl, hbefore, ha⟩
  · intro h
    rcases h with ⟨before, after, rfl, hbefore, ha⟩ | ⟨hns, before, after, rfl, hbefore, ha⟩
    · exact ⟨before, after ++ ms, by simp, hbefore, ha⟩
    · refine ⟨ns ++ before, after, (List.append_assoc ..).symm, fun y hy => ?_, ha⟩
      rcases List.mem_append.1 hy with hy | hy
      · exact List.findSome?_eq_none_iff.1 hns y hy
      · exact hbefore y hy

/-- A group with members is gone through from its first member on. -/
theorem reached_group_iff {l : Logic} {u : Tree α} {us : List (Tree α)} :
    Reached judge (nodes (group l (u :: us))) a ↔ Reached judge (nodesAll (u :: us)) a := by
  rw [nodes, ← List.singleton_append, reached_append_iff]
  constructor
  · intro h
    rcases h with ⟨before, after, hns, -⟩ | ⟨-, h⟩
    · rcases List.singleton_eq_append_iff.1 hns with ⟨-, hns⟩ | ⟨-, hns⟩ <;> cases hns
    · exact h
  · exact fun h => .inr ⟨rfl, h⟩

theorem Reached.mem_leaves (h : Reached judge (nodes t) a) : a ∈ t.leaves := by
  obtain ⟨before, after, hns, -⟩ := h
  exact leaf_mem_nodes_iff.1 (hns ▸ List.mem_append_right _ List.mem_cons_self)

/-- Which leaves are reached depends on how the leaves of the tree are judged, and on nothing
else. -/
theorem Reached.congr (h : ∀ b ∈ t.leaves, judge b = judge' b)
    (hr : Reached judge (nodes t) a) : Reached judge' (nodes t) a := by
  obtain ⟨before, after, hns, hbefore, ha⟩ := hr
  refine ⟨before, after, hns, fun y hy => ?_, ?_⟩
  · rw [← hbefore y hy]
    cases y with
    | leaf b => exact (h b (leaf_mem_nodes_iff.1 (hns ▸ List.mem_append_left _ hy))).symm
    | group empty => cases empty <;> rfl
  · rw [← h a (leaf_mem_nodes_iff.1 (hns ▸ List.mem_append_right _ List.mem_cons_self)), ha]

end Tree

/-! ### What a compilation adds to the slots -/

namespace Compiler

variable {c : Compiler} {qs : List Comparison} {s t u : Slots}

/-- The slot `i` belongs to the leaf, and the leaf binds `v`. -/
structure Holds (c : Compiler) (o : Occurrence) (i : Nat) (v : Value) : Prop where
  slot : o.place.bind c.numbering.slot? = some i
  binds : ∃ field, o.comparison.Binds c.schema c.locale field v

/-- Nothing is in the slots of `t` but what was in those of `s` and the values of the leaves
of `P`. -/
def Adds (c : Compiler) (P : Occurrence → Prop) (s t : Slots) : Prop :=
  ∀ i v, t.get? i = some v ↔ s.get? i = some v ∨ ∃ o, P o ∧ c.Holds o i v

theorem Adds.refl {P : Occurrence → Prop} (h : ∀ o, P o → ∀ i v, ¬c.Holds o i v) (s : Slots) :
    c.Adds P s s := by
  intro i v
  refine ⟨.inl, fun hor => hor.resolve_right fun hex => ?_⟩
  obtain ⟨o, hP, ho⟩ := hex
  exact h o hP i v ho

/-- Two steps add what each of them adds. -/
theorem Adds.trans {P Q : Occurrence → Prop} (h : c.Adds P s t) (k : c.Adds Q t u) :
    c.Adds (fun o => P o ∨ Q o) s u := by
  intro i v
  rw [k i v, h i v, or_assoc]
  simp only [or_and_right, exists_or]

theorem Adds.congr {P Q : Occurrence → Prop} (h : c.Adds P s t) (hPQ : ∀ o, P o ↔ Q o) :
    c.Adds Q s t := by
  rwa [← funext fun o => propext (hPQ o)]

/-- What a compilation without slots says against a leaf. -/
def judge (c : Compiler) (o : Occurrence) : Option Error := errorOf? (c.atom o)

/-- A leaf fills no slot but its own, and that with its value. -/
theorem leaf_fills (h : c.Faithful qs s) {o : Occurrence} (ho : c.Owns qs o) {i : Nat} {v : Value}
    (hv : (c.leaf o s).2.get? i = some v) :
    s.get? i = some v ∨ c.judge o = none ∧ c.Holds o i v := by
  cases hf : c.schema.resolve? o.comparison.field with
  | none =>
    simp only [leaf, hf] at hv
    exact .inl hv
  | some field =>
    cases hp : o.place.bind c.numbering.slot? with
    | none =>
      simp only [leaf, hf, hp] at hv
      exact .inl hv
    | some j =>
      simp only [leaf, hf, hp] at hv
      cases hs : s.get? j with
      | some w =>
        rw [Slots.obtain_stored hs] at hv
        exact .inl hv
      | none =>
        cases hw : coerce c.locale field o.comparison.operator o.comparison.caseSensitive
            o.comparison.operand with
        | error e =>
          rw [hw, Slots.obtain_failed hs] at hv
          exact .inl hv
        | ok w =>
          have hj : j < s.size := h.size ▸ (List.getElem?_eq_some_iff.1 (ho j hp)).1
          rw [hw, Slots.obtain_computed hs, Slots.get?_fill s hj] at hv
          split at hv
          next hij =>
            cases hv
            have hb : o.comparison.Binds c.schema c.locale field v := ⟨hf, hw⟩
            have hatom := c.atom_eq_ok_iff.2 ⟨field, v, j, hb, hp, rfl⟩
            exact .inr ⟨by rw [judge, hatom]; rfl, hij ▸ hp, field, hb⟩
          next => exact .inl hv

/-- A leaf adds its own value, and only if it has no fault. -/
theorem leaf_adds (h : c.Faithful qs s) {o : Occurrence} (ho : c.Owns qs o) :
    c.Adds (fun p => p = o ∧ c.judge o = none) s (c.leaf o s).2 := by
  have hout := leaf_outcome h ho
  intro i v
  constructor
  · intro hv
    exact (leaf_fills h ho hv).imp_right fun hr => ⟨o, ⟨rfl, hr.1⟩, hr.2⟩
  · intro hor
    rcases hor with hv | ⟨p, ⟨rfl, -⟩, hi, field, hb⟩
    · exact hout.keeps.stored i v hv
    · -- the slot is filled, and by nothing but the value of its leaf
      have hatom := c.atom_eq_ok_iff.2 ⟨field, v, i, hb, hi, rfl⟩
      obtain ⟨w, hw⟩ := hout.filled _ hatom p (List.mem_singleton_self p) i hi
      obtain ⟨q, field', hq, hb'⟩ := hout.faithful.stored i w hw
      cases (ho i hi).symm.trans hq
      rw [hw, (hb.unique hb').2]

mutual

/-- A compilation adds the values of the leaves that it reaches. -/
theorem node_adds : ∀ (t : Tree Occurrence) (s : Slots), c.Faithful qs s →
    (∀ o ∈ t.leaves, c.Owns qs o) → c.Adds (Reached c.judge t.nodes) s (c.node t s).2
  | .leaf o, s, h, ho =>
    (leaf_adds h (ho o (List.mem_singleton_self o))).congr fun _ => reached_leaf_iff.symm
  | .group _ [], s, _, _ => by
    refine .refl (fun o hr i v hv => ?_) s
    obtain ⟨before, after, hns, -⟩ := hr
    rcases List.singleton_eq_append_iff.1 hns with ⟨-, hns⟩ | ⟨-, hns⟩ <;> cases hns
  | .group _ (t :: ts), s, h, ho =>
    (nodes_add (t :: ts) s h ho).congr fun _ => reached_group_iff.symm

theorem nodes_add : ∀ (ts : List (Tree Occurrence)) (s : Slots), c.Faithful qs s →
    (∀ o ∈ leavesAll ts, c.Owns qs o) →
      c.Adds (Reached c.judge (nodesAll ts)) s (c.nodes ts s).2
  | [], s, _, _ => .refl (fun _ hr => absurd hr not_reached_nil) s
  | t :: ts, s, h, ho => by
    have hown : ∀ o ∈ t.leaves, c.Owns qs o := fun o hm => ho o (List.mem_append_left _ hm)
    have hout := node_outcome t s h hown
    have ht := node_adds t s h hown
    have hts := nodes_add ts (c.node t s).2 hout.faithful fun o hm =>
      ho o (List.mem_append_right _ hm)
    have hfirst : firstFault c.judge t.nodes = errorOf? (c.node t s).1 := by
      rw [hout.result, errorOf?_alone]
      rfl
    rw [nodes]
    generalize c.node t s = r at ht hts hfirst ⊢
    obtain ⟨x, s₁⟩ := r
    cases x with
    | error e =>
      refine ht.congr fun o => ?_
      rw [nodesAll, reached_append_iff, hfirst]
      simp [errorOf?]
    | ok p =>
      have hboth : c.Adds (Reached c.judge (nodesAll (t :: ts))) s (c.nodes ts s₁).2 := by
        refine (ht.trans hts).congr fun o => ?_
        rw [nodesAll, reached_append_iff, hfirst]
        simp [errorOf?]
      dsimp only
      generalize c.nodes ts s₁ = r at hboth ⊢
      obtain ⟨y, s₂⟩ := r
      cases y <;> exact hboth

end

/-! ### Any number of compilations -/

/-- The answers to one request after the other, and the slots after all of them. -/
def run (c : Compiler) : List (Tree Occurrence) → Slots → List (Except Error Predicate) × Slots
  | [], s => ([], s)
  | t :: ts, s =>
    let (r, s) := c.node t s
    let (rs, s) := run c ts s
    (r :: rs, s)

/-- What any number of requests owes: the answers that there would be without slots, and slots
that hold nothing but the values of the leaves that have been reached. -/
structure RunOutcome (c : Compiler) (qs : List Comparison) (s : Slots)
    (calls : List (Tree Occurrence)) (r : List (Except Error Predicate) × Slots) : Prop where
  answers : r.1 = calls.map c.alone
  faithful : c.Faithful qs r.2
  adds : c.Adds (fun o => ∃ t ∈ calls, Reached c.judge t.nodes o) s r.2

/-- Every call of a run is answered as it would be alone, and the slots gain what the calls have
reached. -/
theorem run_outcome (calls : List (Tree Occurrence)) (h : c.Faithful qs s)
    (ho : ∀ t ∈ calls, ∀ o ∈ t.leaves, c.Owns qs o) :
    c.RunOutcome qs s calls (c.run calls s) := by
  induction calls generalizing s with
  | nil => exact ⟨rfl, h, .refl (by simp) s⟩
  | cons t ts ih =>
    have hown := ho t List.mem_cons_self
    have ht := node_outcome t s h hown
    have hts := ih ht.faithful fun u hu => ho u (List.mem_cons_of_mem t hu)
    refine ⟨?_, hts.faithful, ?_⟩
    · rw [List.map_cons, ← hts.answers, ← ht.result]
      rfl
    · refine ((node_adds t s h hown).trans hts.adds).congr fun o => ?_
      simp only [List.mem_cons, exists_eq_or_imp]

end Compiler

/-! ### The compiler of a filter -/

theorem Comparison.Binds.sound {schema : Schema} {locale : Locale} {q : Comparison} {field : Field}
    {v : Value} (h : q.Binds schema locale field v) : q.fault? schema locale = none := by
  simp only [fault?, h.resolved, h.coerced, errorOf?]

/-- What a compiler of `f` may be asked to compile: the node at a position in `f`, or a filter
that is no part of `f`, however alike the two may look. -/
inductive Asked (f : Filter) : Tree Occurrence → Prop
  | own (path : List Nat) {t : Tree Occurrence} :
    (Occurrence.own f).descend? path = some t → Asked f t
  | strange (g : Filter) : Asked f (Occurrence.strange g)

namespace Compiler

variable {schema : Schema} {locale : Locale} {f : Filter} {t : Tree Occurrence}

/-- A leaf that a compiler may meet is one of its own, in its own place, or has no place. -/
theorem place_of_asked (h : Asked f t) {o : Occurrence} (ho : o ∈ t.leaves) :
    o ∈ (Occurrence.own f).leaves ∨ o.place = none := by
  cases h with
  | own _ hpath => exact .inl (mem_leaves_of_descend? hpath ho)
  | strange g =>
    rw [Occurrence.strange, leaves_map, List.mem_map] at ho
    obtain ⟨q, -, rfl⟩ := ho
    exact .inr rfl

theorem mem_leaves_own {i : Nat} {q : Comparison} :
    ⟨some i, q⟩ ∈ (Occurrence.own f).leaves ↔ f.leaves[i]? = some q := by
  rw [Occurrence.own, leaves_map, List.mem_map, ← mem_leaves_numbered]
  constructor
  · intro h
    obtain ⟨p, hp, he⟩ := h
    cases he
    exact hp
  · exact fun h => ⟨(i, q), h, rfl⟩

theorem owns_of_asked (h : Asked f t) :
    ∀ o ∈ t.leaves, (ofFilter schema locale f).Owns f.leaves o := by
  intro o ho
  rcases place_of_asked h ho with hown | hplace
  · exact owns_own schema locale f hown
  · intro i hi
    rw [hplace] at hi
    cases hi

/-- For a leaf in its own place, what is reached depends on the comparisons alone. -/
theorem reached_judge_iff (h : Asked f t) {i : Nat} {q : Comparison} :
    Reached (ofFilter schema locale f).judge t.nodes ⟨some i, q⟩ ↔
      Reached (fun o => o.comparison.fault? schema locale) t.nodes ⟨some i, q⟩ := by
  cases h with
  | own _ hpath =>
    have hjudge : ∀ o ∈ t.leaves, (ofFilter schema locale f).judge o =
        o.comparison.fault? schema locale := fun o ho =>
      errorOf?_atom_own (mem_leaves_of_descend? hpath ho)
    exact ⟨fun hr => hr.congr hjudge, fun hr => hr.congr fun o ho => (hjudge o ho).symm⟩
  | strange g =>
    have hplace : ⟨some i, q⟩ ∉ (Occurrence.strange g).leaves := by
      rw [Occurrence.strange, leaves_map]
      simp
    exact ⟨fun hr => absurd hr.mem_leaves hplace, fun hr => absurd hr.mem_leaves hplace⟩

/-- Where no leaf has a place, nothing compiles and no slot changes. -/
theorem node_strange (c : Compiler) (s : Slots) : ∀ g : Filter,
    ∃ e, c.node (Occurrence.strange g) s = (.error e, s)
  | .leaf q => by
    cases hf : c.schema.resolve? q.field with
    | none => exact ⟨_, by simp only [Occurrence.strange, map, node, leaf, hf]; rfl⟩
    | some field =>
      exact ⟨_, by simp only [Occurrence.strange, map, node, leaf, hf, Option.bind_none]; rfl⟩
  | .group _ [] => ⟨_, rfl⟩
  | .group l (t :: ts) => by
    obtain ⟨e, he⟩ := node_strange c s t
    rw [Occurrence.strange] at he
    exact ⟨e, by simp only [Occurrence.strange, map, mapAll, node, nodes, he]; rfl⟩

/-- A slot is filled just when its leaf has been reached and can be bound. -/
theorem get?_run_iff {calls : List (Tree Occurrence)} (hcalls : ∀ t ∈ calls, Asked f t) {i : Nat}
    {v : Value} :
    ((ofFilter schema locale f).run calls (ofFilter schema locale f).start).2.get? i = some v ↔
      ∃ q field, f.leaves[i]? = some q ∧ q.Binds schema locale field v ∧
        ∃ t ∈ calls, Reached (fun o => o.comparison.fault? schema locale) t.nodes ⟨some i, q⟩ := by
  have hrun := run_outcome calls (faithful_start schema locale f) fun t ht =>
    owns_of_asked (hcalls t ht)
  have hempty : ¬(ofFilter schema locale f).start.get? i = some v := by
    rw [start, Slots.get?_ofSize]
    exact (Option.some_ne_none v).symm
  rw [hrun.adds i v, or_iff_right hempty]
  constructor
  · intro h
    obtain ⟨o, ⟨t, ht, hr⟩, hi, field, hb⟩ := h
    rcases place_of_asked (hcalls t ht) hr.mem_leaves with hown | hplace
    · obtain ⟨place, q⟩ := o
      cases place with
      | none => cases hi
      | some n =>
        obtain ⟨rfl, -⟩ := Numbering.slot?_all.1 hi
        exact ⟨q, field, mem_leaves_own.1 hown, hb, t, ht, (reached_judge_iff (hcalls t ht)).1 hr⟩
    · rw [hplace] at hi
      cases hi
  · intro h
    obtain ⟨q, field, hq, hb, t, ht, hr⟩ := h
    have hi := (List.getElem?_eq_some_iff.1 hq).1
    exact ⟨⟨some i, q⟩, ⟨t, ht, (reached_judge_iff (hcalls t ht)).2 hr⟩,
      Numbering.slot?_all.2 ⟨rfl, hi⟩, field, hb⟩

/-- **A compiler has no history.** Whatever a compiler has been asked before, and however that
ended, it answers as one that has just been made. After any requests, slot `i` is filled just
when one of them got to leaf `i` and could bind it, and then with the value of leaf `i`. A leaf
is known by its position in the filter: one from elsewhere is refused, if its field is declared
at all, and no filter from elsewhere compiles or changes a slot. -/
theorem run_independent (schema : Schema) (locale : Locale) (f : Filter)
    {calls : List (Tree Occurrence)} (hcalls : ∀ t ∈ calls, Asked f t) :
    let c := ofFilter schema locale f
    (c.run calls c.start).1 = calls.map (fun t => (c.node t c.start).1) ∧
    (c.run calls c.start).2.size = f.leaves.length ∧
    (∀ i v, (c.run calls c.start).2.get? i = some v ↔
      ∃ q field, f.leaves[i]? = some q ∧ q.Binds schema locale field v ∧
        ∃ t ∈ calls, Reached (fun o => o.comparison.fault? schema locale) t.nodes ⟨some i, q⟩) ∧
    (∀ (q : Comparison) (field : Field), schema.resolve? q.field = some field → ∀ s,
      c.node (.leaf ⟨none, q⟩) s = (.error (.malformed .stranger), s)) ∧
    ∀ g s, ∃ e, c.node (Occurrence.strange g) s = (.error e, s) := by
  intro c
  have hrun := run_outcome calls (faithful_start schema locale f) fun t ht =>
    owns_of_asked (hcalls t ht)
  refine ⟨?_, hrun.faithful.size, fun i v => get?_run_iff hcalls, fun q field hf s => ?_,
    fun g s => c.node_strange s g⟩
  · rw [hrun.answers]
    refine List.map_congr_left fun t ht => ?_
    exact (node_outcome t _ (faithful_start schema locale f) (owns_of_asked (hcalls t ht))).result.symm
  · have hf : c.schema.resolve? q.field = some field := hf
    simp only [node, leaf, hf, Option.bind_none]
    rfl

/-- Of four leaves, three of them equal, a group fails at the third when the second is filled
already, and a copy of the leaf is refused. The leaves that nobody got to stay without a value. -/
theorem run_independent_failing :
    let schema : Schema := ⟨[⟨"Age", .integer, false⟩]⟩
    let q : Comparison := ⟨"age", .gt, some "5", false⟩
    let bad : Comparison := ⟨"age", .gt, some "x", false⟩
    let f : Filter := .group .or [.leaf q, .group .and [.leaf q, .leaf bad, .leaf q]]
    let calls : List (Tree Occurrence) :=
      [.group .and [.leaf ⟨some 1, q⟩, .leaf ⟨some 2, bad⟩, .leaf ⟨some 3, q⟩],
        Occurrence.strange (.leaf q)]
    let c := ofFilter schema .invariant f
    (c.run calls c.start).1 = calls.map (fun t => (c.node t c.start).1) ∧
      (c.run calls c.start).2.get? 1 = some (.integer 5) ∧
      ∀ v, (c.run calls c.start).2.get? 0 ≠ some v := by
  intro schema q bad f calls c
  have hcalls : ∀ t ∈ calls, Asked f t := by
    intro t ht
    rcases List.mem_pair.1 ht with rfl | rfl
    · exact .own [1] rfl
    · exact .strange _
  obtain ⟨hanswers, -, hslots, -⟩ := run_independent schema .invariant f hcalls
  refine ⟨hanswers, (hslots 1 _).2 ?_, fun v hv => ?_⟩
  · have hb : q.Binds schema .invariant ⟨"Age", .integer, false⟩ (.integer 5) :=
      ⟨by decide +kernel, toOption_eq_some_iff.1 (by decide +kernel)⟩
    refine ⟨q, _, rfl, hb, _, List.mem_cons_self, [.group false],
      [.leaf ⟨some 2, bad⟩, .leaf ⟨some 3, q⟩], rfl, fun y hy => ?_, hb.sound⟩
    cases List.mem_singleton.1 hy
    rfl
  · obtain ⟨r, -, -, -, t, ht, hr⟩ := (hslots 0 v).1 hv
    have hleaf := hr.mem_leaves
    rcases List.mem_pair.1 ht with rfl | rfl <;>
      simp [Occurrence.strange, map, leaves, leavesAll] at hleaf

end Compiler
end Criteria
