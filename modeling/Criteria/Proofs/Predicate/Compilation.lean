import Criteria.Predicate.Compiler
import Criteria.Proofs.Results
import Criteria.Proofs.Tree

/-! What a compilation gives.

A compiler fills slots as it goes, and a slot that is filled already is not computed
again. `alone` compiles without slots. The two agree as long as a slot holds nothing but
the value of its own leaf (`Faithful`), which every step preserves (`leaf_outcome`,
`node_outcome`). For a filter and its own compiler this says what comes out, and when:
`compile_eq_ok_iff` ties the predicate to the filter leaf by leaf, and the parameters to
its leaves in order. -/
namespace Criteria

open Criteria.Tree

/-! ### Slots -/

namespace Slots

variable {ε : Type} {s t u : Slots}

/-- Nothing that is stored is lost or replaced. -/
structure Keeps (s t : Slots) : Prop where
  size : t.size = s.size
  stored : ∀ i v, s.get? i = some v → t.get? i = some v

theorem Keeps.refl (s : Slots) : s.Keeps s := ⟨rfl, fun _ _ h => h⟩

theorem Keeps.trans (h : s.Keeps t) (k : t.Keeps u) : s.Keeps u :=
  ⟨k.size.trans h.size, fun i v hv => k.stored i v (h.stored i v hv)⟩

theorem keeps_fill {i : Nat} (hi : i < s.size) (he : s.get? i = none) (v : Value) :
    s.Keeps (s.fill i v) := by
  refine ⟨size_fill s i v, fun j w hw => ?_⟩
  rw [get?_fill s hi]
  by_cases hij : i = j
  · subst hij
    rw [he] at hw
    cases hw
  · rw [if_neg hij]
    exact hw

theorem obtain_stored {i : Nat} {v : Value} (h : s.get? i = some v)
    (compute : Unit → Except ε Value) : s.obtain i compute = (.ok v, s) := by
  simp only [obtain, h]

theorem obtain_computed {i : Nat} (h : s.get? i = none) (v : Value) :
    s.obtain i (fun _ => (.ok v : Except ε Value)) = (.ok v, s.fill i v) := by
  simp only [obtain, h]

theorem obtain_failed {i : Nat} (h : s.get? i = none) (e : ε) :
    s.obtain i (fun _ => .error e) = (.error e, s) := by
  simp only [obtain, h]

end Slots

/-! ### Places -/

/-- A tree that is numbered from zero has a slot for every number, and that slot. -/
theorem Numbering.slot?_all {n p i : Nat} : (all n).slot? p = some i ↔ p = i ∧ i < n := by
  have hmem : ∀ q : Nat × Nat, q ∈ (List.range n).zipIdx.reverse ↔ q.1 = q.2 ∧ q.2 < n := by
    intro q
    obtain ⟨a, b⟩ := q
    rw [List.mem_reverse, List.mk_mem_zipIdx_iff_getElem?, List.getElem?_eq_some_iff]
    simp only [List.getElem_range, List.length_range, exists_prop]
    omega
  simp only [slot?, all, Option.map_eq_some_iff]
  constructor
  · intro h
    obtain ⟨q, hq, rfl⟩ := h
    obtain ⟨he, hlt⟩ := (hmem q).1 (List.mem_of_find?_eq_some hq)
    have hp : q.1 = p := by simpa using List.find?_some hq
    exact ⟨hp.symm.trans he, hlt⟩
  · intro h
    obtain ⟨rfl, hlt⟩ := h
    have hsome : ((List.range n).zipIdx.reverse.find? (·.1 == p)).isSome := by
      rw [List.find?_isSome]
      exact ⟨(p, p), (hmem _).2 ⟨rfl, hlt⟩, beq_self_eq_true p⟩
    obtain ⟨q, hq⟩ := Option.isSome_iff_exists.1 hsome
    have hp : q.1 = p := by simpa using List.find?_some hq
    exact ⟨q, hq, ((hmem q).1 (List.mem_of_find?_eq_some hq)).1.symm.trans hp⟩

/-! ### Compiling without slots -/

/-- The comparison names a declared field, and its operand suits it as `v`. -/
structure Comparison.Binds (schema : Schema) (locale : Locale) (q : Comparison) (field : Field)
    (v : Value) : Prop where
  resolved : schema.resolve? q.field = some field
  coerced : coerce locale field q.operator q.caseSensitive q.operand = .ok v

/-- A comparison binds one value to one field. -/
theorem Comparison.Binds.unique {schema : Schema} {locale : Locale} {q : Comparison}
    {field field' : Field} {v v' : Value} (h : q.Binds schema locale field v)
    (h' : q.Binds schema locale field' v') : field = field' ∧ v = v' := by
  have hf : field = field' := Option.some.inj (h.resolved.symm.trans h'.resolved)
  subst hf
  exact ⟨rfl, Except.ok.inj (h.coerced.symm.trans h'.coerced)⟩

namespace Compiler

variable (c : Compiler)

/-- A leaf without slots: always computed, never stored. -/
def atom (o : Occurrence) : Except Error Atom :=
  match c.schema.resolve? o.comparison.field with
  | none => .error (.unresolvedField o.comparison.field)
  | some field => match o.place.bind c.numbering.slot? with
    | none => .error (.malformed .stranger)
    | some i =>
      (coerce c.locale field o.comparison.operator o.comparison.caseSensitive
        o.comparison.operand).map fun _ =>
          .of field o.comparison.operator o.comparison.caseSensitive i

mutual

/-- A node without slots. -/
def alone : Tree Occurrence → Except Error Predicate
  | .leaf o => (c.atom o).map .leaf
  | .group _ [] => .error (.malformed .noChildren)
  | .group l (t :: ts) => (aloneAll (t :: ts)).map (.group l)

def aloneAll : List (Tree Occurrence) → Except Error (List Predicate)
  | [] => .ok []
  | t :: ts => match alone t with
    | .error e => .error e
    | .ok p => match aloneAll ts with
      | .error e => .error e
      | .ok ps => .ok (p :: ps)

end

/-- A leaf has an atom just when it can be bound and has a slot. -/
theorem atom_eq_ok_iff {o : Occurrence} {a : Atom} : c.atom o = .ok a ↔
    ∃ field v i, o.comparison.Binds c.schema c.locale field v ∧
      o.place.bind c.numbering.slot? = some i ∧
      a = .of field o.comparison.operator o.comparison.caseSensitive i := by
  constructor
  · intro h
    unfold atom at h
    split at h
    · cases h
    next field hfield =>
      split at h
      · cases h
      next i hi =>
        obtain ⟨v, hv, rfl⟩ := map_eq_ok_iff.1 h
        exact ⟨field, v, i, ⟨hfield, hv⟩, hi, rfl⟩
  · intro h
    obtain ⟨field, v, i, hb, hi, rfl⟩ := h
    simp only [atom, hb.resolved, hi, hb.coerced, Except.map]

mutual

/-- A node compiles just when no group is empty and every leaf compiles, and then to the
tree of its atoms. -/
theorem alone_eq_ok_iff : ∀ {t : Tree Occurrence} {p : Predicate},
    c.alone t = .ok p ↔ t.Populated ∧ Alike (fun o a => c.atom o = .ok a) t p
  | .leaf o, p => by
    rw [alone, map_eq_ok_iff]
    constructor
    · intro h
      obtain ⟨a, ha, rfl⟩ := h
      exact ⟨trivial, .leaf ha⟩
    · intro h
      obtain ⟨-, h⟩ := h
      cases h with
      | leaf ha => exact ⟨_, ha, rfl⟩
  | .group l [], p => by
    refine ⟨nofun, fun h => ?_⟩
    exact absurd rfl h.1.1
  | .group l (t :: ts), p => by
    rw [alone, map_eq_ok_iff]
    constructor
    · intro h
      obtain ⟨ps, hps, rfl⟩ := h
      obtain ⟨hpop, halike⟩ := aloneAll_eq_ok_iff.1 hps
      exact ⟨⟨List.cons_ne_nil t ts, hpop⟩, .group l halike⟩
    · intro h
      obtain ⟨⟨-, hpop⟩, h⟩ := h
      cases h with
      | group l halike => exact ⟨_, aloneAll_eq_ok_iff.2 ⟨hpop, halike⟩, rfl⟩

theorem aloneAll_eq_ok_iff : ∀ {ts : List (Tree Occurrence)} {ps : List Predicate},
    c.aloneAll ts = .ok ps ↔ PopulatedAll ts ∧ AlikeAll (fun o a => c.atom o = .ok a) ts ps
  | [], ps => by
    constructor
    · intro h
      cases h
      exact ⟨trivial, .nil⟩
    · intro h
      obtain ⟨-, h⟩ := h
      cases h
      rfl
  | t :: ts, ps => by
    constructor
    · intro h
      unfold aloneAll at h
      split at h
      · cases h
      next p hp =>
        split at h
        · cases h
        next qs hqs =>
          cases h
          obtain ⟨hpt, hat⟩ := alone_eq_ok_iff.1 hp
          obtain ⟨hpts, hats⟩ := aloneAll_eq_ok_iff.1 hqs
          exact ⟨⟨hpt, hpts⟩, .cons hat hats⟩
    · intro h
      obtain ⟨⟨hpt, hpts⟩, h⟩ := h
      cases h with
      | cons hat hats =>
        have hp := alone_eq_ok_iff.2 ⟨hpt, hat⟩
        have hqs := aloneAll_eq_ok_iff.2 ⟨hpts, hats⟩
        simp only [aloneAll, hp, hqs]

end

/-! ### Compiling with slots -/

/-- Every stored value is that of the leaf that owns the slot. -/
structure Faithful (qs : List Comparison) (s : Slots) : Prop where
  size : s.size = qs.length
  stored : ∀ i v, s.get? i = some v →
    ∃ q field, qs[i]? = some q ∧ q.Binds c.schema c.locale field v

/-- The slot of the leaf, if it has one, is that of its own comparison. -/
def Owns (qs : List Comparison) (o : Occurrence) : Prop :=
  ∀ i, o.place.bind c.numbering.slot? = some i → qs[i]? = some o.comparison

/-- What a step from `s` has to give that is to give `want` for the leaves `os`. -/
structure Outcome {β : Type} (qs : List Comparison) (s : Slots) (os : List Occurrence)
    (want : Except Error β) (r : Except Error β × Slots) : Prop where
  result : r.1 = want
  faithful : c.Faithful qs r.2
  keeps : s.Keeps r.2
  filled : ∀ p, want = .ok p → ∀ o ∈ os, ∀ i, o.place.bind c.numbering.slot? = some i →
    ∃ v, r.2.get? i = some v

variable {c} {qs : List Comparison} {s : Slots}

/-- An error that leaves the slots alone. -/
theorem Faithful.failed {β : Type} (h : c.Faithful qs s) (os : List Occurrence) (e : Error) :
    c.Outcome qs s os (.error e : Except Error β) (.error e, s) :=
  ⟨rfl, h, .refl s, nofun⟩

theorem Faithful.fill (h : c.Faithful qs s) {i : Nat} {q : Comparison} (hq : qs[i]? = some q)
    {field : Field} {v : Value} (hb : q.Binds c.schema c.locale field v) :
    c.Faithful qs (s.fill i v) := by
  have hi : i < s.size := h.size ▸ (List.getElem?_eq_some_iff.1 hq).1
  refine ⟨(Slots.size_fill s i v).trans h.size, fun j w hw => ?_⟩
  rw [Slots.get?_fill s hi] at hw
  by_cases hij : i = j
  · rw [if_pos hij] at hw
    subst hij
    cases hw
    exact ⟨q, field, hq, hb⟩
  · rw [if_neg hij] at hw
    exact h.stored j w hw

/-- A leaf gives what it gives without slots, whether its slot is filled or not. -/
theorem leaf_outcome (h : c.Faithful qs s) {o : Occurrence} (ho : c.Owns qs o) :
    c.Outcome qs s [o] (c.atom o) (c.leaf o s) := by
  cases hf : c.schema.resolve? o.comparison.field with
  | none =>
    simp only [atom, leaf, hf]
    exact h.failed _ _
  | some field =>
    cases hp : o.place.bind c.numbering.slot? with
    | none =>
      simp only [atom, leaf, hf, hp]
      exact h.failed _ _
    | some i =>
      simp only [atom, leaf, hf, hp]
      have hq := ho i hp
      cases hs : s.get? i with
      | some v =>
        -- an earlier compilation of this leaf has left the value that it would compute now
        obtain ⟨q, field', hq', hb⟩ := h.stored i v hs
        cases hq.symm.trans hq'
        cases hf.symm.trans hb.resolved
        rw [Slots.obtain_stored hs, hb.coerced]
        refine ⟨rfl, h, .refl s, fun p _ o' ho' j hj => ?_⟩
        cases List.mem_singleton.1 ho'
        cases hp.symm.trans hj
        exact ⟨v, hs⟩
      | none =>
        cases hv : coerce c.locale field o.comparison.operator o.comparison.caseSensitive
            o.comparison.operand with
        | error e =>
          rw [Slots.obtain_failed hs]
          exact h.failed _ _
        | ok v =>
          rw [Slots.obtain_computed hs]
          have hi : i < s.size := h.size ▸ (List.getElem?_eq_some_iff.1 hq).1
          refine ⟨rfl, h.fill hq ⟨hf, hv⟩, Slots.keeps_fill hi hs v, fun p _ o' ho' j hj => ?_⟩
          cases List.mem_singleton.1 ho'
          cases hp.symm.trans hj
          exact ⟨v, by rw [Slots.get?_fill s hi, if_pos rfl]⟩

mutual

/-- A node does in the slots what it would do alone, and keeps what is there. -/
theorem node_outcome : ∀ (t : Tree Occurrence) (s : Slots), c.Faithful qs s →
    (∀ o ∈ t.leaves, c.Owns qs o) → c.Outcome qs s t.leaves (c.alone t) (c.node t s)
  | .leaf o, s, h, ho => by
    have hl := leaf_outcome h (ho o (List.mem_singleton_self o))
    refine ⟨congrArg (Except.map Tree.leaf) hl.result, hl.faithful, hl.keeps, fun p hp => ?_⟩
    obtain ⟨a, ha, -⟩ := map_eq_ok_iff.1 hp
    exact hl.filled a ha
  | .group _ [], s, h, _ => h.failed _ _
  | .group l (t :: ts), s, h, ho => by
    have hn := nodes_outcome (t :: ts) s h ho
    refine ⟨congrArg (Except.map (Tree.group l)) hn.result, hn.faithful, hn.keeps, fun p hp => ?_⟩
    obtain ⟨ps, hps, -⟩ := map_eq_ok_iff.1 hp
    exact hn.filled ps hps

theorem nodes_outcome : ∀ (ts : List (Tree Occurrence)) (s : Slots), c.Faithful qs s →
    (∀ o ∈ leavesAll ts, c.Owns qs o) →
      c.Outcome qs s (leavesAll ts) (c.aloneAll ts) (c.nodes ts s)
  | [], s, h, _ => ⟨rfl, h, .refl s, nofun⟩
  | t :: ts, s, h, ho => by
    have ht := node_outcome t s h fun o hm => ho o (List.mem_append_left _ hm)
    have hts := nodes_outcome ts (c.node t s).2 ht.faithful fun o hm =>
      ho o (List.mem_append_right _ hm)
    rw [aloneAll, nodes]
    generalize c.node t s = r at ht hts ⊢
    obtain ⟨x, s₁⟩ := r
    cases ht.result
    cases hx : c.alone t with
    | error e => exact ⟨rfl, ht.faithful, ht.keeps, nofun⟩
    | ok p =>
      dsimp only at hts ⊢
      generalize c.nodes ts s₁ = r at hts ⊢
      obtain ⟨y, s₂⟩ := r
      cases hts.result
      cases hy : c.aloneAll ts with
      | error e => exact ⟨rfl, hts.faithful, ht.keeps.trans hts.keeps, nofun⟩
      | ok ps =>
        refine ⟨rfl, hts.faithful, ht.keeps.trans hts.keeps, fun _ _ o hm i hi => ?_⟩
        rcases List.mem_append.1 hm with hm | hm
        · -- the rest of the list keeps what the first node has filled
          obtain ⟨v, hv⟩ := ht.filled p hx o hm i hi
          exact ⟨v, hts.keeps.stored i v hv⟩
        · exact hts.filled ps hy o hm i hi

end

end Compiler

/-! ### A filter and its own compiler -/

/-- The comparison with its number compiles to the atom. -/
def Compiles (schema : Schema) (locale : Locale) (q : Nat × Comparison) (a : Atom) : Prop :=
  ∃ field v, q.2.Binds schema locale field v ∧ a = .of field q.2.operator q.2.caseSensitive q.1

theorem Compiles.eq_of_resolved {schema : Schema} {locale : Locale} {n : Nat} {q : Comparison}
    {a : Atom} (h : Compiles schema locale (n, q) a) {field : Field}
    (hfield : schema.resolve? q.field = some field) :
    a = .of field q.operator q.caseSensitive n := by
  obtain ⟨field', v, hb, rfl⟩ := h
  cases hfield.symm.trans hb.resolved
  rfl

namespace Compiler

variable (schema : Schema) (locale : Locale) (f : Filter)

/-- The compiler of `f`: its leaves, each with a slot. -/
def ofFilter : Compiler := ⟨schema, locale, .all f.leaves.length⟩

/-- What the compilation of `f` leaves in the slots. -/
def slotsAfter : Slots :=
  ((ofFilter schema locale f).node (Occurrence.own f) (ofFilter schema locale f).start).2

theorem owns_own {o : Occurrence} (ho : o ∈ (Occurrence.own f).leaves) :
    (ofFilter schema locale f).Owns f.leaves o := by
  rw [Occurrence.own, leaves_map, List.mem_map] at ho
  obtain ⟨⟨n, q⟩, hq, rfl⟩ := ho
  intro i hi
  obtain ⟨rfl, -⟩ := Numbering.slot?_all.1 hi
  exact mem_leaves_numbered.1 hq

theorem faithful_start : (ofFilter schema locale f).Faithful f.leaves
    (ofFilter schema locale f).start := by
  have hn : (Numbering.all f.leaves.length).slots = f.leaves.length := List.length_range
  refine ⟨(Slots.size_ofSize _).trans hn, fun i v h => ?_⟩
  rw [start, Slots.get?_ofSize] at h
  cases h

theorem own_outcome : (ofFilter schema locale f).Outcome f.leaves
    (ofFilter schema locale f).start (Occurrence.own f).leaves
    ((ofFilter schema locale f).alone (Occurrence.own f))
    ((ofFilter schema locale f).node (Occurrence.own f) (ofFilter schema locale f).start) :=
  node_outcome _ _ (faithful_start schema locale f) fun _ ho => owns_own schema locale f ho

theorem alike_own_iff {p : Predicate} :
    Alike (fun o a => (ofFilter schema locale f).atom o = .ok a) (Occurrence.own f) p ↔
      Alike (Compiles schema locale) f.numbered p := by
  have hatom : ∀ q ∈ f.numbered.leaves, ∀ a,
      (ofFilter schema locale f).atom ⟨some q.1, q.2⟩ = .ok a ↔ Compiles schema locale q a := by
    intro p hq a
    obtain ⟨n, q⟩ := p
    rw [atom_eq_ok_iff]
    constructor
    · intro h
      obtain ⟨field, v, i, hb, hi, rfl⟩ := h
      obtain ⟨rfl, -⟩ := Numbering.slot?_all.1 hi
      exact ⟨field, v, hb, rfl⟩
    · intro h
      obtain ⟨field, v, hb, rfl⟩ := h
      have hn := (List.getElem?_eq_some_iff.1 (mem_leaves_numbered.1 hq)).1
      exact ⟨field, v, n, hb, Numbering.slot?_all.2 ⟨rfl, hn⟩, rfl⟩
  rw [Occurrence.own, alike_map_left_iff]
  exact ⟨fun h => h.imp fun q hq a => (hatom q hq a).1, fun h => h.imp fun q hq a => (hatom q hq a).2⟩

/-- Slots that are all filled are a list of values. -/
theorem exists_values {α : Type} {P : α → Value → Prop} (qs : List α) (vs : List (Option Value))
    (hlen : vs.length = qs.length)
    (h : ∀ (i : Nat) q, qs[i]? = some q → ∃ v, vs[i]?.join = some v ∧ P q v) :
    ∃ ws, vs = ws.map some ∧ List.Forall₂ P qs ws := by
  induction qs generalizing vs with
  | nil => exact ⟨[], List.length_eq_zero_iff.1 hlen, .nil⟩
  | cons q qs ih =>
    obtain ⟨v, vs, rfl⟩ := List.exists_cons_of_length_eq_add_one hlen
    obtain ⟨w, hw, hq⟩ := h 0 q rfl
    obtain ⟨ws, rfl, hqs⟩ := ih vs (Nat.succ.inj hlen) fun i q' hi => h (i + 1) q' hi
    have hv : v = some w := hw
    exact ⟨w :: ws, by rw [hv, List.map_cons], .cons hq hqs⟩

/-- After a success every slot holds the value of its leaf. -/
theorem slotsAfter_values {p : Predicate}
    (h : (ofFilter schema locale f).alone (Occurrence.own f) = .ok p) :
    ∃ vs, (slotsAfter schema locale f).values = vs.map some ∧
      List.Forall₂ (fun q v => ∃ field, q.Binds schema locale field v) f.leaves vs := by
  have ho := own_outcome schema locale f
  refine exists_values f.leaves _ ho.faithful.size fun i q hq => ?_
  have hmem : (⟨some i, q⟩ : Occurrence) ∈ (Occurrence.own f).leaves := by
    rw [Occurrence.own, leaves_map, List.mem_map]
    exact ⟨(i, q), mem_leaves_numbered.2 hq, rfl⟩
  have hi := (List.getElem?_eq_some_iff.1 hq).1
  obtain ⟨v, hv⟩ := ho.filled p h _ hmem i (Numbering.slot?_all.2 ⟨rfl, hi⟩)
  obtain ⟨q', field, hq', hb⟩ := ho.faithful.stored i v hv
  cases hq.symm.trans hq'
  exact ⟨v, hv, field, hb⟩

end Compiler

section Compile

open Compiler

variable {schema : Schema} {locale : Locale} {f : Filter} {k : Compiled}

theorem populated_own : (Occurrence.own f).Populated ↔ f.Populated :=
  (alike_map _ f.numbered).populated.symm.trans (alike_numbered_self 0 f).populated.symm

/-- A compilation is what its tree is alone, with the slots after it. -/
theorem compile_eq : compile schema locale f =
    ((ofFilter schema locale f).alone (Occurrence.own f)).map
      fun p => ⟨p, (slotsAfter schema locale f).bound⟩ := by
  rw [← (own_outcome schema locale f).result]
  rfl

/-- The slots of a filter that compiles hold its parameters, and none is empty. -/
theorem slotsAfter_of_compile (h : compile schema locale f = .ok k) :
    (slotsAfter schema locale f).values = k.parameters.map some ∧
      List.Forall₂ (fun q v => ∃ field, q.Binds schema locale field v) f.leaves k.parameters := by
  rw [compile_eq, map_eq_ok_iff] at h
  obtain ⟨p, hp, rfl⟩ := h
  obtain ⟨vs, hvs, hall⟩ := slotsAfter_values schema locale f hp
  have hbound : (slotsAfter schema locale f).bound = vs := by
    simp only [Slots.bound, hvs, List.map_map, Function.comp_def, Option.getD_some, List.map_id']
  exact ⟨hbound.symm ▸ hvs, hbound.symm ▸ hall⟩

/-- **A filter compiles to a predicate and parameters just when** it has no empty group,
the predicate is the filter with each numbered leaf replaced by its atom, and the
parameters are what the leaves bind, in order. -/
theorem compile_eq_ok_iff : compile schema locale f = .ok k ↔
    f.Populated ∧ Alike (Compiles schema locale) f.numbered k.predicate ∧
      List.Forall₂ (fun q v => ∃ field, q.Binds schema locale field v) f.leaves k.parameters := by
  have hpredicate : ∀ p, (ofFilter schema locale f).alone (Occurrence.own f) = .ok p ↔
      f.Populated ∧ Alike (Compiles schema locale) f.numbered p := by
    intro p
    rw [alone_eq_ok_iff, populated_own, alike_own_iff]
  constructor
  · intro h
    have hall := (slotsAfter_of_compile h).2
    rw [compile_eq, map_eq_ok_iff] at h
    obtain ⟨p, hp, rfl⟩ := h
    exact ⟨((hpredicate p).1 hp).1, ((hpredicate p).1 hp).2, hall⟩
  · intro h
    obtain ⟨hpop, halike, hall⟩ := h
    have h : compile schema locale f = .ok ⟨k.predicate, (slotsAfter schema locale f).bound⟩ := by
      rw [compile_eq, (hpredicate _).2 ⟨hpop, halike⟩]
      rfl
    have hunique : Relator.RightUnique fun (q : Comparison) (v : Value) =>
        ∃ field, q.Binds schema locale field v := by
      intro q v w hqv hqw
      obtain ⟨field, hv⟩ := hqv
      obtain ⟨field', hw⟩ := hqw
      exact (hv.unique hw).2
    have hparameters : (slotsAfter schema locale f).bound = k.parameters :=
      hunique.forall₂ (slotsAfter_of_compile h).2 hall
    rw [h, hparameters]

end Compile
end Criteria
