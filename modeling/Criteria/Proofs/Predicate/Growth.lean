import Criteria.Proofs.Predicate.Faults

/-! Schemas that grow and names that are spelled otherwise.

A schema that resolves every name as another does, and perhaps more names (`Schema.Extends`),
compiles what the other compiles and to the same result. It also fails as the other fails, unless
that was for an undeclared field: up to the first fault every field is resolved already, so nothing
that has been declared since can come before it (`firstFault_of_extends`). Since the first
declaration of a name counts, more fields behind those of a schema extend it, whatever they are
called (`Schema.extends_append`). A name in another case is resolved to the same field, so the
spelling of the fields does not matter either (`compile_grown`). -/
namespace Criteria

open Criteria.Tree

variable {s t : Schema} {locale : Locale} {q r : Comparison} {field : Field} {v : Value}
  {f g : Filter} {k : Compiled}

/-! ### Schemas -/

/-- Every name that `s` resolves is resolved to the same field. -/
def Schema.Extends (t s : Schema) : Prop :=
  ∀ name field, s.resolve? name = some field → t.resolve? name = some field

/-- The first declaration of a name counts, so later ones take nothing away. -/
theorem Schema.extends_append (s : Schema) (more : List Field) :
    (⟨s.fields ++ more⟩ : Schema).Extends s := by
  intro name field h
  rw [resolve?] at h ⊢
  rw [List.find?_append, h]
  rfl

theorem Comparison.Binds.extends (h : t.Extends s) (hb : q.Binds s locale field v) :
    q.Binds t locale field v :=
  ⟨h _ _ hb.resolved, hb.coerced⟩

theorem Compiles.extends (h : t.Extends s) {n : Nat} {a : Atom} (ha : Compiles s locale (n, q) a) :
    Compiles t locale (n, q) a := by
  obtain ⟨field, v, hb, rfl⟩ := ha
  exact ⟨field, v, hb.extends h, rfl⟩

/-- A larger schema compiles what the smaller one does, to the same. -/
theorem compile_ok_of_extends (h : t.Extends s) (hk : compile s locale f = .ok k) :
    compile t locale f = .ok k := by
  obtain ⟨hpopulated, halike, hparameters⟩ := compile_eq_ok_iff.1 hk
  refine compile_eq_ok_iff.2 ⟨hpopulated, halike.imp fun p _ a ha => ha.extends h, ?_⟩
  refine hparameters.imp fun q v hq => ?_
  obtain ⟨field, hb⟩ := hq
  exact ⟨field, hb.extends h⟩

/-! ### Faults -/

/-- A fault of a node that is not about a field it does not know stays as it is, and so does the
lack of one. -/
theorem fault?_of_extends (h : t.Extends s) {n : Node Comparison}
    (hresolved : ∀ name, n.fault? (Comparison.fault? s locale) ≠ some (.unresolvedField name)) :
    n.fault? (Comparison.fault? t locale) = n.fault? (Comparison.fault? s locale) := by
  match n with
  | .group true => rfl
  | .group false => rfl
  | .leaf q =>
    simp only [Node.fault?, Comparison.fault?] at hresolved ⊢
    cases hf : s.resolve? q.field with
    | none =>
      rw [hf] at hresolved
      exact absurd rfl (hresolved q.field)
    | some field => rw [h _ _ hf]

theorem firstFault_of_extends (h : t.Extends s) {ns : List (Node Comparison)}
    (hresolved : ∀ name,
      firstFault (Comparison.fault? s locale) ns ≠ some (.unresolvedField name)) :
    firstFault (Comparison.fault? t locale) ns = firstFault (Comparison.fault? s locale) ns := by
  induction ns with
  | nil => rfl
  | cons n ns ih =>
    simp only [firstFault, List.findSome?_cons] at hresolved ih ⊢
    cases hn : n.fault? (Comparison.fault? s locale) with
    | some e =>
      -- the search ends here, and nothing behind the node has been asked
      rw [hn] at hresolved
      rw [fault?_of_extends h (hn ▸ hresolved), hn]
    | none =>
      rw [hn] at hresolved
      rw [fault?_of_extends h fun name => hn ▸ (Option.some_ne_none _).symm, hn]
      exact ih hresolved

/-- A larger schema fails as the smaller one does, unless a field was missing. -/
theorem compile_error_of_extends (h : t.Extends s) {e : Error}
    (he : compile s locale f = .error e) (hresolved : ∀ name, e ≠ .unresolvedField name) :
    compile t locale f = .error e := by
  rw [← errorOf?_eq_some_iff, errorOf?_compile] at he ⊢
  rw [firstFault_of_extends h fun name => ?_, he]
  rw [he]
  exact fun hname => hresolved name (Option.some.inj hname)

/-! ### Spellings -/

/-- The same comparison, but for the name of its field, which is the same in small letters. -/
structure Comparison.Respells (q r : Comparison) : Prop where
  field : Text.lower q.field = Text.lower r.field
  rest : r = { q with field := r.field }

theorem Comparison.Respells.symm (h : q.Respells r) : r.Respells q := by
  refine ⟨h.field.symm, ?_⟩
  rw [h.rest]

theorem Comparison.Respells.binds (h : q.Respells r) (hb : q.Binds s locale field v) :
    r.Binds s locale field v := by
  obtain ⟨hfield, hrest⟩ := h
  refine ⟨(Schema.resolve?_lower hfield) ▸ hb.resolved, ?_⟩
  rw [hrest]
  exact hb.coerced

theorem Comparison.Respells.compiles (h : q.Respells r) {n : Nat} {a : Atom}
    (ha : Compiles s locale (n, q) a) : Compiles s locale (n, r) a := by
  obtain ⟨field, v, hb, rfl⟩ := ha
  refine ⟨field, v, h.binds hb, ?_⟩
  rw [h.rest]

/-- The spelling of fields does not matter. -/
theorem compile_of_respelled (h : Alike Comparison.Respells f g)
    (hk : compile s locale f = .ok k) : compile s locale g = .ok k := by
  obtain ⟨hpopulated, halike, hparameters⟩ := compile_eq_ok_iff.1 hk
  refine compile_eq_ok_iff.2 ⟨h.populated.1 hpopulated, ?_, ?_⟩
  · refine ((alike_numberedFrom 0 h).flip.trans halike).imp fun p _ a ha => ?_
    obtain ⟨⟨n, q⟩, ⟨hn, hq⟩, ha⟩ := ha
    obtain ⟨m, r⟩ := p
    cases hn
    exact hq.compiles ha
  · refine (forall₂_trans h.flip.leaves hparameters).imp fun r v hr => ?_
    obtain ⟨q, hq, field, hb⟩ := hr
    exact ⟨field, hq.binds hb⟩

/-- **Declaring more fields changes nothing that was settled.** With more fields behind those of a
schema, of whatever names, a filter that compiled compiles to the same predicate and parameters, and
one that failed for another reason than an undeclared field fails with the same error. Nor does the
spelling of fields matter: with other names of the same small letters at any of its leaves, a filter
compiles just when it did, and to the same. -/
theorem compile_grown (schema : Schema) (locale : Locale) (f : Filter) :
    (∀ (more : List Field) (k : Compiled), compile schema locale f = .ok k →
      compile ⟨schema.fields ++ more⟩ locale f = .ok k) ∧
    (∀ (more : List Field) (e : Error), compile schema locale f = .error e →
      (∀ name, e ≠ .unresolvedField name) →
        compile ⟨schema.fields ++ more⟩ locale f = .error e) ∧
    ∀ g, Alike Comparison.Respells f g → ∀ k,
      compile schema locale f = .ok k ↔ compile schema locale g = .ok k := by
  refine ⟨fun more k => compile_ok_of_extends (schema.extends_append more),
    fun more e => compile_error_of_extends (schema.extends_append more), fun g h k => ?_⟩
  have hback : Alike Comparison.Respells g f := h.flip.imp fun _ _ _ hq => hq.symm
  exact ⟨compile_of_respelled h, compile_of_respelled hback⟩

/-- The same name is declared again with another type, one leaf spells it with the sign of the
kelvin, and an operand that does not suit its field stands before a field that is declared later
only. -/
theorem compile_grown_collision :
    let schema : Schema := ⟨[⟨"kind", .integer, false⟩]⟩
    let more : List Field := [⟨"Kind", .string, true⟩, ⟨"Size", .boolean, false⟩]
    let large : Filter := .leaf ⟨"KIND", .gt, some "7", true⟩
    let f : Filter := .group .or [.leaf ⟨"kind", .eq, some "5", false⟩, large]
    let g : Filter := .group .or [.leaf ⟨"\u212AiNd", .eq, some "5", false⟩, large]
    let unsuitable : Filter := .group .and
      [.leaf ⟨"Kind", .eq, some "x", false⟩, .leaf ⟨"size", .eq, some "true", false⟩]
    ∃ k e, compile schema .invariant f = .ok k ∧
      compile ⟨schema.fields ++ more⟩ .invariant f = .ok k ∧
      Alike Comparison.Respells f g ∧ compile schema .invariant g = .ok k ∧
      compile schema .invariant unsuitable = .error e ∧ (∀ name, e ≠ .unresolvedField name) ∧
      compile ⟨schema.fields ++ more⟩ .invariant unsuitable = .error e := by
  intro schema more large f g unsuitable
  have hspelled : Alike Comparison.Respells f g := .group .or
    (.cons (.leaf ⟨by decide +kernel, rfl⟩) (.cons (.leaf ⟨rfl, rfl⟩) .nil))
  obtain ⟨k, hk⟩ : ∃ k, compile schema .invariant f = .ok k := ⟨_, rfl⟩
  have hfails : compile schema .invariant unsuitable =
    .error (.conversion "kind" (some "x") .integer (.locale (.integer .invalidDigit))) := rfl
  obtain ⟨hok, -, hspelling⟩ := compile_grown schema .invariant f
  obtain ⟨-, herror, -⟩ := compile_grown schema .invariant unsuitable
  exact ⟨k, _, hk, hok more k hk, hspelled, (hspelling g hspelled k).1 hk, hfails, nofun,
    herror more _ hfails nofun⟩

end Criteria
