import Criteria.Proofs.Predicate.Noninterference
import Criteria.Proofs.Predicate.Reading

/-! Predicates are uniquely readable.

Over a schema of plain names, `Sentence` is the grammar of predicates: an atom, or in
parentheses sentences with one connective between them. A filter compiles to a sentence
with one reading, that of the filter, and the text read as an ordinary expression has the
value of the filter whichever connective binds tighter (`compile_readable`). What the text
does not tell is what `Tree.settled` and `Comparison.LooksLike` leave open. -/
namespace Criteria

open Criteria.Tree

variable {schema : Schema} {locale locale' : Locale} {f g : Filter}

/-! ### The grammar -/

/-- Every declared name is one word. -/
def Schema.Plain (schema : Schema) : Prop := ∀ field ∈ schema.fields, IsPlain field.name

/-- The atom is one that a leaf can compile to. -/
def Atom.Emitted (schema : Schema) (a : Atom) : Prop :=
  ∃ name field operator caseSensitive n, schema.resolve? name = some field ∧
    a = .of field operator caseSensitive n

mutual

/-- The sentences of a grammar, each with a tree that it can be read as: an atom, or in
parentheses one or more sentences, with *and* between all of them or *or* between all. -/
inductive Sentence (schema : Schema) : Predicate → String → Prop
  | atom {a : Atom} : a.Emitted schema → Sentence schema (.leaf a) a.text
  | group {l : Logic} {p : Predicate} {ps : List Predicate} {s s' : String} :
      Sentence schema p s → Members schema l ps s' →
        Sentence schema (.group l (p :: ps)) ("(" ++ s ++ s' ++ ")")

/-- The members of a group after the first, each with the connective before it. -/
inductive Members (schema : Schema) : Logic → List Predicate → String → Prop
  | nil {l : Logic} : Members schema l [] ""
  | cons {l : Logic} {p : Predicate} {ps : List Predicate} {s s' : String} :
      Sentence schema p s → Members schema l ps s' →
        Members schema l (p :: ps) (" " ++ l.word ++ " " ++ s ++ s')

end

theorem Atom.Emitted.plain (hplain : schema.Plain) {a : Atom} (h : a.Emitted schema) :
    IsPlain a.field := by
  obtain ⟨name, field, o, cs, n, hf, rfl⟩ := h
  rw [Atom.field_of]
  exact hplain field (List.mem_of_find?_eq_some hf)

mutual

/-- A sentence is the text of an expression that spells the tree. -/
theorem Sentence.spells : ∀ {p : Predicate} {s : String}, Sentence schema p s →
    ∃ u, Spells p u ∧ u.text = s ∧ ∀ a ∈ u.leaves, a.Emitted schema
  | _, _, .atom h => ⟨.atom _, .leaf _, rfl, fun a ha => List.mem_singleton.1 ha ▸ h⟩
  | _, _, .group h hs => by
    obtain ⟨u, hu, rfl, hall⟩ := h.spells
    obtain ⟨e, he, ht, halls⟩ := hs.spells hu hall
    refine ⟨.parens e, .group he, ?_, halls⟩
    rw [Term.text, ht]
    simp only [String.append_assoc]

theorem Members.spells : ∀ {l : Logic} {ps : List Predicate} {s : String}, Members schema l ps s →
    ∀ {p : Predicate} {u : Term Atom}, Spells p u → (∀ a ∈ u.leaves, a.Emitted schema) →
      ∃ e, SpellsAll l (p :: ps) e ∧ e.text = u.text ++ s ∧ ∀ a ∈ e.leaves, a.Emitted schema
  | _, _, _, .nil, p, u, hu, hall => ⟨.one u, .one hu, by rw [Chain.text, String.append_empty], hall⟩
  | l, _, _, .cons h hs, p, u, hu, hall => by
    obtain ⟨u', hu', rfl, hall'⟩ := h.spells
    obtain ⟨e, he, ht, halls⟩ := hs.spells hu' hall'
    refine ⟨.join u l e, .join hu he, ?_, fun a ha => ?_⟩
    · rw [Chain.text, ht]
      simp only [String.append_assoc]
    · rcases List.mem_append.1 ha with ha | ha
      · exact hall a ha
      · exact halls a ha

end

mutual

/-- An expression that spells a tree has a sentence for its text. -/
theorem Spells.sentence : ∀ {p : Predicate} {u : Term Atom}, Spells p u →
    (∀ a ∈ u.leaves, a.Emitted schema) → Sentence schema p u.text
  | _, _, .leaf a, hall => .atom (hall a (List.mem_singleton_self a))
  | _, _, .group h, hall => by
    obtain ⟨p, ps, s, s', rfl, hp, hps, ht⟩ := h.sentence hall
    rw [Term.text, ht, ← String.append_assoc]
    exact .group hp hps

theorem SpellsAll.sentence : ∀ {l : Logic} {ps : List Predicate} {e : Chain Atom},
    SpellsAll l ps e → (∀ a ∈ e.leaves, a.Emitted schema) →
      ∃ p qs s s', ps = p :: qs ∧ Sentence schema p s ∧ Members schema l qs s' ∧ e.text = s ++ s'
  | _, _, _, .one h, hall =>
    ⟨_, [], _, "", rfl, h.sentence hall, .nil, by rw [Chain.text, String.append_empty]⟩
  | _, _, _, .join h hs, hall => by
    obtain ⟨p, qs, s, s', rfl, hp, hqs, ht⟩ :=
      hs.sentence fun a ha => hall a (List.mem_append_right _ ha)
    refine ⟨_, _, _, _, rfl, h.sentence fun a ha => hall a (List.mem_append_left _ ha),
      .cons hp hqs, ?_⟩
    rw [Chain.text, ht]
    simp only [String.append_assoc]

end

/-- A sentence has one reading, up to the connective of groups of one member. -/
theorem Sentence.settled_eq (hplain : schema.Plain) {p q : Predicate} {s : String}
    (hp : Sentence schema p s) (hq : Sentence schema q s) : p.settled = q.settled := by
  obtain ⟨u, hu, hs, hall⟩ := hp.spells
  obtain ⟨u', hu', hs', hall'⟩ := hq.spells
  have h : Chain.one u = .one u' := Chain.text_inj (fun a ha => (hall a ha).plain hplain)
    (fun a ha => (hall' a ha).plain hplain) (hs.trans hs'.symm)
  cases h
  exact hu.settled hu'

/-! ### What a filter compiles to -/

theorem Compiles.emitted {q : Nat × Comparison} {a : Atom} (h : Compiles schema locale q a) :
    a.Emitted schema := by
  obtain ⟨field, v, hb, rfl⟩ := h
  exact ⟨_, field, _, _, _, hb.resolved, rfl⟩

theorem emitted_of_compile {c : Compiled} (h : compile schema locale f = .ok c) :
    ∀ a ∈ c.predicate.leaves, a.Emitted schema := by
  have hall := (compile_eq_ok_iff.1 h).2.1.flip.leaves
  exact ((List.forall₂_and_left _ _).1 (hall.imp fun a q hq => ⟨hq.emitted, hq⟩)).1

/-- The expression that a compiled text is read as. -/
theorem exists_reading {c : Compiled} (h : compile schema locale f = .ok c) :
    ∃ u, Spells c.predicate u ∧ u.text = c.text ∧ ∀ a ∈ u.leaves, a.Emitted schema := by
  obtain ⟨hpop, halike, -⟩ := compile_eq_ok_iff.1 h
  have hnum : f.numbered.Populated := (alike_numbered_self 0 f).populated.1 hpop
  obtain ⟨u, hu⟩ := exists_spells (halike.populated.1 hnum)
  refine ⟨u, hu, hu.text, ?_⟩
  rw [hu.leaves]
  exact emitted_of_compile h

/-- Numbered leaf by leaf, a filter and its predicate have one value. -/
theorem value_numbered_eq {c : Compiled} (h : compile schema locale f = .ok c) (v : Nat → Bool) :
    c.predicate.numbered.value (fun p => v p.1) = f.numbered.value (fun p => v p.1) := by
  have hself := (alike_numbered_self 0 f).trans (compile_eq_ok_iff.1 h).2.1
  exact ((alike_numberedFrom 0 hself).value fun p q hpq => congrArg v hpq.1).symm

/-! ### Equal texts -/

theorem Schema.resolve?_name {name : String} {field : Field}
    (h : schema.resolve? name = some field) : schema.resolve? field.name = some field := by
  have hlower : Text.lower field.name = Text.lower name := by simpa using List.find?_some h
  rw [Schema.resolve?_lower hlower, h]

/-- Two comparisons of one field that show alike: by one operator, but for the tests for
null and for emptiness on text, and in one case mode where the operator folds the case of
text. Their operands and spellings are free. -/
def Comparison.LooksLike (schema : Schema) (q r : Comparison) : Prop :=
  ∃ field, schema.resolve? q.field = some field ∧ schema.resolve? r.field = some field ∧
    Atom.SameShow field q.operator r.operator q.caseSensitive r.caseSensitive

theorem Compiles.looksLike {q r : Nat × Comparison} {a : Atom} (hq : Compiles schema locale q a)
    (hr : Compiles schema locale' r a) : q.2.LooksLike schema r.2 := by
  obtain ⟨field, v, hb, ha⟩ := hq
  obtain ⟨field', v', hb', ha'⟩ := hr
  have heq := ha.symm.trans ha'
  have hname : field.name = field'.name := by
    rw [← Atom.field_of field, heq, Atom.field_of]
  have hfield : field = field' := by
    have h := Schema.resolve?_name hb.resolved
    rw [hname, Schema.resolve?_name hb'.resolved] at h
    exact (Option.some.inj h).symm
  subst hfield
  exact ⟨field, hb.resolved, hb'.resolved, Atom.sameShow_of_eq heq⟩

theorem Comparison.LooksLike.atom_eq {q r : Comparison} (h : q.LooksLike schema r) {n : Nat}
    {a b : Atom} (ha : Compiles schema locale (n, q) a) (hb : Compiles schema locale' (n, r) b) :
    a = b := by
  obtain ⟨field, hq, hr, hshow⟩ := h
  rw [ha.eq_of_resolved hq, hb.eq_of_resolved hr]
  exact Atom.of_eq_of_iff.2 hshow

/-- No connective shows in a group of one member. -/
theorem intercalate_shownLogic (l : Logic) (ps : List Predicate) :
    (" " ++ (shownLogic l ps).word ++ " ").intercalate (Predicate.texts ps) =
      (" " ++ l.word ++ " ").intercalate (Predicate.texts ps) := by
  cases ps with
  | nil => rfl
  | cons p ps =>
    cases ps with
    | nil => rw [Predicate.texts, Predicate.texts, String.intercalate_singleton,
        String.intercalate_singleton]
    | cons q qs => rfl

mutual

theorem text_settled : ∀ p : Predicate, Predicate.text p.settled = Predicate.text p
  | .leaf _ => rfl
  | .group l ps => by
    rw [settled, Predicate.text, Predicate.text, texts_settledAll ps, intercalate_shownLogic]

theorem texts_settledAll : ∀ ps : List Predicate,
    Predicate.texts (settledAll ps) = Predicate.texts ps
  | [] => rfl
  | p :: ps => by
    rw [settledAll, Predicate.texts, Predicate.texts, text_settled p, texts_settledAll ps]

end

theorem alike_settled_of_compile {c : Compiled} (h : compile schema locale f = .ok c) :
    Alike (Compiles schema locale) f.settled.numbered c.predicate.settled := by
  have hs := (compile_eq_ok_iff.1 h).2.1.settled
  rw [numbered, settled_numberedFrom] at hs
  exact hs

/-- What compiles is written as a sentence. -/
theorem sentence_of_compile {c : Compiled} (h : compile schema locale f = .ok c) :
    Sentence schema c.predicate c.text := by
  obtain ⟨u, hu, ht, hall⟩ := exists_reading h
  rw [← ht]
  exact hu.sentence hall

/-- Two filters compile to one text just when they look alike, the connective of groups of
one member aside. -/
theorem text_eq_iff (hplain : schema.Plain) {c d : Compiled} (hc : compile schema locale f = .ok c)
    (hd : compile schema locale' g = .ok d) :
    c.text = d.text ↔ Alike (Comparison.LooksLike schema) f.settled g.settled := by
  have hf := alike_settled_of_compile hc
  have hg := alike_settled_of_compile hd
  constructor
  · intro h
    have hs := sentence_of_compile hc
    rw [h] at hs
    rw [hs.settled_eq hplain (sentence_of_compile hd)] at hf
    -- the numbers by which the leaves were told apart are taken off again
    have hall := (alike_numbered_self 0 f.settled).trans
      (hf.trans (hg.flip.trans (alike_numbered_self 0 g.settled).flip))
    refine hall.imp fun q _ r hqr => ?_
    obtain ⟨q', rfl, a, hq, r', hr, rfl⟩ := hqr
    exact hq.looksLike hr
  · intro h
    have heq : c.predicate.settled = d.predicate.settled := predicate_eq_of_alike hf hg <|
      h.imp fun q _ r hqr n a b ha hb => hqr.atom_eq ha hb
    rw [Compiled.text, ← text_settled, heq, text_settled, Compiled.text]

/-- **A predicate is read in one way only.** Over plain names, what a filter compiles to is
a sentence, and all its readings are the filter's own but for the connective of groups of
one member. Read as an ordinary expression it is read in one way too, with the value of
the filter for every choice of true leaves, and whichever connective binds tighter. Filters
of one text differ in nothing but what does not show. -/
theorem compile_readable (hplain : schema.Plain) {c : Compiled}
    (h : compile schema locale f = .ok c) :
    (Alike (Compiles schema locale) f.numbered c.predicate ∧ Sentence schema c.predicate c.text ∧
      ∀ q, Sentence schema q c.text → q.settled = c.predicate.settled) ∧
    (∃ e : Chain Atom, ((∀ a ∈ e.leaves, a.Emitted schema) ∧ e.text = c.text) ∧
      (∀ e' : Chain Atom, (∀ a ∈ e'.leaves, a.Emitted schema) → e'.text = c.text → e' = e) ∧
      ∀ (convention : Convention) (v : Nat → Bool),
        (e.numberedFrom 0).value convention (fun p => v p.1) =
          f.numbered.value (fun p => v p.1)) ∧
    ∀ (locale' : Locale) (g : Filter) (d : Compiled), compile schema locale' g = .ok d →
      (c.text = d.text ↔ Alike (Comparison.LooksLike schema) f.settled g.settled) := by
  have hs := sentence_of_compile h
  obtain ⟨u, hu, ht, hall⟩ := exists_reading h
  refine ⟨⟨(compile_eq_ok_iff.1 h).2.1, hs, fun q hq => hq.settled_eq hplain hs⟩,
    ⟨.one u, ⟨hall, ht⟩, fun e' hall' ht' => ?_, fun convention v => ?_⟩,
    fun locale' g d hd => text_eq_iff hplain h hd⟩
  · exact Chain.text_inj (fun a ha => (hall' a ha).plain hplain)
      (fun a ha => (hall a ha).plain hplain) (ht'.trans ht.symm)
  · rw [← value_numbered_eq h]
    exact (hu.numberedFrom 0).value convention fun p => v p.1

/-- Fields that are named like a connective and a constant, and a group of one member. -/
theorem compile_readable_keywords :
    let schema : Schema := ⟨[⟨"and", .integer, false⟩, ⟨"null", .string, true⟩]⟩
    let f : Filter := .group .or [.group .or [.leaf ⟨"And", .gt, some "5", false⟩],
      .group .and [.leaf ⟨"NULL", .isNull, none, false⟩, .leaf ⟨"and", .lte, some "9", false⟩]]
    (schema.Plain ∧ ∃ c, compile schema .invariant f = .ok c) ∧
      ∀ q, Sentence schema q "((and > @0) or (String.IsNullOrEmpty(null) and and <= @2))" →
        q.settled = .group .or [.group .and [.leaf (.compare "and" .gt 0)],
          .group .and [.leaf (.emptiness false "null"), .leaf (.compare "and" .le 2)]] := by
  intro schema f
  have hplain : schema.Plain := by
    intro field hfield
    rcases List.mem_pair.1 hfield with rfl | rfl
    · exact ⟨by decide, List.all_eq_true.1 rfl⟩
    · exact ⟨by decide, List.all_eq_true.1 rfl⟩
  let p : Predicate := .group .or [.group .or [.leaf (.compare "and" .gt 0)],
    .group .and [.leaf (.emptiness false "null"), .leaf (.compare "and" .le 2)]]
  have hc : compile schema .invariant f = .ok ⟨p, [.integer 5, .null, .integer 9]⟩ := rfl
  have ht : Compiled.text ⟨p, [.integer 5, .null, .integer 9]⟩ =
      "((and > @0) or (String.IsNullOrEmpty(null) and and <= @2))" := by decide +kernel
  refine ⟨⟨hplain, _, hc⟩, fun q hq => ?_⟩
  rw [← ht] at hq
  exact (compile_readable hplain hc).1.2.2 q hq

end Criteria
