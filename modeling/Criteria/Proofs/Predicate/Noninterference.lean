import Criteria.Proofs.Predicate.Compilation

/-! What a predicate does not depend on.

A predicate is made of declared names, connectives, operators and numbers. The operands
of its filter, the way in which the client spells a field and the locale decide whether
there is a predicate, never which (`text_eq_of_sameTest`). -/
namespace Criteria

open Criteria.Tree

variable {schema schema' : Schema} {locale locale' : Locale} {f g : Filter}

/-- Two comparisons of one field by one operator, in one case mode. Their operands and
spellings are free. -/
structure Comparison.SameTest (schema : Schema) (q r : Comparison) : Prop where
  field : ∃ field, schema.resolve? q.field = some field ∧ schema.resolve? r.field = some field
  operator : q.operator = r.operator
  caseSensitive : q.caseSensitive = r.caseSensitive

/-- The predicates are equal when leaves at one place compile to one atom. -/
theorem predicate_eq_of_alike {p p' : Predicate}
    (hp : Alike (Compiles schema locale) f.numbered p)
    (hp' : Alike (Compiles schema' locale') g.numbered p')
    (h : Alike (fun q r => ∀ n a b, Compiles schema locale (n, q) a →
      Compiles schema' locale' (n, r) b → a = b) f g) : p = p' := by
  have hall := hp.flip.trans ((alike_numberedFrom 0 h).trans hp')
  refine (hall.imp fun a _ b hab => ?_).eq
  obtain ⟨⟨n, q⟩, hq, ⟨m, r⟩, ⟨hnm, hqr⟩, hr⟩ := hab
  cases hnm
  exact hqr n a b hq hr

/-- The same test is written as the same atom under any two locales. -/
theorem Comparison.SameTest.atom_eq {q r : Comparison} (h : q.SameTest schema r) {n : Nat}
    {a b : Atom} (ha : Compiles schema locale (n, q) a) (hb : Compiles schema locale' (n, r) b) :
    a = b := by
  obtain ⟨field, hq, hr⟩ := h.field
  rw [ha.eq_of_resolved hq, hb.eq_of_resolved hr, h.operator, h.caseSensitive]

/-- **No operand, no spelling of a field and no locale shows in a predicate.** Two filters
of one shape that make the same tests have the same text. -/
theorem text_eq_of_sameTest {c d : Compiled} (h : Alike (Comparison.SameTest schema) f g)
    (hc : compile schema locale f = .ok c) (hd : compile schema locale' g = .ok d) :
    c.text = d.text := by
  have hf := (compile_eq_ok_iff.1 hc).2.1
  have hg := (compile_eq_ok_iff.1 hd).2.1
  have heq : c.predicate = d.predicate := predicate_eq_of_alike hf hg <|
    h.imp fun q _ r hqr n a b ha hb => hqr.atom_eq ha hb
  rw [Compiled.text, Compiled.text, heq]

/-- An operand that is itself written like a part of a predicate. -/
theorem text_eq_of_hostile_operands :
    let schema : Schema := ⟨[⟨"Age", .integer, false⟩, ⟨"Name", .string, false⟩]⟩
    let ungrouped := { Locale.invariant with group := none }
    let f : Filter := .group .or
      [.leaf ⟨"name", .contains, some "Ann", false⟩, .leaf ⟨"Age", .gt, some "1,500", true⟩]
    let g : Filter := .group .or
      [.leaf ⟨"NAME", .contains, some "@0) or (true", false⟩, .leaf ⟨"aGE", .gt, some " 7", true⟩]
    ∃ c d, compile schema .invariant f = .ok c ∧ compile schema ungrouped g = .ok d ∧
      c.text = d.text := by
  intro schema ungrouped f g
  have hsame : Alike (Comparison.SameTest schema) f g := .group .or
    (.cons (.leaf ⟨⟨_, rfl, rfl⟩, rfl, rfl⟩) (.cons (.leaf ⟨⟨_, rfl, rfl⟩, rfl, rfl⟩) .nil))
  obtain ⟨c, hc⟩ : ∃ c, compile schema .invariant f = .ok c := ⟨_, rfl⟩
  obtain ⟨d, hd⟩ : ∃ d, compile schema ungrouped g = .ok d := ⟨_, rfl⟩
  exact ⟨c, d, hc, hd, text_eq_of_sameTest hsame hc hd⟩

end Criteria
