import Criteria.Proofs.Predicate.Atom
import Criteria.Proofs.Tree

/-! Predicates read as ordinary expressions.

A reader who does not know the tree sees terms with connectives between them: a `Chain`,
in which a term is an atom or a chain in parentheses. The text of a chain tells the chain
(`Chain.text_inj`). A tree without empty groups spells one chain (`exists_spells`), and
that chain tells the tree up to the connective of groups of one member (`Spells.settled`).
No pair of parentheses in it holds both connectives, so its value is that of the tree
whichever connective binds tighter (`Spells.value`). -/
namespace Criteria

open Criteria.Tree

/-! ### Expressions -/

mutual

/-- What a chain joins: an atom, or a chain in parentheses. -/
inductive Term (α : Type)
  | atom (a : α)
  | parens (e : Chain α)

/-- Terms joined by connectives, without a word on which binds tighter. -/
inductive Chain (α : Type)
  | one (t : Term α)
  | join (t : Term α) (l : Logic) (e : Chain α)

end

variable {α : Type}

mutual

def Term.leaves : Term α → List α
  | .atom a => [a]
  | .parens e => e.leaves

def Chain.leaves : Chain α → List α
  | .one t => t.leaves
  | .join t _ e => t.leaves ++ e.leaves

end

mutual

/-- Numbers the atoms from left to right, from `n` on. -/
def Term.numberedFrom (n : Nat) : Term α → Term (Nat × α)
  | .atom a => .atom (n, a)
  | .parens e => .parens (e.numberedFrom n)

def Chain.numberedFrom (n : Nat) : Chain α → Chain (Nat × α)
  | .one t => .one (t.numberedFrom n)
  | .join t l e => .join (t.numberedFrom n) l (e.numberedFrom (n + t.leaves.length))

end

mutual

def Term.text : Term Atom → String
  | .atom a => a.text
  | .parens e => "(" ++ e.text ++ ")"

def Chain.text : Chain Atom → String
  | .one t => t.text
  | .join t l e => t.text ++ " " ++ l.word ++ " " ++ e.text

end

/-! ### Values -/

/-- What a connective does to two truth values. -/
def Logic.apply : Logic → Bool → Bool → Bool
  | .and, a, b => a && b
  | .or, a, b => a || b

/-- The value of a group without members. -/
def Logic.unit : Logic → Bool
  | .and => true
  | .or => false

theorem Logic.apply_unit (l : Logic) (b : Bool) : l.apply b l.unit = b := by
  cases l <;> cases b <;> rfl

theorem Logic.apply_assoc (l : Logic) (a b c : Bool) :
    l.apply (l.apply a b) c = l.apply a (l.apply b c) := by
  cases l with
  | and => exact Bool.and_assoc a b c
  | or => exact Bool.or_assoc a b c

mutual

/-- The value of a tree whose leaves are true or false by `v`. -/
def Tree.value (v : α → Bool) : Tree α → Bool
  | .leaf a => v a
  | .group l ts => valueAll v l ts

def Tree.valueAll (v : α → Bool) (l : Logic) : List (Tree α) → Bool
  | [] => l.unit
  | t :: ts => l.apply (value v t) (valueAll v l ts)

end

mutual

theorem Tree.Alike.value {β : Type} {R : α → β → Prop} {v : α → Bool} {w : β → Bool}
    (hR : ∀ a b, R a b → v a = w b) {t : Tree α} {u : Tree β} :
    Alike R t u → t.value v = u.value w
  | .leaf h => hR _ _ h
  | .group l h => h.value hR l

theorem Tree.AlikeAll.value {β : Type} {R : α → β → Prop} {v : α → Bool} {w : β → Bool}
    (hR : ∀ a b, R a b → v a = w b) (l : Logic) {ts : List (Tree α)} {us : List (Tree β)} :
    AlikeAll R ts us → valueAll v l ts = valueAll w l us
  | .nil => rfl
  | .cons h hs => by rw [valueAll, valueAll, h.value hR, hs.value hR l]

end

/-- How a chain is evaluated: whether a connective waits for the one that follows it. -/
abbrev Convention := Logic → Logic → Bool

namespace Convention

/-- The convention under which *and* binds tighter. -/
def andTighter : Convention := fun l m => l == .or && m == .and

/-- The convention under which *or* binds tighter. -/
def orTighter : Convention := fun l m => l == .and && m == .or

/-- Neither binds tighter: from left to right. -/
def level : Convention := fun _ _ => false

end Convention

mutual

/-- The truth value of a term when chains are read by the convention `c`. -/
def Term.value (c : Convention) (v : α → Bool) : Term α → Bool
  | .atom a => v a
  | .parens e => e.value c v

/-- The truth value of a chain when it is read by the convention `c`. -/
def Chain.value (c : Convention) (v : α → Bool) : Chain α → Bool
  | .one t => t.value c v
  | .join t l e => e.after c v (t.value c v) l

/-- The value of a chain that stands behind `b` and the connective `l`. -/
def Chain.after (c : Convention) (v : α → Bool) (b : Bool) (l : Logic) : Chain α → Bool
  | .one t => l.apply b (t.value c v)
  | .join t m e =>
    if c l m then l.apply b (e.after c v (t.value c v) m)
    else e.after c v (l.apply b (t.value c v)) m

end

/-- A connective that waits for the other one binds less tightly: it joins what stands
before it to the value of all that follows. -/
theorem Chain.after_of_waits {c : Convention} {l : Logic} (hc : ∀ m, m ≠ l → c l m = true)
    (v : α → Bool) : ∀ (b : Bool) (e : Chain α), e.after c v b l = l.apply b (e.value c v)
  | _, .one _ => rfl
  | b, .join t m e => by
    by_cases hm : m = l
    · subst hm
      rw [Chain.after, Chain.value, after_of_waits hc, after_of_waits hc, m.apply_assoc]
      exact ite_self _
    · rw [Chain.after, if_pos (hc m hm), Chain.value]

/-- With both connectives in one chain the convention decides. -/
example : let e : Chain Bool := .join (.atom true) .or (.join (.atom false) .and (.one (.atom false)))
    e.value .andTighter id = true ∧ e.value .orTighter id = false ∧ e.value .level id = false :=
  ⟨rfl, rfl, rfl⟩

/-! ### The text tells the expression -/

/-- What may follow a chain: nothing or a closing parenthesis. -/
def Closes (r : List Char) : Prop := ∀ c ∈ r.head?, c = ')'

theorem Closes.ends {r : List Char} (h : Closes r) : Ends r := by
  intro c hc
  rw [h c hc]
  rfl

theorem closes_nil : Closes [] := nofun

theorem closes_cons (r : List Char) : Closes (')' :: r) := by
  intro c hc
  cases hc
  rfl

theorem Logic.word_append_inj {l m : Logic} {r r' : List Char}
    (h : l.word.toList ++ ' ' :: r = m.word.toList ++ ' ' :: r') : l = m ∧ r = r' := by
  cases l <;> cases m <;> simp [Logic.word] at h
  · exact ⟨rfl, h⟩
  · exact ⟨rfl, h⟩

theorem Term.toList_text_parens (e : Chain Atom) (r : List Char) :
    (Term.parens e).text.toList ++ r = '(' :: (e.text.toList ++ ')' :: r) := by
  simp only [Term.text, String.toList_append, List.append_assoc]
  rfl

theorem Chain.toList_text_join (t : Term Atom) (l : Logic) (e : Chain Atom) (r : List Char) :
    (Chain.join t l e).text.toList ++ r =
      t.text.toList ++ ' ' :: (l.word.toList ++ ' ' :: (e.text.toList ++ r)) := by
  simp only [Chain.text, String.toList_append, List.append_assoc]
  rfl

mutual

/-- A term can be read off the front of a text in one way only. -/
theorem Term.text_append_inj : ∀ {t u : Term Atom}, (∀ a ∈ t.leaves, IsPlain a.field) →
    (∀ a ∈ u.leaves, IsPlain a.field) → ∀ {r r' : List Char}, Ends r → Ends r' →
      t.text.toList ++ r = u.text.toList ++ r' → t = u ∧ r = r'
  | .atom a, .atom b, ha, hb, r, r', hr, hr', h => by
    obtain ⟨rfl, rfl⟩ := Atom.text_append_inj (ha a (List.mem_singleton_self a))
      (hb b (List.mem_singleton_self b)) hr hr' h
    exact ⟨rfl, rfl⟩
  | .atom a, .parens e, ha, _, r, r', _, _, h => by
    rw [Term.toList_text_parens] at h
    exact absurd h (Atom.text_append_ne (ha a (List.mem_singleton_self a)) r _)
  | .parens e, .atom a, _, ha, r, r', _, _, h => by
    rw [Term.toList_text_parens] at h
    exact absurd h.symm (Atom.text_append_ne (ha a (List.mem_singleton_self a)) r' _)
  | .parens e, .parens e', he, he', r, r', _, _, h => by
    rw [Term.toList_text_parens, Term.toList_text_parens, List.cons.injEq] at h
    obtain ⟨rfl, hr⟩ := Chain.text_append_inj he he' (closes_cons r) (closes_cons r') h.2
    exact ⟨rfl, (List.cons.inj hr).2⟩

/-- A chain can be read off the front of a text in one way only. -/
theorem Chain.text_append_inj : ∀ {e e' : Chain Atom}, (∀ a ∈ e.leaves, IsPlain a.field) →
    (∀ a ∈ e'.leaves, IsPlain a.field) → ∀ {r r' : List Char}, Closes r → Closes r' →
      e.text.toList ++ r = e'.text.toList ++ r' → e = e' ∧ r = r'
  | .one t, .one u, ht, hu, r, r', hr, hr', h => by
    obtain ⟨rfl, rfl⟩ := Term.text_append_inj ht hu hr.ends hr'.ends h
    exact ⟨rfl, rfl⟩
  | .one t, .join u m e', ht, hu, r, r', hr, _, h => by
    -- the shorter chain would have to be followed by a space
    rw [Chain.toList_text_join] at h
    obtain ⟨-, rfl⟩ := Term.text_append_inj ht (fun a ha => hu a (List.mem_append_left _ ha))
      hr.ends (ends_cons rfl _) h
    exact absurd (hr _ rfl) (by decide)
  | .join t l e, .one u, ht, hu, r, r', _, hr', h => by
    rw [Chain.toList_text_join] at h
    obtain ⟨-, rfl⟩ := Term.text_append_inj (fun a ha => ht a (List.mem_append_left _ ha)) hu
      (ends_cons rfl _) hr'.ends h
    exact absurd (hr' _ rfl) (by decide)
  | .join t l e, .join u m e', ht, hu, r, r', hr, hr', h => by
    rw [Chain.toList_text_join, Chain.toList_text_join] at h
    obtain ⟨rfl, hword⟩ := Term.text_append_inj (fun a ha => ht a (List.mem_append_left _ ha))
      (fun a ha => hu a (List.mem_append_left _ ha)) (ends_cons rfl _) (ends_cons rfl _) h
    obtain ⟨rfl, hrest⟩ := Logic.word_append_inj (List.cons.inj hword).2
    obtain ⟨rfl, rfl⟩ := Chain.text_append_inj (fun a ha => ht a (List.mem_append_right _ ha))
      (fun a ha => hu a (List.mem_append_right _ ha)) hr hr' hrest
    exact ⟨rfl, rfl⟩

end

/-- **A text is the text of one expression at most.** -/
theorem Chain.text_inj {e e' : Chain Atom} (he : ∀ a ∈ e.leaves, IsPlain a.field)
    (he' : ∀ a ∈ e'.leaves, IsPlain a.field) (h : e.text = e'.text) : e = e' := by
  have ht : e.text.toList ++ [] = e'.text.toList ++ [] := by rw [h]
  exact (Chain.text_append_inj he he' closes_nil closes_nil ht).1

/-! ### The expression of a tree -/

mutual

/-- The tree as an expression: a group is the chain of its members in parentheses. -/
inductive Spells : Tree α → Term α → Prop
  | leaf (a : α) : Spells (.leaf a) (.atom a)
  | group {l : Logic} {ts : List (Tree α)} {e : Chain α} :
      SpellsAll l ts e → Spells (.group l ts) (.parens e)

/-- The chain joins the terms of the trees, by the same connective throughout. -/
inductive SpellsAll : Logic → List (Tree α) → Chain α → Prop
  | one {l : Logic} {t : Tree α} {u : Term α} : Spells t u → SpellsAll l [t] (.one u)
  | join {l : Logic} {t : Tree α} {u : Term α} {ts : List (Tree α)} {e : Chain α} :
      Spells t u → SpellsAll l ts e → SpellsAll l (t :: ts) (.join u l e)

end

mutual

theorem exists_spells : ∀ {t : Tree α}, t.Populated → ∃ u, Spells t u
  | .leaf a, _ => ⟨.atom a, .leaf a⟩
  | .group l _, h => by
    obtain ⟨e, he⟩ := exists_spellsAll l h.1 h.2
    exact ⟨.parens e, .group he⟩

theorem exists_spellsAll (l : Logic) : ∀ {ts : List (Tree α)}, ts ≠ [] → PopulatedAll ts →
    ∃ e, SpellsAll l ts e
  | [], hne, _ => absurd rfl hne
  | [_], _, h => by
    obtain ⟨u, hu⟩ := exists_spells h.1
    exact ⟨.one u, .one hu⟩
  | _ :: t :: ts, _, h => by
    obtain ⟨u, hu⟩ := exists_spells h.1
    obtain ⟨e, he⟩ := exists_spellsAll l (List.cons_ne_nil t ts) h.2
    exact ⟨.join u l e, .join hu he⟩

end

mutual

theorem Spells.leaves {t : Tree α} {u : Term α} : Spells t u → u.leaves = t.leaves
  | .leaf _ => rfl
  | .group h => h.leaves

theorem SpellsAll.leaves {l : Logic} {ts : List (Tree α)} {e : Chain α} :
    SpellsAll l ts e → e.leaves = leavesAll ts
  | .one h => by rw [Chain.leaves, h.leaves, leavesAll, leavesAll, List.append_nil]
  | .join h hs => by rw [Chain.leaves, h.leaves, hs.leaves, leavesAll]

end

theorem SpellsAll.ne_nil {l : Logic} {ts : List (Tree α)} {e : Chain α} (h : SpellsAll l ts e) :
    ts ≠ [] := by
  cases h <;> exact List.cons_ne_nil _ _

theorem texts_ne_nil {ps : List Predicate} (h : ps ≠ []) : Predicate.texts ps ≠ [] := by
  cases ps with
  | nil => exact absurd rfl h
  | cons p ps => exact List.cons_ne_nil _ _

mutual

theorem Spells.text {p : Predicate} {u : Term Atom} : Spells p u → u.text = Predicate.text p
  | .leaf _ => rfl
  | .group h => by rw [Term.text, h.text, Predicate.text]

theorem SpellsAll.text {l : Logic} {ps : List Predicate} {e : Chain Atom} :
    SpellsAll l ps e → e.text = (" " ++ l.word ++ " ").intercalate (Predicate.texts ps)
  | .one h => by
    rw [Chain.text, h.text, Predicate.texts, Predicate.texts, String.intercalate_singleton]
  | .join h hs => by
    rw [Chain.text, h.text, hs.text, Predicate.texts,
      String.intercalate_cons_of_ne_nil (texts_ne_nil hs.ne_nil)]
    simp only [String.append_assoc]

end

mutual

theorem Spells.numberedFrom (n : Nat) {t : Tree α} {u : Term α} :
    Spells t u → Spells (t.numberedFrom n) (u.numberedFrom n)
  | .leaf _ => .leaf _
  | .group h => .group (h.numberedFrom n)

theorem SpellsAll.numberedFrom (n : Nat) {l : Logic} {ts : List (Tree α)} {e : Chain α} :
    SpellsAll l ts e → SpellsAll l (numberedAllFrom n ts) (e.numberedFrom n)
  | .one h => .one (h.numberedFrom n)
  | .join h hs => by
    rw [Chain.numberedFrom, h.leaves]
    exact .join (h.numberedFrom n) (hs.numberedFrom _)

end

mutual

/-- Trees of one expression differ in nothing but the connective of groups of one member. -/
theorem Spells.settled : ∀ {t t' : Tree α} {u : Term α}, Spells t u → Spells t' u →
    t.settled = t'.settled
  | _, _, _, .leaf _, .leaf _ => rfl
  | _, _, _, .group h, .group h' => by
    obtain ⟨hl, hs⟩ := h.settled h'
    rw [Tree.settled, Tree.settled, hl, hs]

/-- Lists that are spelled alike are the same once settled. -/
theorem SpellsAll.settled : ∀ {l l' : Logic} {ts ts' : List (Tree α)} {e : Chain α},
    SpellsAll l ts e → SpellsAll l' ts' e →
      shownLogic l ts = shownLogic l' ts' ∧ settledAll ts = settledAll ts'
  | _, _, _, _, _, .one h, .one h' => ⟨rfl, congrArg (fun s => [s]) (h.settled h')⟩
  | _, _, _, _, _, .join h hs, .join h' hs' => by
    rw [settledAll, settledAll, h.settled h', (hs.settled hs').2, shownLogic_cons _ hs.ne_nil,
      shownLogic_cons _ hs'.ne_nil]
    exact ⟨rfl, rfl⟩

end

mutual

/-- **The value of an expression that a tree spells is the value of the tree**, however
chains are evaluated. -/
theorem Spells.value (c : Convention) (v : α → Bool) {t : Tree α} {u : Term α} :
    Spells t u → u.value c v = t.value v
  | .leaf _ => rfl
  | .group h => h.value c v

/-- A chain with one connective throughout has the value of its group under every convention. -/
theorem SpellsAll.value (c : Convention) (v : α → Bool) {l : Logic} {ts : List (Tree α)}
    {e : Chain α} : SpellsAll l ts e → e.value c v = valueAll v l ts
  | .one h => by rw [Chain.value, h.value c v, valueAll, valueAll, l.apply_unit]
  | .join h hs => by rw [Chain.value, h.value c v, hs.after c v, valueAll]

/-- One connective throughout: it does not matter which of its uses comes first. -/
theorem SpellsAll.after (c : Convention) (v : α → Bool) {l : Logic} {ts : List (Tree α)}
    {e : Chain α} (b : Bool) : SpellsAll l ts e → e.after c v b l = l.apply b (valueAll v l ts)
  | .one h => by rw [Chain.after, h.value c v, valueAll, valueAll, l.apply_unit]
  | .join h hs => by
    rw [Chain.after, h.value c v, hs.after c v, hs.after c v, l.apply_assoc, valueAll]
    exact ite_self _

end

end Criteria
