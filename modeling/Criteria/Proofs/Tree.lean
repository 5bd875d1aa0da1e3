import Criteria.Tree
import Mathlib.Data.List.Forall2

/-! Trees compared leaf by leaf.

`Alike R` says that two trees have one shape and one connective at each group, with `R`
between the leaves that stand at one place. A tree and what is made of it leaf by leaf
are alike, so a fact about one of the two carries over to the other: their leaves are
related in order (`Alike.leaves`), numbering keeps them alike (`alike_numberedFrom`),
and a tree whose leaves all have a partner is alike to a tree of partners
(`exists_alike`). Trees that differ only in the connective of groups with one member are
told apart by nothing that joins members: `settled` gives all of them one connective. -/
namespace Criteria.Tree

variable {α β γ : Type} {R : α → β → Prop} {S : β → γ → Prop}

/-! ### Groups with members -/

mutual

/-- No group is empty, at any depth. -/
def Populated : Tree α → Prop
  | leaf _ => True
  | group _ ts => ts ≠ [] ∧ PopulatedAll ts

def PopulatedAll : List (Tree α) → Prop
  | [] => True
  | t :: ts => Populated t ∧ PopulatedAll ts

end

/-! ### Alike trees -/

mutual

/-- The same shape and connectives, and `R` from leaf to leaf. -/
inductive Alike (R : α → β → Prop) : Tree α → Tree β → Prop
  | leaf {a : α} {b : β} : R a b → Alike R (leaf a) (leaf b)
  | group {ts : List (Tree α)} {us : List (Tree β)} (l : Logic) :
      AlikeAll R ts us → Alike R (group l ts) (group l us)

inductive AlikeAll (R : α → β → Prop) : List (Tree α) → List (Tree β) → Prop
  | nil : AlikeAll R [] []
  | cons {t : Tree α} {u : Tree β} {ts : List (Tree α)} {us : List (Tree β)} :
      Alike R t u → AlikeAll R ts us → AlikeAll R (t :: ts) (u :: us)

end

mutual

/-- The leaves of alike trees are related one by one. -/
theorem Alike.leaves {t : Tree α} {u : Tree β} : Alike R t u → List.Forall₂ R t.leaves u.leaves
  | .leaf h => .cons h .nil
  | .group _ h => h.leaves

theorem AlikeAll.leaves {ts : List (Tree α)} {us : List (Tree β)} :
    AlikeAll R ts us → List.Forall₂ R (leavesAll ts) (leavesAll us)
  | .nil => .nil
  | .cons h hs => List.rel_append h.leaves hs.leaves

end

/-- Related lists have related entries at each place. -/
theorem exists_getElem?_of_forall₂ {as : List α} {bs : List β} (h : List.Forall₂ R as bs) {i : Nat}
    {a : α} (ha : as[i]? = some a) : ∃ b, bs[i]? = some b ∧ R a b := by
  obtain ⟨hi, hget⟩ := List.getElem?_eq_some_iff.1 ha
  have hi' : i < bs.length := h.length_eq ▸ hi
  have hab := h.get hi hi'
  rw [List.get_eq_getElem, hget, List.get_eq_getElem] at hab
  exact ⟨bs[i], List.getElem?_eq_getElem hi', hab⟩

/-- Lists related through a third. -/
theorem forall₂_trans {as : List α} {bs : List β} {cs : List γ} (h : List.Forall₂ R as bs)
    (k : List.Forall₂ S bs cs) : List.Forall₂ (fun a c => ∃ b, R a b ∧ S b c) as cs := by
  induction h generalizing cs with
  | nil =>
    cases k
    exact .nil
  | cons hab _ ih =>
    cases k with
    | cons hbc k => exact .cons ⟨_, hab, hbc⟩ (ih k)

mutual

theorem Alike.populated {t : Tree α} {u : Tree β} : Alike R t u → (t.Populated ↔ u.Populated)
  | .leaf _ => Iff.rfl
  | .group _ h => and_congr h.ne_nil h.populated

theorem AlikeAll.ne_nil {ts : List (Tree α)} {us : List (Tree β)} :
    AlikeAll R ts us → (ts ≠ [] ↔ us ≠ [])
  | .nil => by simp
  | .cons .. => by simp

theorem AlikeAll.populated {ts : List (Tree α)} {us : List (Tree β)} :
    AlikeAll R ts us → (PopulatedAll ts ↔ PopulatedAll us)
  | .nil => Iff.rfl
  | .cons h hs => and_congr h.populated hs.populated

end

mutual

theorem Alike.imp {R' : α → β → Prop} {t : Tree α} {u : Tree β}
    (himp : ∀ a ∈ t.leaves, ∀ b, R a b → R' a b) : Alike R t u → Alike R' t u
  | .leaf h => .leaf (himp _ (List.mem_singleton_self _) _ h)
  | .group l h => .group l (h.imp himp)

theorem AlikeAll.imp {R' : α → β → Prop} {ts : List (Tree α)} {us : List (Tree β)}
    (himp : ∀ a ∈ leavesAll ts, ∀ b, R a b → R' a b) : AlikeAll R ts us → AlikeAll R' ts us
  | .nil => .nil
  | .cons h hs => .cons (h.imp fun a ha => himp a (List.mem_append_left _ ha))
      (hs.imp fun a ha => himp a (List.mem_append_right _ ha))

end

mutual

theorem Alike.flip {t : Tree α} {u : Tree β} : Alike R t u → Alike (fun b a => R a b) u t
  | .leaf h => .leaf h
  | .group l h => .group l h.flip

theorem AlikeAll.flip {ts : List (Tree α)} {us : List (Tree β)} :
    AlikeAll R ts us → AlikeAll (fun b a => R a b) us ts
  | .nil => .nil
  | .cons h hs => .cons h.flip hs.flip

end

mutual

theorem Alike.trans {t : Tree α} {u : Tree β} {v : Tree γ} :
    Alike R t u → Alike S u v → Alike (fun a c => ∃ b, R a b ∧ S b c) t v
  | .leaf h, .leaf k => .leaf ⟨_, h, k⟩
  | .group l h, .group _ k => .group l (h.trans k)

theorem AlikeAll.trans {ts : List (Tree α)} {us : List (Tree β)} {vs : List (Tree γ)} :
    AlikeAll R ts us → AlikeAll S us vs → AlikeAll (fun a c => ∃ b, R a b ∧ S b c) ts vs
  | .nil, .nil => .nil
  | .cons h hs, .cons k ks => .cons (h.trans k) (hs.trans ks)

end

mutual

/-- Trees are equal when they are alike and their leaves are equal. -/
theorem Alike.eq {t u : Tree α} : Alike (· = ·) t u → t = u
  | .leaf h => congrArg leaf h
  | .group l h => congrArg (group l) h.eq

theorem AlikeAll.eq {ts us : List (Tree α)} : AlikeAll (· = ·) ts us → ts = us
  | .nil => rfl
  | .cons h hs => congr (congrArg List.cons h.eq) hs.eq

end

mutual

/-- A tree whose leaves all have a counterpart has one itself. -/
theorem exists_alike : ∀ t : Tree α, (∀ a ∈ t.leaves, ∃ b, R a b) → ∃ u, Alike R t u
  | leaf a, h => by
    obtain ⟨b, hb⟩ := h a (List.mem_singleton_self a)
    exact ⟨leaf b, .leaf hb⟩
  | group l ts, h => by
    obtain ⟨us, hus⟩ := exists_alikeAll ts h
    exact ⟨group l us, .group l hus⟩

theorem exists_alikeAll : ∀ ts : List (Tree α), (∀ a ∈ leavesAll ts, ∃ b, R a b) →
    ∃ us, AlikeAll R ts us
  | [], _ => ⟨[], .nil⟩
  | t :: ts, h => by
    obtain ⟨u, hu⟩ := exists_alike t fun a ha => h a (List.mem_append_left _ ha)
    obtain ⟨us, hus⟩ := exists_alikeAll ts fun a ha => h a (List.mem_append_right _ ha)
    exact ⟨u :: us, .cons hu hus⟩

end

/-! ### Leaves changed and numbered -/

mutual

theorem alike_map (f : α → β) : ∀ t : Tree α, Alike (fun a b => b = f a) t (map f t)
  | leaf _ => .leaf rfl
  | group l ts => .group l (alikeAll_mapAll f ts)

theorem alikeAll_mapAll (f : α → β) : ∀ ts : List (Tree α),
    AlikeAll (fun a b => b = f a) ts (mapAll f ts)
  | [] => .nil
  | t :: ts => .cons (alike_map f t) (alikeAll_mapAll f ts)

end

theorem leaves_map (f : α → β) (t : Tree α) : (map f t).leaves = t.leaves.map f := by
  have h := (alike_map f t).leaves
  generalize t.leaves = xs at h ⊢
  generalize (map f t).leaves = ys at h ⊢
  induction h with
  | nil => rfl
  | cons h _ ih => rw [h, ih, List.map_cons]

/-- A mapped tree is as alike to another as the tree itself is. -/
theorem alike_map_left_iff {f : α → β} {t : Tree α} {u : Tree γ} :
    Alike S (map f t) u ↔ Alike (fun a c => S (f a) c) t u := by
  constructor
  · intro h
    refine ((alike_map f t).trans h).imp fun a _ c hc => ?_
    obtain ⟨b, rfl, hb⟩ := hc
    exact hb
  · intro h
    refine ((alike_map f t).flip.trans h).imp fun b _ c hc => ?_
    obtain ⟨a, rfl, ha⟩ := hc
    exact ha

mutual

theorem alike_numbered_self : ∀ (n : Nat) (t : Tree α),
    Alike (fun a p => p.2 = a) t (numberedFrom n t)
  | _, leaf _ => .leaf rfl
  | n, group l ts => .group l (alikeAll_numbered_self n ts)

theorem alikeAll_numbered_self : ∀ (n : Nat) (ts : List (Tree α)),
    AlikeAll (fun a p => p.2 = a) ts (numberedAllFrom n ts)
  | _, [] => .nil
  | n, t :: ts => .cons (alike_numbered_self n t) (alikeAll_numbered_self _ ts)

end

mutual

/-- Leaves of alike trees get the same numbers. -/
theorem alike_numberedFrom (n : Nat) {t : Tree α} {u : Tree β} : Alike R t u →
    Alike (fun p q => p.1 = q.1 ∧ R p.2 q.2) (numberedFrom n t) (numberedFrom n u)
  | .leaf h => .leaf ⟨rfl, h⟩
  | .group l h => .group l (alikeAll_numberedAllFrom n h)

theorem alikeAll_numberedAllFrom (n : Nat) {ts : List (Tree α)} {us : List (Tree β)} :
    AlikeAll R ts us →
      AlikeAll (fun p q => p.1 = q.1 ∧ R p.2 q.2) (numberedAllFrom n ts) (numberedAllFrom n us)
  | .nil => .nil
  | .cons h hs => by
    -- alike trees use up as many numbers
    rw [numberedAllFrom, numberedAllFrom, ← h.leaves.length_eq]
    exact .cons (alike_numberedFrom n h) (alikeAll_numberedAllFrom _ hs)

end

mutual

/-- The numbers of the leaves are those of their order. -/
theorem leaves_numberedFrom : ∀ (n : Nat) (t : Tree α),
    (numberedFrom n t).leaves = (t.leaves.zipIdx n).map Prod.swap
  | _, leaf _ => rfl
  | n, group _ ts => leavesAll_numberedAllFrom n ts

theorem leavesAll_numberedAllFrom : ∀ (n : Nat) (ts : List (Tree α)),
    leavesAll (numberedAllFrom n ts) = ((leavesAll ts).zipIdx n).map Prod.swap
  | _, [] => rfl
  | n, t :: ts => by
    rw [numberedAllFrom, leavesAll, leavesAll, leaves_numberedFrom n t,
      leavesAll_numberedAllFrom _ ts, List.zipIdx_append, List.map_append]

end

/-- The number of a leaf is its place among the leaves. -/
theorem mem_leaves_numbered {t : Tree α} {i : Nat} {a : α} :
    (i, a) ∈ t.numbered.leaves ↔ t.leaves[i]? = some a := by
  rw [numbered, leaves_numberedFrom, List.mem_map, ← List.mk_mem_zipIdx_iff_getElem?]
  constructor
  · intro h
    obtain ⟨p, hp, he⟩ := h
    rw [← Prod.swap_swap p, he] at hp
    exact hp
  · intro h
    exact ⟨(a, i), h, rfl⟩

/-! ### Positions -/

theorem mem_leavesAll_iff {ts : List (Tree α)} {a : α} :
    a ∈ leavesAll ts ↔ ∃ t ∈ ts, a ∈ t.leaves := by
  induction ts with
  | nil => simp [leavesAll]
  | cons t ts ih => simp [leavesAll, ih]

/-- What stands at a position has its leaves from the tree. -/
theorem mem_leaves_of_descend? {t u : Tree α} {path : List Nat} (h : t.descend? path = some u)
    {a : α} (ha : a ∈ u.leaves) : a ∈ t.leaves := by
  induction path generalizing t with
  | nil =>
    rw [descend?] at h
    cases h
    exact ha
  | cons i path ih =>
    cases t with
    | leaf b => cases h
    | group l ts =>
      rw [descend?] at h
      split at h
      next t hi => exact mem_leavesAll_iff.2 ⟨t, List.mem_of_getElem? hi, ih h⟩
      next => cases h

theorem depth_pos (t : Tree α) : 0 < t.depth := by
  cases t with
  | leaf a => exact Nat.one_pos
  | group l ts => exact Nat.lt_of_lt_of_le Nat.one_pos (Nat.le_add_right 1 _)

theorem depth_le_depthAll {t : Tree α} {ts : List (Tree α)} (h : t ∈ ts) :
    t.depth ≤ depthAll ts := by
  induction ts with
  | nil => cases h
  | cons u ts ih =>
    rw [depthAll]
    rcases List.mem_cons.1 h with rfl | h
    · exact Nat.le_max_left _ _
    · exact Nat.le_trans (ih h) (Nat.le_max_right _ _)

/-- Every step down the tree is one of its levels. -/
theorem depth_of_descend? {t u : Tree α} {path : List Nat} (h : t.descend? path = some u) :
    path.length + u.depth ≤ t.depth := by
  induction path generalizing t with
  | nil =>
    rw [descend?] at h
    cases h
    exact Nat.le_of_eq (Nat.zero_add _)
  | cons i path ih =>
    cases t with
    | leaf b => cases h
    | group l ts =>
      rw [descend?] at h
      split at h
      next t hi =>
        have hchild := ih h
        have ht := depth_le_depthAll (List.mem_of_getElem? hi)
        rw [List.length_cons, depth]
        omega
      next => cases h

/-! ### Groups of one member -/

/-- The connective that shows between members; with one member none does. -/
def shownLogic (l : Logic) : List (Tree α) → Logic
  | [_] => .and
  | _ => l

theorem shownLogic_cons (l : Logic) {ts : List (Tree α)} (h : ts ≠ []) (t : Tree α) :
    shownLogic l (t :: ts) = l := by
  cases ts with
  | nil => exact absurd rfl h
  | cons u us => rfl

mutual

/-- The tree with one and the same connective at all groups of one member. -/
def settled : Tree α → Tree α
  | leaf a => leaf a
  | group l ts => group (shownLogic l ts) (settledAll ts)

def settledAll : List (Tree α) → List (Tree α)
  | [] => []
  | t :: ts => settled t :: settledAll ts

end

mutual

theorem leaves_settled : ∀ t : Tree α, t.settled.leaves = t.leaves
  | leaf _ => rfl
  | group _ ts => leavesAll_settledAll ts

theorem leavesAll_settledAll : ∀ ts : List (Tree α), leavesAll (settledAll ts) = leavesAll ts
  | [] => rfl
  | t :: ts => by
    rw [settledAll, leavesAll, leavesAll, leaves_settled t, leavesAll_settledAll ts]

end

theorem AlikeAll.shownLogic_eq {ts : List (Tree α)} {us : List (Tree β)} (l : Logic) :
    AlikeAll R ts us → shownLogic l ts = shownLogic l us
  | .nil => rfl
  | .cons _ .nil => rfl
  | .cons _ (.cons _ _) => rfl

mutual

theorem Alike.settled {t : Tree α} {u : Tree β} : Alike R t u → Alike R t.settled u.settled
  | .leaf h => .leaf h
  | .group l h => by
    rw [Tree.settled, Tree.settled, h.shownLogic_eq l]
    exact .group _ h.settled

theorem AlikeAll.settled {ts : List (Tree α)} {us : List (Tree β)} :
    AlikeAll R ts us → AlikeAll R (settledAll ts) (settledAll us)
  | .nil => .nil
  | .cons h hs => .cons h.settled hs.settled

end

theorem shownLogic_numberedAllFrom (l : Logic) (n : Nat) (ts : List (Tree α)) :
    shownLogic l (numberedAllFrom n ts) = shownLogic l ts :=
  ((alikeAll_numbered_self n ts).shownLogic_eq l).symm

mutual

theorem settled_numberedFrom : ∀ (n : Nat) (t : Tree α),
    (numberedFrom n t).settled = numberedFrom n t.settled
  | _, leaf _ => rfl
  | n, group l ts => by
    rw [numberedFrom, settled, settled, numberedFrom, shownLogic_numberedAllFrom,
      settledAll_numberedAllFrom n ts]

theorem settledAll_numberedAllFrom : ∀ (n : Nat) (ts : List (Tree α)),
    settledAll (numberedAllFrom n ts) = numberedAllFrom n (settledAll ts)
  | _, [] => rfl
  | n, t :: ts => by
    rw [numberedAllFrom, settledAll, settledAll, numberedAllFrom, settled_numberedFrom n t,
      settledAll_numberedAllFrom _ ts, leaves_settled]

end

end Criteria.Tree
