import Criteria.Proofs.Json.Reading

/-! What has been taken, found from what is left.

The readers of lists, objects and records, followed backwards. A list has been taken as one element
after the other (`ElementsTaken`) and an object as one member after the other (`MembersTaken`), each
from where the one before has left off (`Next`). What every step preserves is the case at the end
(`MembersTaken.preserves`). A record starts with the bracket of one of its two spellings
(`spelling_of_record`), and a field that may be missing is there or not (`optional_cases`,
`slot_cases`). -/
namespace Criteria.Json.Reader

open Text

variable {α σ : Type} {s r t u v : List Char} {item : Reader α} {origin : List Char}
variable {step : σ → String → Reader σ} {state state' final : σ}

/-- What has been read from a text has been taken off its front. -/
theorem takes_of_run {x : Reader α} {text : String} {a : α} (h : run x text = .ok a) :
    ∃ r, Takes x text.toList a r := by
  unfold run at h
  split at h
  · cases h
  next a r hr hx =>
    split at h
    · cases h
      exact ⟨r, hr, hx⟩
    · cases h

/-! ### The next part -/

/-- The text of the next part: all there is before the first part, and from then on what follows
a comma. -/
inductive Next : Bool → List Char → List Char → Prop
  | first (s : List Char) : Next true s s
  | later {s t : List Char} : afterSpace s = ',' :: t → Next false s t

theorem next_of_anotherElement {first : Bool} {h : t.length < s.length + first.toNat}
    (hnext : anotherElement first s = .ok (some ⟨t, h⟩)) :
    ∃ u, Next first s u ∧ afterSpace u = t := by
  unfold anotherElement at hnext
  split at hnext
  · cases hnext
  next c r hs =>
    split at hnext
    · cases hnext
    split at hnext
    next hfirst =>
      cases hfirst
      cases hnext
      exact ⟨s, .first s, hs⟩
    next hfirst =>
      split at hnext
      next hc =>
        cases eq_false_of_ne_true hfirst
        subst hc
        split at hnext
        · cases hnext
        next d u hr =>
          split at hnext
          · cases hnext
          · cases hnext
            exact ⟨r, .later hs, hr⟩
      next => cases hnext

theorem closed_of_anotherElement {first : Bool} (hnext : anotherElement first s = .ok none) :
    ∃ t, afterSpace s = ']' :: t := by
  unfold anotherElement at hnext
  split at hnext
  · cases hnext
  next c r hs =>
    split at hnext
    next hc =>
      subst hc
      exact ⟨r, hs⟩
    next =>
      -- all other ways either fail or find an element
      repeat' split at hnext
      all_goals cases hnext

theorem next_of_anotherKey {first : Bool} {h : t.length < s.length}
    (hnext : anotherKey first s = .ok (true, ⟨t, h⟩)) :
    ∃ u, Next first s u ∧ afterSpace u = '"' :: t := by
  unfold anotherKey at hnext
  split at hnext
  · cases hnext
  next c r hs =>
    split at hnext
    · cases hnext
    split at hnext
    next hfirst =>
      split at hnext
      next hc =>
        subst hfirst hc
        cases hnext
        exact ⟨s, .first s, hs⟩
      next => cases hnext
    next hfirst =>
      split at hnext
      next hc =>
        cases eq_false_of_ne_true hfirst
        subst hc
        split at hnext
        · cases hnext
        next d u hr =>
          split at hnext
          next hd =>
            subst hd
            cases hnext
            exact ⟨r, .later hs, hr⟩
          next => split at hnext <;> cases hnext
      next => cases hnext

theorem closed_of_anotherKey {first : Bool} {h : t.length < s.length}
    (hnext : anotherKey first s = .ok (false, ⟨t, h⟩)) : afterSpace s = '\x7d' :: t := by
  unfold anotherKey at hnext
  split at hnext
  · cases hnext
  next c r hs =>
    split at hnext
    next hc =>
      subst hc
      cases hnext
      exact hs
    next =>
      -- all other ways either fail or find a key
      repeat' split at hnext
      all_goals cases hnext

/-! ### Lists and objects -/

/-- One element after the other has been taken, up to the closing bracket. -/
inductive ElementsTaken (item : Reader α) : Bool → List Char → List α → List Char → Prop
  | nil {first : Bool} {s t : List Char} : afterSpace s = ']' :: t →
      ElementsTaken item first s [] s
  | cons {first : Bool} {s t u r : List Char} {a : α} {as : List α} : Next first s t →
      Takes item (afterSpace t) a u → ElementsTaken item false u as r →
      ElementsTaken item first s (a :: as) r

theorem elementsTaken_of_elementsFrom {first : Bool} {taken as : List α}
    {h : s.length ≤ origin.length} {h' : r.length ≤ origin.length}
    (hs : elementsFrom item origin first taken s h = .ok ⟨as, r, h'⟩) :
    ∃ bs, as = taken.reverse ++ bs ∧ ElementsTaken item first s bs r := by
  fun_induction elementsFrom item origin first taken s h with
  | case1 => cases hs
  | case2 first taken s h hnext =>
    cases hs
    obtain ⟨t, hclosed⟩ := closed_of_anotherElement hnext
    exact ⟨[], (List.append_nil _).symm, .nil hclosed⟩
  | case3 => cases hs
  | case4 first taken s h t ht hnext _ a u hu hitem ih =>
    obtain ⟨v, hv, rfl⟩ := next_of_anotherElement hnext
    obtain ⟨bs, rfl, hbs⟩ := ih hs
    refine ⟨a :: bs, ?_, .cons hv ⟨hu, hitem⟩ hbs⟩
    rw [List.reverse_cons, List.append_assoc, List.singleton_append]

/-- A list that has been read consists of elements and commas up to its bracket. -/
theorem elementsTaken_of_takes {as : List α} (h : Takes (elements item) s as r) :
    ∃ t, ElementsTaken item true s as t ∧ Takes closeList t () r := by
  obtain ⟨bs, t, hbs, h⟩ := takes_bind_iff.1 h
  obtain ⟨⟨⟩, u, hclose, h⟩ := takes_bind_iff.1 h
  obtain ⟨rfl, rfl⟩ := takes_pure_iff.1 h
  obtain ⟨_, hbs⟩ := hbs
  obtain ⟨as, rfl, has⟩ := elementsTaken_of_elementsFrom hbs
  exact ⟨t, has, hclose⟩

/-- One member after the other has been taken, up to and with the closing brace. -/
inductive MembersTaken (step : σ → String → Reader σ) :
    Bool → σ → List Char → σ → List Char → Prop
  | nil {first : Bool} {state : σ} {s r : List Char} : afterSpace s = '\x7d' :: r →
      MembersTaken step first state s state r
  | cons {first : Bool} {state state' final : σ} {s t u v w r : List Char} {key : String} :
      Next first s t → afterSpace t = '"' :: u → Takes string u key v →
      Takes (step state key) v state' w → MembersTaken step false state' w final r →
      MembersTaken step first state s final r

theorem membersTaken_of_membersFrom {first : Bool} {h : s.length ≤ origin.length}
    {h' : r.length ≤ origin.length}
    (hs : membersFrom step origin first state s h = .ok ⟨final, r, h'⟩) :
    MembersTaken step first state s final r := by
  fun_induction membersFrom step origin first state s h with
  | case1 => cases hs
  | case2 first state s h t ht hnext =>
    cases hs
    exact .nil (closed_of_anotherKey hnext)
  | case3 => cases hs
  | case4 => cases hs
  | case5 first state s h t ht hnext key u hu hkey state' v hv hstep ih =>
    obtain ⟨w, hw, hquote⟩ := next_of_anotherKey hnext
    exact .cons hw hquote ⟨hu, hkey⟩ ⟨hv, hstep⟩ (ih hs)

/-- An object that has been read consists of members and commas up to its brace. -/
theorem membersTaken_of_takes (h : Takes (members step state) s final r) :
    MembersTaken step true state s final r := by
  obtain ⟨_, h⟩ := h
  exact membersTaken_of_membersFrom h

/-- All elements that have been taken have been taken from somewhere. -/
theorem ElementsTaken.exists_text {first : Bool} {as : List α}
    (h : ElementsTaken item first s as r) : ∀ a ∈ as, ∃ t u, Takes item t a u := by
  induction h with
  | nil => nofun
  | @cons first s t u r a as _ ha _ ih =>
    intro b hb
    rcases List.mem_cons.1 hb with rfl | hb
    · exact ⟨afterSpace t, u, ha⟩
    · exact ih b hb

/-- What every step preserves is the case at the end. -/
theorem MembersTaken.preserves {P : σ → Prop} (hkeep : ∀ state key s state' r,
      Takes (step state key) s state' r → P state → P state') {first : Bool}
    (h : MembersTaken step first state s final r) (hstate : P state) : P final := by
  induction h with
  | nil => exact hstate
  | @cons first state state' final s t u v w r key _ _ _ ht _ ih =>
    exact ih (hkeep state key v state' w ht hstate)

/-! ### Brackets -/

/-- A container starts with its bracket. -/
theorem bracket_of_startAfter {st : Start} {c : Char} (h : Takes (startAfter c) s st r) :
    (st = .array → c = '[' ∧ r = s) ∧ (st = .object → c = '\x7b' ∧ r = s) := by
  unfold startAfter at h
  split at h
  case h_6 | h_7 =>
    obtain ⟨rfl, rfl⟩ := takes_pure_iff.1 h
    simp
  case h_8 => exact absurd h not_takes_fail
  all_goals
    obtain ⟨_, _, -, h⟩ := takes_bind_iff.1 h
    obtain ⟨rfl, -⟩ := takes_pure_iff.1 h
    exact ⟨nofun, nofun⟩

/-- What starts like a container has its bracket in front. -/
theorem bracket_of_start {st : Start} (h : Takes start s st r) :
    (st = .array → afterSpace s = '[' :: r) ∧ (st = .object → afterSpace s = '\x7b' :: r) := by
  obtain ⟨_, t, hspace, h⟩ := takes_bind_iff.1 h
  obtain ⟨_, rfl⟩ := takes_unique hspace ⟨_, rfl⟩
  obtain ⟨c, t, hpeek, h⟩ := takes_bind_iff.1 h
  obtain ⟨rfl, rfl⟩ := takes_unique hpeek ⟨_, rfl⟩
  cases hs : afterSpace s with
  | nil =>
    rw [hs] at h
    exact absurd h not_takes_fail
  | cons c t =>
    rw [hs] at h
    simp only [List.head?_cons] at h
    split at h
    · obtain ⟨_, _, -, h⟩ := takes_bind_iff.1 h
      obtain ⟨rfl, -⟩ := takes_pure_iff.1 h
      exact ⟨nofun, nofun⟩
    · obtain ⟨_, u, hnext, hafter⟩ := takes_bind_iff.1 h
      obtain ⟨-, rfl⟩ := takes_unique hnext (takes_next c t)
      obtain ⟨harray, hobject⟩ := bracket_of_startAfter hafter
      constructor
      · intro hst
        obtain ⟨rfl, rfl⟩ := harray hst
        rfl
      · intro hst
        obtain ⟨rfl, rfl⟩ := hobject hst
        rfl

/-- A record is written as an array or as an object. -/
theorem spelling_of_record {a : α} {name : String} {positional keyed : Reader α}
    (h : Takes (record name positional keyed) s a r) :
    (∃ t, afterSpace s = '[' :: t ∧ Takes positional t a r) ∨
      ∃ t, afterSpace s = '\x7b' :: t ∧ Takes keyed t a r := by
  obtain ⟨st, t, hstart, h⟩ := takes_bind_iff.1 h
  split at h
  · exact .inl ⟨t, (bracket_of_start hstart).1 rfl, h⟩
  · exact .inr ⟨t, (bracket_of_start hstart).2 rfl, h⟩
  · exact absurd h not_takes_fail

theorem bracket_of_sequence {a : α} {inside : Reader α} (h : Takes (sequence inside) s a r) :
    ∃ t, afterSpace s = '[' :: t ∧ Takes inside t a r := by
  obtain ⟨st, t, hstart, h⟩ := takes_bind_iff.1 h
  split at h
  · exact ⟨t, (bracket_of_start hstart).1 rfl, h⟩
  · exact absurd h not_takes_fail

/-! ### Fields -/

/-- Nothing is there, and it starts like null, or it has been taken. -/
theorem optional_cases {x : Reader α} {o : Option α} (h : Takes (optional x) s o r) :
    (o = none ∧ ∃ t, afterSpace s = 'n' :: t) ∨
      ∃ a, o = some a ∧ Takes x (afterSpace s) a r := by
  obtain ⟨_, t, hspace, h⟩ := takes_bind_iff.1 h
  obtain ⟨_, rfl⟩ := takes_unique hspace ⟨_, rfl⟩
  obtain ⟨c, t, hpeek, h⟩ := takes_bind_iff.1 h
  obtain ⟨rfl, rfl⟩ := takes_unique hpeek ⟨_, rfl⟩
  split at h
  next hn =>
    obtain ⟨_, _, -, h⟩ := takes_bind_iff.1 h
    obtain ⟨_, _, -, h⟩ := takes_bind_iff.1 h
    obtain ⟨rfl, -⟩ := takes_pure_iff.1 h
    exact .inl ⟨rfl, List.head?_eq_some_iff.1 hn⟩
  next =>
    obtain ⟨a, t, ha, h⟩ := takes_bind_iff.1 h
    obtain ⟨rfl, rfl⟩ := takes_pure_iff.1 h
    exact .inr ⟨a, rfl, ha⟩

theorem afterSpace_of_colon (h : Takes colon s () r) : afterSpace s = ':' :: r := by
  obtain ⟨_, t, hspace, h⟩ := takes_bind_iff.1 h
  obtain ⟨_, rfl⟩ := takes_unique hspace ⟨_, rfl⟩
  obtain ⟨c, t, hnext, h⟩ := takes_bind_iff.1 h
  obtain ⟨rfl, rfl⟩ := takes_unique hnext ⟨_, rfl⟩
  split at h
  next hc =>
    obtain ⟨t, ht⟩ := List.head?_eq_some_iff.1 hc
    obtain ⟨-, rfl⟩ := takes_pure_iff.1 h
    rw [ht]
    rfl
  · exact absurd h not_takes_fail
  · exact absurd h not_takes_fail

/-- A field is given once, with its value after the colon. -/
theorem given_of_once {x : Reader α} {name : String} {seen o : Option α}
    (h : Takes (once name seen x) s o r) :
    seen = none ∧ ∃ a t, o = some a ∧ Takes colon s () t ∧ Takes x t a r := by
  unfold once at h
  cases seen with
  | some a => exact absurd h not_takes_fail
  | none =>
    obtain ⟨⟨⟩, t, hcolon, h⟩ := takes_bind_iff.1 h
    obtain ⟨a, u, ha, h⟩ := takes_bind_iff.1 h
    obtain ⟨rfl, rfl⟩ := takes_pure_iff.1 h
    exact ⟨rfl, a, t, rfl, hcolon, ha⟩

/-- The next element has been taken, or the list has ended and all is left as it was. -/
theorem slot_cases {x : Reader α} {first : Bool} {o : Option α} (h : Takes (slot first x) s o r) :
    (∃ a t, o = some a ∧ Next first s t ∧ Takes x (afterSpace t) a r) ∨
      o = none ∧ r = s ∧ ∃ t, afterSpace s = ']' :: t := by
  obtain ⟨b, t, ⟨_, hnext⟩, h⟩ := takes_bind_iff.1 h
  unfold hasElement at hnext
  split at hnext
  · cases hnext
  next hclosed =>
    cases hnext
    obtain ⟨rfl, rfl⟩ := takes_pure_iff.1 h
    exact .inr ⟨rfl, rfl, closed_of_anotherElement hclosed⟩
  next hnext' =>
    cases hnext
    obtain ⟨u, hu, rfl⟩ := next_of_anotherElement hnext'
    obtain ⟨a, v, ha, h⟩ := takes_bind_iff.1 h
    obtain ⟨rfl, rfl⟩ := takes_pure_iff.1 h
    exact .inl ⟨a, u, rfl, hu, ha⟩

/-- An element in its place has a comma before it, unless it is the first. -/
theorem element_of_place {x : Reader α} {position size : Nat} {name : String} {a : α}
    (h : Takes (place position name size x) s a r) :
    ∃ t, Next (position == 0) s t ∧ Takes x (afterSpace t) a r := by
  obtain ⟨o, u, hslot, h⟩ := takes_bind_iff.1 h
  rcases slot_cases hslot with ⟨b, t, rfl, ht, hb⟩ | ⟨rfl, -, -⟩
  · obtain ⟨rfl, rfl⟩ := takes_pure_iff.1 h
    exact ⟨t, ht, hb⟩
  · exact absurd h not_takes_fail

end Criteria.Json.Reader
