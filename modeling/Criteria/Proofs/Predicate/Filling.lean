import Criteria.Proofs.Predicate.Compilation

/-! How slots are filled.

A slot is asked for its value any number of times, each time with a computation that may fail. One
request fills its own slot or none (`get?_keep`), so that after any number of them a slot holds the
value of the first computation for it that succeeded, and is empty if there was none
(`exists_run?`). A value is kept for good, null included: no later computation for its slot is run
(`run_writes_once`). Only the list of bound values shows null and an empty slot alike
(`bound_eq`). -/
namespace Criteria.Slots

variable {s : Slots} {n i : Nat} {v : Value}

/-! ### One request -/

section Request

variable {ε : Type}

theorem lt_size_of_get? (h : s.get? i = some v) : i < s.size := by
  by_contra hsize
  rw [get?, List.getElem?_eq_none (Nat.le_of_not_lt hsize)] at h
  cases h

/-- The slots after a computation for the slot `i`. -/
def keep (s : Slots) (i : Nat) : Except ε Value → Slots
  | .ok v => s.fill i v
  | .error _ => s

theorem size_keep (s : Slots) (i : Nat) (x : Except ε Value) : (s.keep i x).size = s.size := by
  cases x with
  | ok v => exact size_fill s i v
  | error e => rfl

/-- An empty slot takes the value, if there is one. The other slots keep theirs. -/
theorem get?_keep (hi : i < s.size) (hempty : s.get? i = none) (x : Except ε Value) (j : Nat) :
    (s.keep i x).get? j = (s.get? j).or (if i = j then x.toOption else none) := by
  cases x with
  | ok v =>
    rw [keep, get?_fill s hi]
    by_cases hij : i = j
    · subst hij
      rw [if_pos rfl, if_pos rfl, hempty]
      rfl
    · rw [if_neg hij, if_neg hij, Option.or_none]
  | error e => rw [keep, Except.toOption, ite_self, Option.or_none]

/-- A filled slot does not look at the computation. -/
theorem obtain?_stored (h : s.get? i = some v) (compute : Unit → Except ε Value) :
    s.obtain? i compute = some (.ok v, false, s) := by
  rw [obtain?, if_pos (lt_size_of_get? h), obtain_stored h, h]
  rfl

theorem obtain?_empty (hi : i < s.size) (h : s.get? i = none) (compute : Unit → Except ε Value) :
    s.obtain? i compute = some (compute (), true, s.keep i (compute ())) := by
  rw [obtain?, if_pos hi, obtain, h]
  cases compute () <;> rfl

/-- What was stored comes first, and what the request brings comes second. -/
theorem exists_obtain? (hi : i < s.size) (compute : Unit → Except ε Value) :
    ∃ x ran t, s.obtain? i compute = some (x, ran, t) ∧ t.size = s.size ∧
      ∀ j, t.get? j = (s.get? j).or (if i = j then (compute ()).toOption else none) := by
  cases h : s.get? i with
  | some v =>
    refine ⟨_, _, _, obtain?_stored h compute, rfl, fun j => ?_⟩
    by_cases hij : i = j
    · rw [← hij, h, Option.some_or]
    · rw [if_neg hij, Option.or_none]
  | none => exact ⟨_, _, _, obtain?_empty hi h compute, size_keep s i _, get?_keep hi h _⟩

end Request

/-! ### Any number of requests -/

/-- A request for the value of a slot. Each may fail in its own way. -/
structure Request where
  Failure : Type
  slot : Nat
  compute : Unit → Except Failure Value

variable {requests : List Request}

/-- The value of the first computation for `i` that succeeds. -/
def first? (requests : List Request) (i : Nat) : Option Value :=
  requests.findSome? fun q => if q.slot = i then (q.compute ()).toOption else none

/-- The slots after one request after the other, when there is a slot for each. -/
def run? : List Request → Slots → Option Slots
  | [], s => some s
  | q :: requests, s => (s.obtain? q.slot q.compute).bind fun r => run? requests r.2.2

theorem first?_cons (q : Request) (requests : List Request) (i : Nat) :
    first? (q :: requests) i =
      (if q.slot = i then (q.compute ()).toOption else none).or (first? requests i) := by
  rw [first?, List.findSome?_cons]
  split
  next v hv => rw [hv, Option.some_or]
  next hv => rw [hv, Option.none_or, first?]

theorem run?_append (before after : List Request) (s : Slots) :
    run? (before ++ after) s = (run? before s).bind (run? after) := by
  induction before generalizing s with
  | nil => rfl
  | cons q before ih => simp only [List.cons_append, run?, ih, Option.bind_assoc]

/-- After a run a slot holds what it held before, or else what the first successful request for
it brought. -/
theorem exists_run? (h : ∀ q ∈ requests, q.slot < s.size) :
    ∃ t, run? requests s = some t ∧ t.size = s.size ∧
      ∀ i, t.get? i = (s.get? i).or (first? requests i) := by
  induction requests generalizing s with
  | nil => exact ⟨s, rfl, rfl, fun i => Option.or_none.symm⟩
  | cons q requests ih =>
    obtain ⟨x, ran, t, hq, hsize, hget⟩ := exists_obtain? (h q List.mem_cons_self) q.compute
    have hrest : ∀ p ∈ requests, p.slot < t.size := fun p hp =>
      hsize ▸ h p (List.mem_cons_of_mem q hp)
    obtain ⟨u, hrun, husize, huget⟩ := ih hrest
    refine ⟨u, ?_, husize.trans hsize, fun i => ?_⟩
    · rw [run?, hq]
      exact hrun
    · rw [huget, hget, first?_cons, Option.or_assoc]

/-! ### From empty slots -/

/-- What slots owe that have been asked for values: they hold the first ones, they answer with what
they hold, and they run a computation only for an empty slot, where a failure changes nothing. -/
structure WrittenOnce (n : Nat) (requests : List Request) (s : Slots) : Prop where
  size : s.size = n
  get? : ∀ i, s.get? i = first? requests i
  stored : ∀ i v, first? requests i = some v → ∀ {ε : Type} (compute : Unit → Except ε Value),
    s.obtain? i compute = some (.ok v, false, s)
  computed : ∀ i, i < n → first? requests i = none →
    ∀ {ε : Type} (compute : Unit → Except ε Value), ∃ t,
      s.obtain? i compute = some (compute (), true, t) ∧ t.get? i = (compute ()).toOption ∧
        (∀ e, compute () = .error e → t = s) ∧ ∀ j, j ≠ i → t.get? j = s.get? j

theorem exists_writtenOnce (h : ∀ q ∈ requests, q.slot < n) :
    ∃ s, run? requests (ofSize n) = some s ∧ WrittenOnce n requests s := by
  obtain ⟨s, hrun, hsize, hget⟩ := exists_run? (s := ofSize n) (by rwa [size_ofSize])
  have hfirst : ∀ i, s.get? i = first? requests i := fun i => by
    rw [hget, get?_ofSize, Option.none_or]
  rw [size_ofSize] at hsize
  refine ⟨s, hrun, hsize, hfirst, fun i v hv _ compute => ?_, fun i hi hnone _ compute => ?_⟩
  · exact obtain?_stored ((hfirst i).trans hv) compute
  · have hempty : s.get? i = none := (hfirst i).trans hnone
    have hkeep := get?_keep (hsize ▸ hi) hempty (compute ())
    refine ⟨_, obtain?_empty (hsize ▸ hi) hempty compute, ?_, fun e he => ?_, fun j hj => ?_⟩
    · rw [hkeep, hempty, if_pos rfl, Option.none_or]
    · rw [he, keep]
    · rw [hkeep, if_neg hj.symm, Option.or_none]

/-- Null is bound for an empty slot. -/
theorem bound_eq (s : Slots) :
    s.bound = (List.range s.size).map fun i => (s.get? i).getD .null := by
  refine List.ext_getElem (by simp [bound, size]) fun i hi _ => ?_
  rw [bound, List.length_map] at hi
  simp [bound, Slots.get?, hi]

/-- **A slot is written once.** Slots that start empty and are asked for values any number of times,
with any computations, hold at every point the value of the first computation for each slot that
succeeded. Nothing else is ever stored, and no later computation is run for a slot that is filled,
also if it is filled with null. At the end the first values are bound, and null where there is
none. -/
theorem run_writes_once (h : ∀ q ∈ requests, q.slot < n) :
    (∀ before after, requests = before ++ after → ∃ s, run? before (ofSize n) = some s ∧
      run? after s = run? requests (ofSize n) ∧ WrittenOnce n before s) ∧
    ∃ s, run? requests (ofSize n) = some s ∧
      s.bound = (List.range n).map fun i => (first? requests i).getD .null := by
  constructor
  · rintro before after rfl
    obtain ⟨s, hrun, hs⟩ := exists_writtenOnce fun q hq => h q (List.mem_append_left after hq)
    refine ⟨s, hrun, ?_, hs⟩
    rw [run?_append, hrun, Option.bind_some]
  · obtain ⟨s, hrun, hs⟩ := exists_writtenOnce h
    refine ⟨s, hrun, ?_⟩
    simp only [bound_eq, hs.size, hs.get?]

/-- A failure, a null and a number for the same slot: null stays, and the other slot stays empty,
although both are bound alike. -/
theorem run_writes_once_null :
    let requests : List Request :=
      [⟨String, 1, fun _ => .error "too early"⟩, ⟨Unit, 1, fun _ => .ok .null⟩,
        ⟨Unit, 1, fun _ => .ok (.integer 5)⟩]
    (∀ q ∈ requests, q.slot < 2) ∧ ∃ s, run? requests (ofSize 2) = some s ∧ s.get? 0 = none ∧
      s.get? 1 = some .null ∧ s.bound = [.null, .null] ∧
      s.obtain? 1 (fun _ => .error "too late") = some (.ok .null, false, s) := by
  intro requests
  have hslots : ∀ q ∈ requests, q.slot < 2 := by simp [requests]
  obtain ⟨hpoints, s, hs, hbound⟩ := run_writes_once hslots
  obtain ⟨t, ht, -, hwritten⟩ := hpoints requests [] (List.append_nil requests).symm
  cases hs.symm.trans ht
  exact ⟨hslots, s, hs, hwritten.get? 0, hwritten.get? 1, hbound, hwritten.stored 1 .null rfl _⟩

end Criteria.Slots
