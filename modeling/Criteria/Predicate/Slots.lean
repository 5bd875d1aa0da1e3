import Criteria.Value

/-! Slots for the values of a predicate, each filled at most once.

`obtain` gives the value of a slot and computes it only when there is none. A failed
computation leaves the slot empty, and a stored null is a value like any other. -/
namespace Criteria

/-- What has been coerced so far, by the number of the slot. -/
structure Slots where
  values : List (Option Value)
deriving DecidableEq

namespace Slots

def ofSize (n : Nat) : Slots := ⟨List.replicate n none⟩

def size (s : Slots) : Nat := s.values.length

def isEmpty (s : Slots) : Bool := s.values.isEmpty

/-- The value of a slot, if there is such a slot and it has been filled. -/
def get? (s : Slots) (i : Nat) : Option Value := s.values[i]?.join

def fill (s : Slots) (i : Nat) (v : Value) : Slots := ⟨s.values.set i (some v)⟩

/-- The value at `i`, computed and kept when there is none. -/
def obtain (s : Slots) (i : Nat) (compute : Unit → Except ε Value) : Except ε Value × Slots :=
  match s.get? i with
  | some v => (.ok v, s)
  | none => match compute () with
    | .ok v => (.ok v, s.fill i v)
    | .error e => (.error e, s)

/-- As `obtain`, and nothing when there is no slot `i`; also whether a value was
computed. -/
def obtain? (s : Slots) (i : Nat) (compute : Unit → Except ε Value) :
    Option (Except ε Value × Bool × Slots) :=
  if i < s.size then
    let (r, t) := s.obtain i compute
    some (r, (s.get? i).isNone, t)
  else none

/-- The values in order, null where there is none. -/
def bound (s : Slots) : List Value := s.values.map (·.getD .null)

theorem size_ofSize (n : Nat) : (ofSize n).size = n := by simp [ofSize, size]

theorem get?_ofSize (n i : Nat) : (ofSize n).get? i = none := by
  simp only [ofSize, get?, List.getElem?_replicate]
  split <;> rfl

theorem size_fill (s : Slots) (i : Nat) (v : Value) : (s.fill i v).size = s.size := by
  simp [fill, size]

theorem get?_fill (s : Slots) {i : Nat} (h : i < s.size) (v : Value) (j : Nat) :
    (s.fill i v).get? j = if i = j then some v else s.get? j := by
  simp only [fill, get?, List.getElem?_set]
  split <;> rename_i hij
  · subst hij
    simp only [size] at h
    simp [h]
  · rfl

end Slots
end Criteria
