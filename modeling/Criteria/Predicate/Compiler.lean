import Criteria.Coercion
import Criteria.Predicate
import Criteria.Predicate.Slots

/-! Compiling filters into predicates.

A compiler knows the leaves it works for by their place in the order of reading, and
has one slot for each. Leaves that look alike differ by their place; a leaf that
belongs to another tree has none. A leaf that is compiled has its value coerced into
its slot, unless an earlier compilation has done so, and becomes an atom that refers
to the slot. The first error ends a compilation, and what has been coerced before it
stays.

`compile` does all of it for one tree. -/
namespace Criteria

/-- The leaves of a compiler, by their places, in the order of their slots. A place may
be listed more than once; its last slot counts. -/
structure Numbering where
  places : List Nat

namespace Numbering

/-- Every leaf of a tree, in the order of reading. -/
def all (n : Nat) : Numbering := ⟨List.range n⟩

/-- How many slots there are, one for each place listed. -/
def slots (l : Numbering) : Nat := l.places.length

/-- How many leaves there are, each counted once. -/
def distinct (l : Numbering) : Nat := l.places.eraseDups.length

/-- The slot of a place, the last one if there are several. -/
def slot? (l : Numbering) (place : Nat) : Option Nat :=
  (l.places.zipIdx.reverse.find? (·.1 == place)).map (·.2)

end Numbering

/-- A leaf with its place, if it belongs to the tree of the compiler. -/
structure Occurrence where
  place : Option Nat
  comparison : Comparison

namespace Occurrence

/-- The leaves of a tree in their own places. -/
def own (f : Filter) : Tree Occurrence := f.numbered.map fun p => ⟨some p.1, p.2⟩

/-- Leaves that belong nowhere. -/
def strange (f : Filter) : Tree Occurrence := f.map (⟨none, ·⟩)

end Occurrence

/-- What a compilation goes by. -/
structure Compiler where
  schema : Schema
  locale : Locale
  numbering : Numbering

namespace Compiler

/-- The atom of a leaf and the slots after it. The field is looked up before the place, and the
value is coerced last, unless the slot has one. -/
def leaf (c : Compiler) (o : Occurrence) (s : Slots) : Except Error Atom × Slots :=
  match c.schema.resolve? o.comparison.field with
  | none => (.error (.unresolvedField o.comparison.field), s)
  | some field => match o.place.bind c.numbering.slot? with
    | none => (.error (.malformed .stranger), s)
    | some i =>
      let (value, s) := s.obtain i fun _ =>
        coerce c.locale field o.comparison.operator o.comparison.caseSensitive o.comparison.operand
      (value.map fun _ => .of field o.comparison.operator o.comparison.caseSensitive i, s)

mutual

/-- The predicate of a node and the slots after it. -/
def node (c : Compiler) : Tree Occurrence → Slots → Except Error Predicate × Slots
  | .leaf o, s =>
    let (r, s) := c.leaf o s
    (r.map .leaf, s)
  | .group _ [], s => (.error (.malformed .noChildren), s)
  | .group l (t :: ts), s =>
    let (r, s) := nodes c (t :: ts) s
    (r.map (.group l), s)

/-- Nodes from left to right, up to the first error. -/
def nodes (c : Compiler) : List (Tree Occurrence) → Slots → Except Error (List Predicate) × Slots
  | [], s => (.ok [], s)
  | t :: ts, s => match node c t s with
    | (.error e, s) => (.error e, s)
    | (.ok p, s) => match nodes c ts s with
      | (.error e, s) => (.error e, s)
      | (.ok ps, s) => (.ok (p :: ps), s)

end

/-- One slot for each place, all of them empty. -/
def start (c : Compiler) : Slots := .ofSize c.numbering.slots

end Compiler

/-- A predicate and the values of its placeholders, in order. -/
structure Compiled where
  predicate : Predicate
  parameters : List Value

def Compiled.text (c : Compiled) : String := Predicate.text c.predicate

/-- The predicate of a filter. -/
def compile (schema : Schema) (locale : Locale) (f : Filter) : Except Error Compiled :=
  let c : Compiler := ⟨schema, locale, .all f.leaves.length⟩
  let (r, s) := c.node (Occurrence.own f) c.start
  r.map fun p => ⟨p, s.bound⟩

end Criteria
