import Criteria.Operator
import Criteria.Text.Lowercase

/-! Filter trees.

A `Tree` joins its leaves by *and* and *or*, in groups that may be nested, empty or of
one member. Its leaves have an order, that of reading (`leaves`), and so a number each
(`numbered`). A `Filter` is a tree of comparisons. -/
namespace Criteria

/-- How the children of a group are joined. -/
inductive Logic
  | and
  | or
deriving DecidableEq

namespace Logic

def word : Logic → String
  | and => "and"
  | or => "or"

/-- In any case of ASCII, without white space around. -/
def ofText? (s : String) : Option Logic :=
  let t := Text.asciiLower s
  if t = "and" then some and else if t = "or" then some or else none

end Logic

/-- Groups of groups of leaves. A group may be empty. -/
inductive Tree (α : Type)
  | leaf (a : α)
  | group (logic : Logic) (children : List (Tree α))

/-- A field compared with a value as the client sent it. -/
structure Comparison where
  field : String
  operator : Operator
  operand : Option String
  caseSensitive : Bool
deriving DecidableEq

/-- What a client asks for: a tree of comparisons. -/
abbrev Filter := Tree Comparison

namespace Tree

variable {α β : Type}

mutual

/-- From left to right, whatever the depth. -/
def leaves : Tree α → List α
  | leaf a => [a]
  | group _ ts => leavesAll ts

def leavesAll : List (Tree α) → List α
  | [] => []
  | t :: ts => leaves t ++ leavesAll ts

end

mutual

/-- How many nodes stand above each other; an empty group counts as one. -/
def depth : Tree α → Nat
  | leaf _ => 1
  | group _ ts => 1 + depthAll ts

def depthAll : List (Tree α) → Nat
  | [] => 0
  | t :: ts => max (depth t) (depthAll ts)

end

mutual

/-- Numbers the leaves in order, from `n` on. -/
def numberedFrom (n : Nat) : Tree α → Tree (Nat × α)
  | leaf a => leaf (n, a)
  | group l ts => group l (numberedAllFrom n ts)

def numberedAllFrom (n : Nat) : List (Tree α) → List (Tree (Nat × α))
  | [] => []
  | t :: ts => numberedFrom n t :: numberedAllFrom (n + (leaves t).length) ts

end

/-- The leaves with their places, in the order of reading. -/
def numbered (t : Tree α) : Tree (Nat × α) := numberedFrom 0 t

mutual

/-- The same tree with other leaves. -/
def map (f : α → β) : Tree α → Tree β
  | leaf a => leaf (f a)
  | group l ts => group l (mapAll f ts)

def mapAll (f : α → β) : List (Tree α) → List (Tree β)
  | [] => []
  | t :: ts => map f t :: mapAll f ts

end

/-- The node reached by going from child to child. -/
def descend? : Tree α → List Nat → Option (Tree α)
  | t, [] => some t
  | leaf _, _ :: _ => none
  | group _ ts, i :: path => match ts[i]? with
    | some t => descend? t path
    | none => none

end Tree
end Criteria
