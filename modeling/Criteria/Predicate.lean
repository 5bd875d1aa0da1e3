import Criteria.Schema
import Criteria.Text.Digits
import Criteria.Tree

/-! Predicates over a record.

A predicate joins atoms by *and* and *or*. An atom tests one field and refers to its
value, if it needs one, by the number of a placeholder. Every group is written in
parentheses, so the text reads the same whichever connective binds tighter. -/
namespace Criteria

/-- A test of one field. -/
inductive Atom
  | compare (field : String) (relation : Relation) (placeholder : Nat)
  | call (negated : Bool) (field : String) (folded : Bool) (method : Method) (placeholder : Nat)
  | nullness (field : String) (relation : Relation)
  | emptiness (negated : Bool) (field : String)
deriving DecidableEq

/-- What a filter becomes: a tree of tests. -/
abbrev Predicate := Tree Atom

namespace Atom

/-! ### From a comparison -/

/-- How a comparison with `field` is tested, with its value at `placeholder`. Text is
compared by methods, and lowered first unless its case matters. -/
def of (field : Field) (operator : Operator) (caseSensitive : Bool) (placeholder : Nat) : Atom :=
  let folded := field.type.isString && !caseSensitive
  let call := fun (negated : Bool) (method : Method) =>
    Atom.call negated field.name folded method placeholder
  let compare := fun (r : Relation) => Atom.compare field.name r placeholder
  match operator with
  | .eq => if folded then call false .equals else compare .eq
  | .neq => compare .ne
  | .lt => compare .lt
  | .lte => compare .le
  | .gt => compare .gt
  | .gte => compare .ge
  | .isNull => if field.type.isString then emptiness false field.name else nullness field.name .eq
  | .isNotNull => if field.type.isString then emptiness true field.name else nullness field.name .ne
  | .startsWith => call false .startsWith
  | .endsWith => call false .endsWith
  | .contains => call false .contains
  | .doesNotContain => call true .contains
  | .isEmpty => emptiness false field.name
  | .isNotEmpty => emptiness true field.name

/-! ### Text -/

/-- How the value with this number is referred to. -/
def placeholderText (n : Nat) : String := "@" ++ Text.decimal n

/-- The field, or its text in small letters. -/
def access (field : String) (folded : Bool) : String :=
  if folded then field ++ ".ToLower()" else field

/-- What stands before a call that is denied. -/
def negation (negated : Bool) : String := if negated then "!" else ""

def text : Atom → String
  | compare field relation n => field ++ " " ++ relation.sign ++ " " ++ placeholderText n
  | call negated field folded method n =>
    negation negated ++ access field folded ++ "." ++ method.name ++ "(" ++ placeholderText n ++ ")"
  | nullness field relation => field ++ " " ++ relation.sign ++ " null"
  | emptiness negated field => negation negated ++ "String.IsNullOrEmpty(" ++ field ++ ")"

end Atom

namespace Predicate

mutual

/-- A predicate as it is written, every group in parentheses. -/
def text : Tree Atom → String
  | .leaf a => a.text
  | .group l ts => "(" ++ (" " ++ l.word ++ " ").intercalate (texts ts) ++ ")"

def texts : List (Tree Atom) → List String
  | [] => []
  | t :: ts => text t :: texts ts

end

end Predicate
end Criteria
