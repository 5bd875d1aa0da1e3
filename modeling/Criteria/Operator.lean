/-! Comparison operators of a filter.

Each has a code by which clients name it. What it becomes in a predicate is either a
relation between two values, or a method called on the field, or a test for emptiness. -/
namespace Criteria

/-- How two values of an ordered type can be compared. -/
inductive Relation
  | eq
  | ne
  | lt
  | le
  | gt
  | ge
deriving DecidableEq

def Relation.sign : Relation → String
  | .eq => "="
  | .ne => "!="
  | .lt => "<"
  | .le => "<="
  | .gt => ">"
  | .ge => ">="

/-- How texts are compared, as methods of a text. -/
inductive Method
  | equals
  | startsWith
  | endsWith
  | contains
deriving DecidableEq

def Method.name : Method → String
  | .equals => "Equals"
  | .startsWith => "StartsWith"
  | .endsWith => "EndsWith"
  | .contains => "Contains"

/-- What a comparison asks for. Some operators are for texts, some need no value. -/
inductive Operator
  | eq
  | neq
  | lt
  | lte
  | gt
  | gte
  | isNull
  | isNotNull
  | startsWith
  | endsWith
  | contains
  | doesNotContain
  | isEmpty
  | isNotEmpty
deriving DecidableEq

namespace Operator

def all : List Operator :=
  [eq, neq, lt, lte, gt, gte, isNull, isNotNull, startsWith, endsWith, contains, doesNotContain,
    isEmpty, isNotEmpty]

/-- The code that a client sends. -/
def code : Operator → String
  | eq => "eq"
  | neq => "neq"
  | lt => "lt"
  | lte => "lte"
  | gt => "gt"
  | gte => "gte"
  | isNull => "isnull"
  | isNotNull => "isnotnull"
  | startsWith => "startswith"
  | endsWith => "endswith"
  | contains => "contains"
  | doesNotContain => "doesnotcontain"
  | isEmpty => "isempty"
  | isNotEmpty => "isnotempty"

/-- Codes are exact: no other spelling or case is known. -/
def ofCode? (s : String) : Option Operator := all.find? (·.code == s)

/-- The part of a predicate that is the operator's own. -/
def fragment : Operator → String
  | eq => Relation.eq.sign
  | neq => Relation.ne.sign
  | lt => Relation.lt.sign
  | lte => Relation.le.sign
  | gt => Relation.gt.sign
  | gte => Relation.ge.sign
  | isNull => Relation.eq.sign
  | isNotNull => Relation.ne.sign
  | startsWith => Method.startsWith.name
  | endsWith => Method.endsWith.name
  | contains => Method.contains.name
  | doesNotContain => Method.contains.name
  | isEmpty => ""
  | isNotEmpty => "!"

/-- Tests for absence need no value. -/
def isValueless : Operator → Bool
  | isNull | isNotNull | isEmpty | isNotEmpty => true
  | _ => false

/-- Comparisons of text that may ignore case. -/
def foldsCase : Operator → Bool
  | eq | contains | doesNotContain | startsWith | endsWith => true
  | _ => false

theorem ofCode?_code (o : Operator) : ofCode? o.code = some o := by
  cases o <;> decide

theorem code_of_ofCode? {s : String} {o : Operator} (h : ofCode? s = some o) : o.code = s := by
  simpa using List.find?_some h

end Operator
end Criteria
