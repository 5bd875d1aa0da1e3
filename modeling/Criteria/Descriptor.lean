import Criteria.Diagnostics
import Criteria.Tree

/-! Filters as clients send them.

A `Descriptor` may leave out everything; `tree` decides what it is. With children it is
a group, and fields of a comparison beside them are ignored, or refused in strict mode.
Without children it is a comparison, which needs a field and a known operator. -/
namespace Criteria

/-- A node as it is sent: any of the parts of a comparison and of a group, each of which may be
missing. -/
structure Descriptor where
  field : Option String
  operator : Option String
  value : Option String
  logic : Option String
  filters : Option (List Descriptor)
  caseSensitive : Bool

namespace Descriptor

/-- The comparison that a descriptor states. A blank field is as good as none, and a field is
missed before an operator. -/
def comparison (d : Descriptor) : Except Error Comparison :=
  match d.field.filter fun f => !Text.allBlank f.toList with
  | none => .error (.malformed .missingField)
  | some field => match d.operator with
    | none => .error (.malformed .missingOperator)
    | some code => match Operator.ofCode? code with
      | none => .error (.unknownOperator code)
      | some operator => .ok ⟨field, operator, d.value, d.caseSensitive⟩

/-- The connective of a group, *and* when it is not given. -/
def connective : Option String → Except Error Logic
  | none => .ok .and
  | some s => match Logic.ofText? s with
    | some l => .ok l
    | none => .error (.invalidLogic s)

/-- Any part of a comparison is there. -/
def statesComparison (field operator value : Option String) : Bool :=
  field.isSome || operator.isSome || value.isSome

mutual

/-- The filter that a descriptor states. Children make it a group; a strict reading refuses one
that states a comparison as well. -/
def tree (strict : Bool) : Descriptor → Except Error Filter
  | ⟨field, operator, value, logic, some (d :: ds), _⟩ =>
    if strict && statesComparison field operator value then .error (.malformed .mixed)
    else match connective logic with
      | .error e => .error e
      | .ok l => match trees strict (d :: ds) with
        | .error e => .error e
        | .ok ts => .ok (.group l ts)
  | d => d.comparison.map .leaf

def trees (strict : Bool) : List Descriptor → Except Error (List Filter)
  | [] => .ok []
  | d :: ds => match tree strict d with
    | .error e => .error e
    | .ok t => match trees strict ds with
      | .error e => .error e
      | .ok ts => .ok (t :: ts)

end

end Descriptor
end Criteria
