import Criteria.Descriptor.Reader

/-! Reading a filter within limits.

A text that is too large is not read at all. What is read becomes a tree, and the tree
must not be too deep and must not have too many leaves, in this order. -/
namespace Criteria

/-- The bounds on what a client may send, and whether a node may be a comparison and a group at
once. -/
structure Limits where
  maxJsonBytes : Nat := 64 * 1024
  maxDepth : Nat := 16
  maxLeaves : Nat := 50
  strictNodes : Bool := false
deriving DecidableEq

namespace Limits

/-- A filter is within the bounds. The depth is looked at before the number of leaves. -/
def check (l : Limits) (f : Filter) : Except Error Unit :=
  if l.maxDepth < f.depth then .error (.tooDeep l.maxDepth)
  else if l.maxLeaves < f.leaves.length then .error (.tooManyLeaves l.maxLeaves)
  else .ok ()

end Limits

/-- The filter that a JSON text describes. -/
def Filter.ofJson (l : Limits) (text : String) : Except Error Filter :=
  if l.maxJsonBytes < text.utf8ByteSize then .error (.jsonTooLarge l.maxJsonBytes)
  else match Descriptor.ofJson text with
    | .error p => .error (.invalidJson p)
    | .ok d => match d.tree l.strictNodes with
      | .error e => .error e
      | .ok f => match l.check f with
        | .error e => .error e
        | .ok () => .ok f

end Criteria
