import Criteria.Proofs.Predicate.Compilation

/-! A compilation, leaf by leaf.

A compiler goes through a tree by recursion. Here it stops before every leaf, with the groups that
are not complete yet in a list of frames, the innermost first (`Stage`). `advance` compiles the
leaf it has stopped at and goes on to the next one. Every stage has its conclusion, which is what
the recursion makes of all that is still to come, and `advance` does not change that
(`conclusion_advance`). So the stages lead where the recursion leads (`conclusion_enter`), in no
more steps than there are leaves (`left_enter`, `left_advance`). -/
namespace Criteria

open Criteria.Tree

/-- A group that is not complete: its finished members, the last one first, and those to come. -/
structure Frame where
  logic : Logic
  done : List Predicate
  rest : List (Tree Occurrence)

/-- Where a compilation has stopped. -/
inductive Stage
  | before (o : Occurrence) (frames : List Frame)
  | ended (r : Except Error Predicate)

namespace Stage

/-- Down to the first leaf of a tree. -/
def enter : Tree Occurrence → List Frame → Stage
  | .leaf o, frames => .before o frames
  | .group _ [], _ => .ended (.error (.malformed .noChildren))
  | .group l (t :: ts), frames => enter t (⟨l, [], ts⟩ :: frames)

/-- From a finished node to the next leaf, or to the end. -/
def leave (p : Predicate) : List Frame → Stage
  | [] => .ended (.ok p)
  | ⟨l, done, []⟩ :: frames => leave (.group l (p :: done).reverse) frames
  | ⟨l, done, t :: ts⟩ :: frames => enter t (⟨l, p :: done, ts⟩ :: frames)

/-- How many leaves are still to come in the frames. -/
def awaited : List Frame → Nat
  | [] => 0
  | frame :: frames => (leavesAll frame.rest).length + awaited frames

/-- How many leaves are still to come. -/
def left : Stage → Nat
  | .before _ frames => awaited frames + 1
  | .ended _ => 0

theorem left_enter (t : Tree Occurrence) (frames : List Frame) :
    (enter t frames).left ≤ t.leaves.length + awaited frames := by
  fun_induction enter t frames with
  | case1 o frames => simp only [left, leaves, List.length_singleton]; omega
  | case2 => exact Nat.zero_le _
  | case3 l t ts frames ih =>
    simp only [awaited] at ih
    simp only [leaves, leavesAll, List.length_append]
    omega

theorem left_leave (p : Predicate) (frames : List Frame) :
    (leave p frames).left ≤ awaited frames := by
  fun_induction leave p frames with
  | case1 => exact Nat.zero_le _
  | case2 p l done frames ih => simpa only [awaited, leavesAll, List.length_nil, Nat.zero_add]
  | case3 p l done t ts frames =>
    have henter := left_enter t (⟨l, p :: done, ts⟩ :: frames)
    simp only [awaited] at henter
    simp only [awaited, leavesAll, List.length_append]
    omega

end Stage

namespace Compiler

open Stage

variable (c : Compiler)

/-- Compiles the leaf that comes next. -/
def advance : Stage × Slots → Stage × Slots
  | (.ended r, s) => (.ended r, s)
  | (.before o frames, s) => match c.leaf o s with
    | (.error e, s) => (.ended (.error e), s)
    | (.ok a, s) => (leave (.leaf a) frames, s)

/-- What the recursion makes of the frames, when the node inside them gives `r`. -/
def resume : List Frame → Except Error Predicate × Slots → Except Error Predicate × Slots
  | [], r => r
  | _ :: _, (.error e, s) => (.error e, s)
  | ⟨l, done, ts⟩ :: frames, (.ok p, s) =>
    let (r, s) := c.nodes ts s
    resume frames (r.map fun ps => .group l (done.reverse ++ p :: ps), s)

/-- What the recursion makes of a stage. -/
def conclusion : Stage × Slots → Except Error Predicate × Slots
  | (.ended r, s) => (r, s)
  | (.before o frames, s) => c.resume frames (c.node (.leaf o) s)

theorem resume_error (frames : List Frame) (e : Error) (s : Slots) :
    c.resume frames (.error e, s) = (.error e, s) := by
  cases frames <;> rfl

/-- In a group, the node that gives its result and the nodes behind it are one list. -/
theorem resume_node (l : Logic) (done : List Predicate) (t : Tree Occurrence)
    (ts : List (Tree Occurrence)) (frames : List Frame) (s : Slots) :
    c.resume (⟨l, done, ts⟩ :: frames) (c.node t s) =
      c.resume frames (((c.nodes (t :: ts) s).1.map fun ps => .group l (done.reverse ++ ps)),
        (c.nodes (t :: ts) s).2) := by
  rw [nodes]
  generalize c.node t s = r
  obtain ⟨x, s₁⟩ := r
  cases x with
  | error e => exact (c.resume_error frames e s₁).symm
  | ok p =>
    rw [resume]
    dsimp only
    generalize c.nodes ts s₁ = r
    obtain ⟨y, s₂⟩ := r
    cases y <;> rfl

/-- Going down into a node does not change how the compilation ends. -/
theorem conclusion_enter (t : Tree Occurrence) (frames : List Frame) (s : Slots) :
    c.conclusion (enter t frames, s) = c.resume frames (c.node t s) := by
  fun_induction enter t frames with
  | case1 o frames => rfl
  | case2 l frames => exact (c.resume_error frames _ s).symm
  | case3 l t ts frames ih =>
    rw [ih, resume_node]
    rfl

theorem conclusion_leave (p : Predicate) (frames : List Frame) (s : Slots) :
    c.conclusion (leave p frames, s) = c.resume frames (.ok p, s) := by
  fun_induction leave p frames with
  | case1 => rfl
  | case2 p l done frames ih =>
    rw [ih, List.reverse_cons]
    rfl
  | case3 p l done t ts frames =>
    rw [conclusion_enter, resume_node, List.reverse_cons]
    simp only [List.append_assoc, List.singleton_append]
    rfl

/-- A step does not change where a compilation leads. -/
theorem conclusion_advance (x : Stage × Slots) : c.conclusion (c.advance x) = c.conclusion x := by
  obtain ⟨stage, s⟩ := x
  cases stage with
  | ended r => rfl
  | before o frames =>
    rw [advance, conclusion, node]
    generalize c.leaf o s = r
    obtain ⟨x, s₁⟩ := r
    cases x with
    | error e => exact (c.resume_error frames e s₁).symm
    | ok a => exact c.conclusion_leave (.leaf a) frames s₁

/-- A step leaves one leaf behind, and all others if it fails. -/
theorem left_advance (o : Occurrence) (frames : List Frame) (s : Slots) :
    (c.advance (.before o frames, s)).1.left < left (.before o frames) := by
  refine Nat.lt_succ_of_le ?_
  rw [advance]
  split
  · exact Nat.zero_le _
  · exact left_leave _ _

end Compiler
end Criteria
