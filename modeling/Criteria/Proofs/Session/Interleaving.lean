import Criteria.Proofs.Session.Stepwise
import Criteria.Session

/-! Compilations in flight while locales are installed.

The locale in force stands in a cell that everybody can see. To install another one is to make a new
cell and to point there; what stands in a cell does not change, and who holds on to a cell finds in
it what he found before (`Process`). A compilation reads once which cell is in force and then looks
there at every leaf. Any number of them go on at the same time, and locales are installed at any
moment between their steps (`Event`), for nothing has to wait (`exists_next`). What is known of a
flight (`Tracks`) no step of another one can change, and so each of them ends as if the locale that
was in force when it read had been given to it alone (`run_untorn`). -/
namespace Criteria.Session

open Criteria.Tree

/-! ### The steps of a process -/

/-- A compilation that has read the locale in force: the cell of that locale, and how far it has
come since. -/
structure Reading where
  cell : Nat
  progress : Stage × Slots

/-- A compilation that has been called for. -/
structure Flight where
  schema : Schema
  filter : Filter
  reading : Option Reading

/-- A process: every locale ever installed, which of them is in force, and the calls that have
been made, finished or not. Cells are only added, so that a call can hold on to the one it has
read. -/
structure Process where
  cells : List Locale
  current : Nat
  flights : List Flight

/-- Flights are known by the order in which they were called for. -/
inductive Event
  | install (l : Locale)
  | installSettings (s : Settings)
  | call (schema : Schema) (f : Filter)
  | read (i : Nat)
  | leaf (i : Nat)

/-- What a call gives, once the last leaf has been dealt with. -/
def Reading.result? (r : Reading) : Option (Except Error Compiled) :=
  match r.progress with
  | (.before _ _, _) => none
  | (.ended p, s) => some (p.map fun p => ⟨p, s.bound⟩)

namespace Flight

/-- None is filled. -/
def slots (fl : Flight) : Slots := .ofSize (Numbering.all fl.filter.leaves.length).slots

/-- The first step holds on to the cell in force and compiles nothing yet. -/
def read? (fl : Flight) (cell : Nat) : Option Flight :=
  match fl.reading with
  | some _ => none
  | none =>
    some { fl with reading := some ⟨cell, .enter (Occurrence.own fl.filter) [], fl.slots⟩ }

/-- Every other step compiles a leaf by what stands in the cell then. -/
def leaf? (fl : Flight) (cells : List Locale) : Option Flight :=
  match fl.reading with
  | some ⟨cell, .before o frames, s⟩ => cells[cell]?.map fun l =>
    let c := Compiler.ofFilter fl.schema l fl.filter
    { fl with reading := some ⟨cell, c.advance (.before o frames, s)⟩ }
  | _ => none

end Flight

namespace Process

/-- A process before anything has happened. -/
def start : Process := ⟨[({} : Session).locale], 0, []⟩

/-- The session as it would be found now. -/
def session? (p : Process) : Option Session := p.cells[p.current]?.map fun l => ⟨l⟩

/-- In a cell of its own. -/
def replace (p : Process) (s : Session) : Process :=
  { p with cells := p.cells ++ [s.locale], current := p.cells.length }

/-- A step of one flight. -/
def move? (p : Process) (i : Nat) (step : Flight → Option Flight) : Option Process := do
  let fl ← step (← p.flights[i]?)
  pure { p with flights := p.flights.set i fl }

/-- The process after one event, unless the event has no place here. A step of a call touches
that call and nothing else; an installation touches no call. -/
def next? (p : Process) : Event → Option Process
  | .install l => p.session?.map fun s => p.replace (s.install l)
  | .installSettings t => p.session?.map fun s => p.replace (s.installSettings t)
  | .call schema f => some { p with flights := p.flights ++ [⟨schema, f, none⟩] }
  | .read i => p.move? i (·.read? p.current)
  | .leaf i => p.move? i (·.leaf? p.cells)

/-- The process after a run of events. -/
def run (p : Process) : List Event → Option Process
  | [] => some p
  | e :: es => do (← p.next? e).run es

/-- What call `i` gives, once it is finished. -/
def result? (p : Process) (i : Nat) : Option (Except Error Compiled) := do
  (← (← p.flights[i]?).reading).result?

end Process

/-! ### What has happened -/

namespace Event

/-- The locale that an event installs. -/
def installed? : Event → Option Locale
  | .install l => some l
  | .installSettings s => some s.locale
  | _ => none

/-- What an event asks to compile. -/
def called? : Event → Option (Schema × Filter)
  | .call schema f => some (schema, f)
  | _ => none

/-- Whose step it is. -/
def flight? : Event → Option Nat
  | .read i => some i
  | .leaf i => some i
  | _ => none

/-- The event is the next step of call `i`. -/
def isLeaf (i : Nat) : Event → Bool
  | .leaf j => i == j
  | _ => false

end Event

/-- The locale that was installed last, or the invariant one. -/
def inForce (es : List Event) : Locale := ((es.filterMap Event.installed?).getLast?).getD .invariant

/-- The calls of a run, in the order in which they are made. -/
def calls (es : List Event) : List (Schema × Filter) := es.filterMap Event.called?

theorem inForce_concat (es : List Event) (e : Event) :
    inForce (es ++ [e]) = e.installed?.getD (inForce es) := by
  rw [inForce, List.filterMap_append]
  cases h : e.installed? <;> simp [inForce, h]

theorem calls_concat (es : List Event) (e : Event) :
    calls (es ++ [e]) = calls es ++ e.called?.toList := by
  rw [calls, List.filterMap_append]
  cases h : e.called? <;> simp [calls, h]

/-! ### One step -/

variable {es : List Event} {e : Event} {p q : Process} {i : Nat} {fl fl' : Flight}
  {cells cells' : List Locale} {cell : Nat} {schema : Schema} {f : Filter} {l : Locale}

theorem Flight.read?_eq_some_iff : fl.read? cell = some fl' ↔ fl.reading = none ∧
    fl' = { fl with reading := some ⟨cell, .enter (Occurrence.own fl.filter) [], fl.slots⟩ } := by
  unfold Flight.read?
  split
  next h => simp [h]
  next h => simp [h, eq_comm]

theorem Flight.leaf?_eq_some_iff : fl.leaf? cells = some fl' ↔
    ∃ cell o frames s l, fl.reading = some ⟨cell, .before o frames, s⟩ ∧ cells[cell]? = some l ∧
      fl' = { fl with reading := some ⟨cell,
        (Compiler.ofFilter fl.schema l fl.filter).advance (.before o frames, s)⟩ } := by
  unfold Flight.leaf?
  constructor
  · intro h
    split at h
    next cell o frames s hreading =>
      obtain ⟨l, hl, rfl⟩ := Option.map_eq_some_iff.1 h
      exact ⟨cell, o, frames, s, l, hreading, hl, rfl⟩
    next => cases h
  · intro h
    obtain ⟨cell, o, frames, s, l, hreading, hl, rfl⟩ := h
    rw [hreading]
    exact Option.map_eq_some_iff.2 ⟨l, hl, rfl⟩

theorem move?_eq_some_iff {step : Flight → Option Flight} : p.move? i step = some q ↔
    ∃ fl fl', p.flights[i]? = some fl ∧ step fl = some fl' ∧
      q = { p with flights := p.flights.set i fl' } := by
  simp only [Process.move?, bind, Option.bind_eq_some_iff, pure, Option.some.injEq]
  constructor
  · intro h
    obtain ⟨fl, hfl, fl', hfl', rfl⟩ := h
    exact ⟨fl, fl', hfl, hfl', rfl⟩
  · intro h
    obtain ⟨fl, fl', hfl, hfl', rfl⟩ := h
    exact ⟨fl, hfl, fl', hfl', rfl⟩

/-- None of the events is a step of the flight. -/
def Untouched (es : List Event) (i : Nat) : Prop := ∀ e ∈ es, e.flight? ≠ some i

theorem Untouched.concat (h : Untouched es i) (he : e.flight? ≠ some i) :
    Untouched (es ++ [e]) i := by
  intro d hd
  rcases List.mem_append.1 hd with hd | hd
  · exact h d hd
  · exact List.mem_singleton.1 hd ▸ he

theorem Untouched.not_read (h : Untouched es i) : .read i ∉ es := fun hread => h _ hread rfl

theorem isLeaf_of_flight (he : e.flight? ≠ some i) : Event.isLeaf i e = false := by
  cases e with
  | leaf j => exact beq_eq_false_iff_ne.2 fun hij => he (congrArg some hij.symm)
  | _ => rfl

theorem Untouched.countP_isLeaf (h : Untouched es i) : es.countP (Event.isLeaf i) = 0 :=
  List.countP_eq_zero.2 fun e he => Bool.not_eq_true _ ▸ isLeaf_of_flight (h e he)

theorem concat_of_split {before after : List Event} {d : Event} (hes : es = before ++ d :: after)
    (e : Event) : es ++ [e] = before ++ d :: (after ++ [e]) := by
  rw [hes, List.append_assoc, List.cons_append]

/-- What is known of a flight after the events `es`. If it has read, it did so once, its cell still
holds the locale that was in force then, and what is left of it leads where the compilation by that
locale leads. -/
inductive Tracks (es : List Event) (cells : List Locale) (i : Nat) : Flight → Prop
  | waiting {schema : Schema} {f : Filter} : Untouched es i →
      Tracks es cells i ⟨schema, f, none⟩
  | reading {schema : Schema} {f : Filter} {cell : Nat} {progress : Stage × Slots}
      {before after : List Event} {c : Compiler} :
      es = before ++ .read i :: after → Untouched before i → .read i ∉ after →
      cells[cell]? = some (inForce before) → c = .ofFilter schema (inForce before) f →
      c.conclusion progress = c.node (Occurrence.own f) c.start →
      progress.1.left + after.countP (Event.isLeaf i) ≤ f.leaves.length →
      Tracks es cells i ⟨schema, f, some ⟨cell, progress⟩⟩

theorem getElem?_of_longer {a : Locale} (h : cells <+: cells') (ha : cells[i]? = some a) :
    cells'[i]? = some a := by
  obtain ⟨more, rfl⟩ := h
  rw [List.getElem?_append_left (List.getElem?_eq_some_iff.1 ha).1, ha]

/-- The steps of others, and locales that are installed, do not matter. -/
theorem Tracks.frame (h : Tracks es cells i fl) (he : e.flight? ≠ some i)
    (hcells : cells <+: cells') : Tracks (es ++ [e]) cells' i fl := by
  cases h with
  | waiting hes => exact .waiting (hes.concat he)
  | @reading _ _ _ _ before after _ hes hbefore hafter hcell hc hconclusion hleft =>
    refine .reading (concat_of_split hes e) hbefore ?_ (getElem?_of_longer hcells hcell) hc
      hconclusion ?_
    · have hread : .read i ≠ e := by
        rintro rfl
        exact he rfl
      simp only [List.mem_append, List.mem_singleton, hafter, hread, or_self, not_false_iff]
    · rwa [List.countP_append, List.countP_singleton, isLeaf_of_flight he]

/-- The first step finds the locale in force, with all leaves still to come. -/
theorem tracks_read (hes : Untouched es i) (hcell : cells[cell]? = some (inForce es)) :
    Tracks (es ++ [.read i]) cells i ⟨schema, f,
      some ⟨cell, .enter (Occurrence.own f) [], (Flight.mk schema f none).slots⟩⟩ := by
  have hlength : (Occurrence.own f).leaves.length = f.leaves.length := by
    rw [Occurrence.own, leaves_map, numbered, leaves_numberedFrom]
    simp only [List.length_map, List.length_zipIdx]
  have hleft := Stage.left_enter (Occurrence.own f) []
  rw [hlength] at hleft
  exact .reading rfl hes List.not_mem_nil hcell rfl (Compiler.conclusion_enter _ _ _ _) hleft

/-- Every other step finds that locale again, and leaves one leaf behind. -/
theorem Tracks.leaf {o : Occurrence} {frames : List Frame} {s : Slots}
    (h : Tracks es cells i ⟨schema, f, some ⟨cell, .before o frames, s⟩⟩)
    (hl : cells[cell]? = some l) : Tracks (es ++ [.leaf i]) cells i ⟨schema, f,
      some ⟨cell, (Compiler.ofFilter schema l f).advance (.before o frames, s)⟩⟩ := by
  cases h with
  | @reading _ _ _ _ before after c hes hbefore hafter hcell hc hconclusion hleft =>
    obtain rfl : inForce before = l := Option.some.inj (hcell.symm.trans hl)
    subst hc
    have hadvance := (Compiler.ofFilter schema (inForce before) f).left_advance o frames s
    refine .reading (concat_of_split hes _) hbefore ?_ hcell rfl
      ((Compiler.conclusion_advance _ _).trans hconclusion) ?_
    · simp [hafter]
    · have hcount : [Event.leaf i].countP (Event.isLeaf i) = 1 := by simp [Event.isLeaf]
      rw [List.countP_append, hcount]
      dsimp only at hleft
      omega

/-! ### Any number of steps -/

/-- What is known of a process after the events `es`. -/
structure Follows (es : List Event) (p : Process) : Prop where
  cell : p.cells[p.current]? = some (inForce es)
  flights : p.flights.map (fun fl => (fl.schema, fl.filter)) = calls es
  tracks : ∀ i fl, p.flights[i]? = some fl → Tracks es p.cells i fl
  /-- Nobody moves before it has been called. -/
  uncalled : ∀ i, p.flights.length ≤ i → Untouched es i

theorem follows_start : Follows [] .start := by
  refine ⟨rfl, rfl, fun i fl hfl => ?_, fun i _ e he => absurd he List.not_mem_nil⟩
  have hnone : Process.start.flights[i]? = none := List.getElem?_nil
  rw [hnone] at hfl
  cases hfl

theorem Follows.replace (h : Follows es p) (s : Session) (he : e.installed? = some s.locale) :
    Follows (es ++ [e]) (p.replace s) := by
  obtain ⟨hflight, hcalled⟩ : (∀ i, e.flight? ≠ some i) ∧ e.called? = none := by
    cases e with
    | install | installSettings => exact ⟨nofun, rfl⟩
    | _ => cases he
  refine ⟨?_, ?_, fun i fl hfl => ?_, fun i hi => (h.uncalled i hi).concat (hflight i)⟩
  · rw [inForce_concat, he]
    exact List.getElem?_concat_length
  · rw [calls_concat, hcalled]
    exact h.flights.trans (List.append_nil _).symm
  · exact (h.tracks i fl hfl).frame (hflight i) (List.prefix_append _ _)

theorem Follows.call (h : Follows es p) (schema : Schema) (f : Filter) :
    Follows (es ++ [.call schema f]) { p with flights := p.flights ++ [⟨schema, f, none⟩] } := by
  have hnone : ∀ i, (Event.call schema f).flight? ≠ some i := nofun
  refine ⟨?_, ?_, fun i fl hfl => ?_, fun i hi => (h.uncalled i ?_).concat (hnone i)⟩
  · rw [inForce_concat]
    exact h.cell
  · rw [calls_concat, List.map_append, h.flights]
    rfl
  · rcases Nat.lt_or_ge i p.flights.length with hi | hi
    · rw [List.getElem?_append_left hi] at hfl
      exact (h.tracks i fl hfl).frame (hnone i) (List.prefix_refl _)
    · rw [List.getElem?_append_right hi, List.getElem?_singleton] at hfl
      split at hfl
      · cases hfl
        exact .waiting ((h.uncalled i hi).concat (hnone i))
      · cases hfl
  · rw [List.length_append] at hi
    exact Nat.le_trans (Nat.le_add_right _ _) hi

/-- A flight makes a step of its own, and all others stay where they are. -/
theorem Follows.move (h : Follows es p) (he : e.flight? = some i) (hfl : p.flights[i]? = some fl)
    (hsame : (fl'.schema, fl'.filter) = (fl.schema, fl.filter))
    (ht : Tracks (es ++ [e]) p.cells i fl') :
    Follows (es ++ [e]) { p with flights := p.flights.set i fl' } := by
  obtain ⟨hinstalled, hcalled⟩ : e.installed? = none ∧ e.called? = none := by
    cases e with
    | read | leaf => exact ⟨rfl, rfl⟩
    | _ => cases he
  obtain ⟨hi, rfl⟩ := List.getElem?_eq_some_iff.1 hfl
  refine ⟨?_, ?_, fun j fl hfl => ?_, fun j hj => ?_⟩
  · rw [inForce_concat, hinstalled]
    exact h.cell
  · have hlt : i < (p.flights.map fun fl => (fl.schema, fl.filter)).length := by
      rwa [List.length_map]
    have hset := List.set_getElem_self hlt
    rw [List.getElem_map] at hset
    rw [calls_concat, hcalled, List.map_set, hsame, hset]
    exact h.flights.trans (List.append_nil _).symm
  · by_cases hij : i = j
    · subst hij
      rw [List.getElem?_set_self hi] at hfl
      cases hfl
      exact ht
    · rw [List.getElem?_set_ne hij] at hfl
      refine (h.tracks j fl hfl).frame ?_ (List.prefix_refl _)
      rw [he]
      exact fun heq => hij (Option.some.inj heq)
  · rw [List.length_set] at hj
    refine (h.uncalled j hj).concat ?_
    rw [he]
    exact fun heq => Nat.ne_of_lt (Nat.lt_of_lt_of_le hi hj) (Option.some.inj heq)

/-- What has happened explains a process after one more event. -/
theorem Follows.next (h : Follows es p) (hnext : p.next? e = some q) : Follows (es ++ [e]) q := by
  cases e with
  | install | installSettings =>
    obtain ⟨s, -, rfl⟩ := Option.map_eq_some_iff.1 hnext
    exact h.replace _ rfl
  | call schema f =>
    cases hnext
    exact h.call schema f
  | read i =>
    obtain ⟨fl, fl', hfl, hread, rfl⟩ := move?_eq_some_iff.1 hnext
    obtain ⟨hreading, rfl⟩ := Flight.read?_eq_some_iff.1 hread
    have ht := h.tracks i fl hfl
    obtain ⟨schema, f, reading⟩ := fl
    cases hreading
    cases ht with
    | waiting hes => exact h.move rfl hfl rfl (tracks_read hes h.cell)
  | leaf i =>
    obtain ⟨fl, fl', hfl, hleaf, rfl⟩ := move?_eq_some_iff.1 hnext
    obtain ⟨cell, o, frames, s, l, hreading, hl, rfl⟩ := Flight.leaf?_eq_some_iff.1 hleaf
    have ht := h.tracks i fl hfl
    obtain ⟨schema, f, reading⟩ := fl
    cases hreading
    exact h.move rfl hfl rfl (ht.leaf hl)

theorem run_append (p : Process) (es es' : List Event) :
    p.run (es ++ es') = (p.run es).bind fun q => q.run es' := by
  induction es generalizing p with
  | nil => rfl
  | cons e es ih =>
    cases h : p.next? e with
    | none => simp [Process.run, h]
    | some q => simp [Process.run, h, ih]

/-- What has happened explains a process after a run of events. -/
theorem Follows.run {es' : List Event} (h : Follows es p) (hrun : p.run es' = some q) :
    Follows (es ++ es') q := by
  induction es' generalizing es p with
  | nil =>
    cases hrun
    rwa [List.append_nil]
  | cons e es' ih =>
    obtain ⟨p', hnext, hrun⟩ := Option.bind_eq_some_iff.1 hrun
    have hq := ih (h.next hnext) hrun
    rwa [List.append_assoc] at hq

/-- What stands in a cell stays there. -/
theorem cells_prefix_of_next (hnext : p.next? e = some q) : p.cells <+: q.cells := by
  cases e with
  | install | installSettings =>
    obtain ⟨s, -, rfl⟩ := Option.map_eq_some_iff.1 hnext
    exact List.prefix_append _ _
  | call =>
    cases hnext
    exact List.prefix_refl _
  | read | leaf =>
    obtain ⟨-, -, -, -, rfl⟩ := move?_eq_some_iff.1 hnext
    exact List.prefix_refl _

/-- No cell is ever changed or removed. -/
theorem cells_prefix_of_run (hrun : p.run es = some q) : p.cells <+: q.cells := by
  induction es generalizing p with
  | nil =>
    cases hrun
    exact List.prefix_refl _
  | cons e es ih =>
    obtain ⟨p', hnext, hrun⟩ := Option.bind_eq_some_iff.1 hrun
    exact (cells_prefix_of_next hnext).trans (ih hrun)

/-! ### What comes of a flight -/

/-- A flight is for what was called. -/
theorem Follows.called (h : Follows es p) (hfl : p.flights[i]? = some fl) :
    (calls es)[i]? = some (fl.schema, fl.filter) := by
  rw [← h.flights, List.getElem?_map, hfl]
  rfl

/-- What a flight ends with is the compilation by the locale that was in force when it read. -/
theorem Tracks.result {r : Reading} {x : Except Error Compiled}
    (h : Tracks es cells i ⟨schema, f, some r⟩) (hr : r.result? = some x) :
    ∃ before after, es = before ++ .read i :: after ∧ .read i ∉ before ∧ .read i ∉ after ∧
      x = Criteria.compile schema (inForce before) f := by
  cases h with
  | @reading _ _ _ progress before after c hes hbefore hafter _ hc hconclusion _ =>
    refine ⟨before, after, hes, hbefore.not_read, hafter, ?_⟩
    obtain ⟨stage, s⟩ := progress
    cases stage with
    | before => cases hr
    | ended y =>
      cases hr
      subst hc
      have hcompile : Criteria.compile schema (inForce before) f =
          ((Compiler.ofFilter schema (inForce before) f).node (Occurrence.own f)
            (Compiler.ofFilter schema (inForce before) f).start).1.map
          fun p => ⟨p, (Compiler.slotsAfter schema (inForce before) f).bound⟩ := rfl
      rw [hcompile, Compiler.slotsAfter, ← hconclusion]
      rfl

/-- A flight that has read and is not at its end has not yet made a step for every leaf. -/
theorem Tracks.unfinished (h : Tracks es cells i fl) (hread : .read i ∈ es)
    (hresult : fl.reading.bind Reading.result? = none) :
    es.countP (Event.isLeaf i) < fl.filter.leaves.length ∧ ∃ fl', fl.leaf? cells = some fl' := by
  cases h with
  | waiting hes => exact absurd hread hes.not_read
  | @reading schema f cell progress before after c hes hbefore _ hcell _ _ hleft =>
    obtain ⟨stage, s⟩ := progress
    cases stage with
    | ended => cases hresult
    | before o frames =>
      have hcount : es.countP (Event.isLeaf i) = after.countP (Event.isLeaf i) := by
        rw [hes, List.countP_append, hbefore.countP_isLeaf, Nat.zero_add]
        exact List.countP_cons_of_neg Bool.false_ne_true
      have hpos : 0 < Stage.left (.before o frames) := Nat.succ_pos _
      refine ⟨?_, _, Flight.leaf?_eq_some_iff.2 ⟨cell, o, frames, s, _, rfl, hcell, rfl⟩⟩
      dsimp only at hleft ⊢
      omega

theorem Tracks.reading_eq_none_iff (h : Tracks es cells i fl) :
    fl.reading = none ↔ .read i ∉ es := by
  cases h with
  | waiting hes => exact ⟨fun _ => hes.not_read, fun _ => rfl⟩
  | reading hes =>
    rw [hes]
    simp

theorem result?_of_flight (hfl : p.flights[i]? = some fl) :
    p.result? i = fl.reading.bind Reading.result? := by
  rw [Process.result?, hfl]
  rfl

/-- A locale is read only for a call that has been made. -/
theorem Follows.exists_flight (h : Follows es p) (hread : .read i ∈ es) :
    ∃ fl, p.flights[i]? = some fl := by
  refine Option.ne_none_iff_exists'.1 fun hnone => ?_
  exact (h.uncalled i (List.getElem?_eq_none_iff.1 hnone)).not_read hread

/-- Nothing has to wait: whoever has been called can read, and whoever has read can go on until the
end. Everybody else can do as he likes. -/
theorem exists_next (h : Process.start.run es = some p) :
    (∀ e, e.flight? = none → ∃ q, p.next? e = some q) ∧
    (∀ i, (∃ q, p.next? (.read i) = some q) ↔ i < (calls es).length ∧ .read i ∉ es) ∧
    ∀ i, (∃ q, p.next? (.leaf i) = some q) ↔ .read i ∈ es ∧ p.result? i = none := by
  have hfollows : Follows es p := follows_start.run h
  refine ⟨fun e he => ?_, fun i => ⟨fun hnext => ?_, fun hi => ?_⟩,
    fun i => ⟨fun hnext => ?_, fun hi => ?_⟩⟩
  · have hsession : p.session? = some ⟨inForce es⟩ :=
      Option.map_eq_some_iff.2 ⟨_, hfollows.cell, rfl⟩
    cases e with
    | install | installSettings => exact ⟨_, Option.map_eq_some_iff.2 ⟨_, hsession, rfl⟩⟩
    | call => exact ⟨_, rfl⟩
    | read | leaf => cases he
  · obtain ⟨q, hnext⟩ := hnext
    obtain ⟨fl, fl', hfl, hread, -⟩ := move?_eq_some_iff.1 hnext
    have hreading := (Flight.read?_eq_some_iff.1 hread).1
    rw [← hfollows.flights, List.length_map]
    exact ⟨(List.getElem?_eq_some_iff.1 hfl).1,
      (hfollows.tracks i fl hfl).reading_eq_none_iff.1 hreading⟩
  · obtain ⟨hlt, hread⟩ := hi
    rw [← hfollows.flights, List.length_map] at hlt
    have hfl := List.getElem?_eq_getElem hlt
    have hreading := (hfollows.tracks i _ hfl).reading_eq_none_iff.2 hread
    exact ⟨_, move?_eq_some_iff.2
      ⟨_, _, hfl, Flight.read?_eq_some_iff.2 ⟨hreading, rfl⟩, rfl⟩⟩
  · obtain ⟨q, hnext⟩ := hnext
    obtain ⟨fl, fl', hfl, hleaf, -⟩ := move?_eq_some_iff.1 hnext
    obtain ⟨cell, o, frames, s, l, hreading, -⟩ := Flight.leaf?_eq_some_iff.1 hleaf
    have hread : ¬.read i ∉ es := by
      rw [← (hfollows.tracks i fl hfl).reading_eq_none_iff, hreading]
      exact Option.some_ne_none _
    refine ⟨Classical.not_not.1 hread, ?_⟩
    rw [result?_of_flight hfl, hreading]
    rfl
  · obtain ⟨hread, hresult⟩ := hi
    obtain ⟨fl, hfl⟩ := hfollows.exists_flight hread
    rw [result?_of_flight hfl] at hresult
    obtain ⟨-, fl', hfl'⟩ := (hfollows.tracks i fl hfl).unfinished hread hresult
    exact ⟨_, move?_eq_some_iff.2 ⟨fl, fl', hfl, hfl', rfl⟩⟩

/-- **Locales that are installed never tear a compilation.** Whatever the order of the steps, a
compilation that ends gives what it gives alone under the locale that was in force at its first
step. The cell that was in force at any moment holds for ever the locale that it held then. And a
compilation that has read ends when it has made as many steps as it has leaves, or before. -/
theorem run_untorn (h : Process.start.run es = some p) :
    (∀ i r, p.result? i = some r → ∃ schema f before after, (calls es)[i]? = some (schema, f) ∧
      es = before ++ .read i :: after ∧ .read i ∉ before ∧ .read i ∉ after ∧
      r = Criteria.compile schema (inForce before) f) ∧
    (∀ before after, es = before ++ after → ∃ q, Process.start.run before = some q ∧
      q.run after = some p ∧ q.cells[q.current]? = some (inForce before) ∧
      p.cells[q.current]? = some (inForce before)) ∧
    ∀ i, .read i ∈ es → p.result? i = none → ∃ schema f, (calls es)[i]? = some (schema, f) ∧
      es.countP (Event.isLeaf i) < f.leaves.length := by
  have hfollows : Follows es p := follows_start.run h
  refine ⟨fun i r hr => ?_, fun before after hes => ?_, fun i hread hresult => ?_⟩
  · obtain ⟨fl, hfl, -⟩ := Option.bind_eq_some_iff.1 hr
    rw [result?_of_flight hfl] at hr
    obtain ⟨reading, hreading, hr⟩ := Option.bind_eq_some_iff.1 hr
    have ht := hfollows.tracks i fl hfl
    have hcalled := hfollows.called hfl
    obtain ⟨schema, f, _⟩ := fl
    cases hreading
    obtain ⟨before, after, hparts⟩ := ht.result hr
    exact ⟨schema, f, before, after, hcalled, hparts⟩
  · rw [hes, run_append] at h
    obtain ⟨q, hq, hp⟩ := Option.bind_eq_some_iff.1 h
    have hcell := (follows_start.run hq).cell
    exact ⟨q, hq, hp, hcell, getElem?_of_longer (cells_prefix_of_run hp) hcell⟩
  · obtain ⟨fl, hfl⟩ := hfollows.exists_flight hread
    rw [result?_of_flight hfl] at hresult
    obtain ⟨hcount, -⟩ := (hfollows.tracks i fl hfl).unfinished hread hresult
    exact ⟨fl.schema, fl.filter, hfollows.called hfl, hcount⟩

/-- A locale that takes the comma for a decimal mark comes between two leaves. -/
theorem run_untorn_between_leaves :
    let schema : Schema := ⟨[⟨"Age", .integer, false⟩]⟩
    let q : Comparison := ⟨"age", .gt, some "1,234", false⟩
    let f : Filter := .group .and [.leaf q, .leaf q]
    let comma : Locale := ⟨',', none, [], []⟩
    let es : List Event := [.call schema f, .read 0, .leaf 0, .install comma, .leaf 0]
    ∃ p r, Process.start.run es = some p ∧ p.result? 0 = some r ∧
      r = Criteria.compile schema .invariant f ∧ r ≠ Criteria.compile schema comma f := by
  intro schema q f comma es
  obtain ⟨p, hp⟩ : ∃ p, Process.start.run es = some p :=
    Option.isSome_iff_exists.1 (by decide +kernel)
  obtain ⟨r, hr⟩ : ∃ r, p.result? 0 = some r := by
    have hsome : ((Process.start.run es).bind (·.result? 0)).isSome = true := by decide +kernel
    rw [hp] at hsome
    exact Option.isSome_iff_exists.1 hsome
  obtain ⟨schema', f', before, after, hcalled, hes, hbefore, -, hresult⟩ :=
    (run_untorn hp).1 0 r hr
  cases hcalled
  have hfirst : before = [.call schema f] := by
    rcases before with _ | ⟨a, _ | ⟨b, before⟩⟩
    · cases (List.cons.inj hes).1
    · rw [← (List.cons.inj hes).1]
    · obtain rfl := (List.cons.inj (List.cons.inj hes).2).1
      exact absurd (List.mem_cons_of_mem _ List.mem_cons_self) hbefore
  subst hfirst
  have halone : r = Criteria.compile schema .invariant f := hresult
  obtain ⟨hok, herror⟩ : (errorOf? (Criteria.compile schema .invariant f)).isSome = false ∧
      (errorOf? (Criteria.compile schema comma f)).isSome = true := by decide +kernel
  refine ⟨p, r, hp, hr, halone, fun hcomma => ?_⟩
  rw [← hcomma, halone, hok] at herror
  cases herror

end Criteria.Session
