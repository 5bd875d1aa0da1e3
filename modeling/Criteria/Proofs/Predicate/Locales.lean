import Criteria.Proofs.Predicate.Alignment
import Criteria.Proofs.Predicate.Typing
import Criteria.Proofs.Text.Trimming
import Mathlib.Data.List.TakeWhile

/-! What is read of a locale.

Numbers are read by the separators of a locale, dates and times by its layouts, and nothing else is
read of it (`Locale.AgreesOn`, `coerce_congr`). A locale is asked only for the operands of the leaves,
each by the type of its field. So two locales that agree on the types of all fields of a filter
compile it alike, to the same predicate and parameters or to the same error (`compile_congr`), and
where they do not agree, a leaf that reads nothing of the locale has the same parameter all the same
(`locale_noninterference`). -/
namespace Criteria

open Criteria.Tree Coercion Text

variable {schema : Schema} {l l' : Locale} {field : Field} {o : Operator} {cs : Bool}
  {operand : Option String} {s : String} {f : Filter}

/-! ### Operands -/

/-- The same in all that an operand of this type is read by. -/
def Locale.AgreesOn (l l' : Locale) : FieldType → Prop
  | .string | .boolean | .uuid => True
  | .integer | .float => l.decimal = l'.decimal ∧ l.group = l'.group
  | .datetime | .date => l.datetimeLayouts = l'.datetimeLayouts ∧ l.dateLayouts = l'.dateLayouts

/-- Numbers depend on the two separators only. -/
theorem Locale.plainFrom_congr (hdecimal : l.decimal = l'.decimal) (hgroup : l.group = l'.group)
    (whole afterDigit : Bool) (cs : List Char) :
    l.plainFrom whole afterDigit cs = l'.plainFrom whole afterDigit cs := by
  induction cs generalizing whole afterDigit with
  | nil => rfl
  | cons c cs ih => simp only [plainFrom, hdecimal, hgroup, ih]

theorem Locale.plain_congr (hdecimal : l.decimal = l'.decimal) (hgroup : l.group = l'.group)
    (s : String) : l.plain s = l'.plain s :=
  plainFrom_congr hdecimal hgroup true false (trim s.toList)

theorem Locale.instant?_congr (hdatetime : l.datetimeLayouts = l'.datetimeLayouts)
    (hdate : l.dateLayouts = l'.dateLayouts) (s : String) : l.instant? s = l'.instant? s := by
  rw [instant?, instant?, hdatetime, hdate]

theorem lenient?_congr (h : l.AgreesOn l' field.type) :
    lenient? l field.type s = lenient? l' field.type s := by
  cases htype : field.type with
  | datetime =>
    rw [htype] at h
    rw [lenient?, lenient?, Locale.instant?_congr h.1 h.2]
  | date =>
    rw [htype] at h
    rw [lenient?, lenient?, Locale.date?, Locale.date?, Locale.instant?_congr h.1 h.2, h.2]
  | _ => rfl

theorem strict_congr (h : l.AgreesOn l' field.type) :
    strict l field.type s = strict l' field.type s := by
  cases htype : field.type with
  | integer =>
    rw [htype] at h
    rw [strict, strict, Locale.integer, Locale.integer, Locale.plain_congr h.1 h.2]
  | float =>
    rw [htype] at h
    rw [strict, strict, Locale.float, Locale.float, Locale.plain_congr h.1 h.2]
  | _ => rfl

/-- Operands are read alike, and refused alike. -/
theorem coerce_congr (h : l.AgreesOn l' field.type) :
    coerce l field o cs operand = coerce l' field o cs operand := by
  have hconvert : convert l field operand = convert l' field operand := by
    cases operand with
    | none => rfl
    | some s => rw [convert, convert, lenient?_congr h, strict_congr h]
  rw [coerce, coerce, hconvert]

/-- What is a timestamp in itself is read as one before any layout is tried. -/
theorem Locale.instant?_timestamp {t : Calendar.Instant}
    (h : Calendar.Instant.ofRfc3339 (trim s.toList) = .ok t) : l.instant? s = some t := by
  have hne : trim s.toList ≠ [] := by
    intro he
    rw [he] at h
    cases h
  rw [instant?, instantBy?, if_neg hne, h]
  rfl

theorem Locale.not_blank_of_instant? {t : Calendar.Instant} (h : l.instant? s = some t) :
    isBlank s = false := by
  refine Bool.eq_false_iff.2 fun hblank => ?_
  rw [instant?, instantBy?, if_pos (trim_of_allBlank hblank)] at h
  cases h

theorem coerce_instant? (htype : field.type = .datetime) {t : Calendar.Instant}
    (h : l.instant? s = some t) : coerce l field o cs (some s) = .ok (.datetime t) := by
  rw [coerce_eq_convert (by rw [htype]; decide) (Locale.not_blank_of_instant? h), convert, htype,
    lenient?, h]
  rfl

/-- A field for instants takes a timestamp under every locale. -/
theorem coerce_timestamp (htype : field.type = .datetime) {t : Calendar.Instant}
    (h : Calendar.Instant.ofRfc3339 (trim s.toList) = .ok t) :
    coerce l field o cs (some s) = .ok (.datetime t) :=
  coerce_instant? htype (Locale.instant?_timestamp h)

/-! ### Filters -/

namespace Compiler

variable {c c' : Compiler}

mutual

/-- Compilers that agree on the leaves agree on the tree, also where they fail. -/
theorem node_congr : ∀ {t : Tree Occurrence}, (∀ o ∈ t.leaves, ∀ s, c.leaf o s = c'.leaf o s) →
    ∀ s, c.node t s = c'.node t s
  | .leaf o, h, s => by rw [node, node, h o (List.mem_singleton_self o)]
  | .group _ [], _, s => by rw [node, node]
  | .group l (t :: ts), h, s => by rw [node, node, nodes_congr h]

theorem nodes_congr : ∀ {ts : List (Tree Occurrence)},
    (∀ o ∈ leavesAll ts, ∀ s, c.leaf o s = c'.leaf o s) → ∀ s, c.nodes ts s = c'.nodes ts s
  | [], _, s => by rw [nodes, nodes]
  | t :: ts, h, s => by
    rw [nodes, nodes, node_congr fun o ho => h o (List.mem_append_left _ ho)]
    simp only [nodes_congr fun o ho => h o (List.mem_append_right _ ho)]

end

theorem leaf_congr {numbering : Numbering} {o : Occurrence}
    (h : ∀ field, schema.resolve? o.comparison.field = some field → l.AgreesOn l' field.type)
    (s : Slots) : leaf ⟨schema, l, numbering⟩ o s = leaf ⟨schema, l', numbering⟩ o s := by
  unfold leaf
  dsimp only
  split
  · rfl
  next field hfield => simp only [coerce_congr (h field hfield)]

end Compiler

/-- A compilation depends on the locale only as far as the types of the fields let it. -/
theorem compile_congr (h : ∀ q ∈ f.leaves, ∀ field, schema.resolve? q.field = some field →
    l.AgreesOn l' field.type) : compile schema l f = compile schema l' f := by
  have hleaves : ∀ o ∈ (Occurrence.own f).leaves, ∀ s,
      (Compiler.ofFilter schema l f).leaf o s = (Compiler.ofFilter schema l' f).leaf o s := by
    intro o ho
    rw [Occurrence.own, leaves_map, List.mem_map] at ho
    obtain ⟨⟨n, q⟩, hq, rfl⟩ := ho
    have hleaf : q ∈ f.leaves := List.mem_of_getElem? (mem_leaves_numbered.1 hq)
    exact Compiler.leaf_congr (h q hleaf)
  have hnode := Compiler.node_congr hleaves (Compiler.ofFilter schema l f).start
  unfold compile
  exact congrArg (fun r => r.1.map fun p => (⟨p, r.2.bound⟩ : Compiled)) hnode

/-- Two compilations give a leaf the same parameter where their locales agree on its field. -/
theorem parameter_congr {k k' : Compiled} (hk : compile schema l f = .ok k)
    (hk' : compile schema l' f = .ok k') {i : Nat} {q : Comparison} (hq : f.leaves[i]? = some q)
    (h : ∀ field, schema.resolve? q.field = some field → l.AgreesOn l' field.type) :
    ∃ v, k.parameters[i]? = some v ∧ k'.parameters[i]? = some v := by
  obtain ⟨field, v, hb, hv⟩ := exists_parameter hk hq
  obtain ⟨field', v', hb', hv'⟩ := exists_parameter hk' hq
  have hbinds : q.Binds schema l' field v :=
    ⟨hb.resolved, (coerce_congr (h field hb.resolved)).symm.trans hb.coerced⟩
  obtain ⟨-, rfl⟩ := hbinds.unique hb'
  exact ⟨v, hv, hv'⟩

theorem parameter_of_binds {k : Compiled} (hk : compile schema l f = .ok k) {i : Nat}
    {q : Comparison} (hq : f.leaves[i]? = some q) {v : Value} (hb : q.Binds schema l field v) :
    k.parameters[i]? = some v := by
  obtain ⟨field', v', hb', hv'⟩ := exists_parameter hk hq
  obtain ⟨-, rfl⟩ := hb.unique hb'
  exact hv'

/-- **A locale decides on nothing but what is read by it.** Without dates and times in a filter, two
locales with the same separators give the same result, and without numbers, two locales with the
same layouts. The parameters of text, booleans and identifiers are the same wherever there are any,
and a timestamp that is complete in itself is the same time under every locale. -/
theorem locale_noninterference (schema : Schema) (f : Filter) :
    (∀ l l' : Locale, l.decimal = l'.decimal → l.group = l'.group →
      (∀ q ∈ f.leaves, ∀ field, schema.resolve? q.field = some field →
        field.type ≠ .datetime ∧ field.type ≠ .date) →
      compile schema l f = compile schema l' f) ∧
    (∀ l l' : Locale, l.datetimeLayouts = l'.datetimeLayouts → l.dateLayouts = l'.dateLayouts →
      (∀ q ∈ f.leaves, ∀ field, schema.resolve? q.field = some field →
        field.type ≠ .integer ∧ field.type ≠ .float) →
      compile schema l f = compile schema l' f) ∧
    (∀ (l l' : Locale) (k k' : Compiled), compile schema l f = .ok k → compile schema l' f = .ok k' →
      ∀ (i : Nat) (q : Comparison) (field : Field), f.leaves[i]? = some q → schema.resolve? q.field = some field →
        field.type = .string ∨ field.type = .boolean ∨ field.type = .uuid →
        ∃ v, k.parameters[i]? = some v ∧ k'.parameters[i]? = some v) ∧
    ∀ (i : Nat) (q : Comparison) (field : Field) (s : String) (t : Calendar.Instant),
      f.leaves[i]? = some q → schema.resolve? q.field = some field →
      field.type = .datetime → q.operand = some s →
      Calendar.Instant.ofRfc3339 (trim s.toList) = .ok t →
      ∀ l : Locale, q.Binds schema l field (.datetime t) ∧
        ∀ k, compile schema l f = .ok k → k.parameters[i]? = some (.datetime t) := by
  refine ⟨fun l l' hdecimal hgroup hnone => ?_, fun l l' hdatetime hdate hnone => ?_,
    fun l l' k k' hk hk' i q field hq hfield htype => ?_,
    fun i q field s t hq hfield htype hs ht l => ?_⟩
  · refine compile_congr fun q hq field hfield => ?_
    obtain ⟨hnotDatetime, hnotDate⟩ := hnone q hq field hfield
    cases htype : field.type with
    | datetime => exact absurd htype hnotDatetime
    | date => exact absurd htype hnotDate
    | integer => exact ⟨hdecimal, hgroup⟩
    | float => exact ⟨hdecimal, hgroup⟩
    | _ => trivial
  · refine compile_congr fun q hq field hfield => ?_
    obtain ⟨hnotInteger, hnotFloat⟩ := hnone q hq field hfield
    cases htype : field.type with
    | integer => exact absurd htype hnotInteger
    | float => exact absurd htype hnotFloat
    | datetime => exact ⟨hdatetime, hdate⟩
    | date => exact ⟨hdatetime, hdate⟩
    | _ => trivial
  · refine parameter_congr hk hk' hq fun field' hfield' => ?_
    cases hfield.symm.trans hfield'
    rcases htype with h | h | h <;> rw [h] <;> trivial
  · have hb : q.Binds schema l field (.datetime t) := by
      refine ⟨hfield, ?_⟩
      rw [hs]
      exact coerce_timestamp htype ht
    exact ⟨hb, fun k hk => parameter_of_binds hk hq hb⟩

/-- A locale of other separators and without layouts, and a timestamp two hours ahead of UTC. -/
theorem locale_noninterference_ahead :
    let schema : Schema := ⟨[⟨"Name", .string, false⟩, ⟨"Created", .datetime, false⟩]⟩
    let bare : Locale := ⟨',', none, [], []⟩
    let sent := " 2024-05-01T00:30:00+02:00 "
    let f : Filter := .group .or
      [.leaf ⟨"name", .contains, some "Ann", false⟩, .leaf ⟨"created", .lt, some sent, false⟩]
    ∃ k k' v t, compile schema .invariant f = .ok k ∧ compile schema bare f = .ok k' ∧
      k.parameters[0]? = some v ∧ k'.parameters[0]? = some v ∧
      Calendar.Instant.ofRfc3339 (trim sent.toList) = .ok t ∧ t.text = "2024-04-30T22:30:00+00:00" ∧
      k.parameters[1]? = some (.datetime t) ∧ k'.parameters[1]? = some (.datetime t) := by
  intro schema bare sent f
  obtain ⟨k, hk⟩ := Option.isSome_iff_exists.1
    (by decide +kernel : (compile schema .invariant f).toOption.isSome = true)
  obtain ⟨k', hk'⟩ := Option.isSome_iff_exists.1
    (by decide +kernel : (compile schema bare f).toOption.isSome = true)
  have hk := toOption_eq_some_iff.1 hk
  have hk' := toOption_eq_some_iff.1 hk'
  obtain ⟨t, ht, htext⟩ := Option.map_eq_some_iff.1
    (by decide +kernel : (Calendar.Instant.ofRfc3339 (trim sent.toList)).toOption.map
      Calendar.Instant.text = some "2024-04-30T22:30:00+00:00")
  have ht := toOption_eq_some_iff.1 ht
  obtain ⟨-, -, hsame, htime⟩ := locale_noninterference schema f
  obtain ⟨v, hv, hv'⟩ := hsame _ _ k k' hk hk' 0 _ ⟨"Name", .string, false⟩ rfl rfl (.inl rfl)
  have htime := htime 1 _ ⟨"Created", .datetime, false⟩ sent t rfl (by decide +kernel) rfl rfl ht
  exact ⟨k, k', v, t, hk, hk', hv, hv', ht, htext, (htime _).2 k hk, (htime _).2 k' hk'⟩

end Criteria
