import Criteria.Proofs.Json.Items
import Criteria.Proofs.Json.Skipping
import Criteria.Proofs.Wire.WellFormed
import Mathlib.Logic.Function.Iterate

/-! How deep a filter can nest, whatever depth is allowed.

A descriptor costs two of the levels that a text may open, its own bracket and that of the list of
its children, so 127 levels are enough for 64 descriptors inside each other and no more
(`depth_le_of_takes`). The other way around, a text that opens descriptors inside of each other
(`Nests`) is never read as anything less deep (`Nests.depth_le`). The text need not be complete, and
nothing is asked of what stands before and between the descriptors. Together they bound every
recursion over what has been read and refuse all that would exceed the bound
(`nesting_bounded`). -/
namespace Criteria

open Json Json.Reader Criteria.Tree

variable {s s' r list : List Char}

namespace Descriptor

/-! ### Depth -/

mutual

/-- How many descriptors stand inside each other. -/
def depth : Descriptor → Nat
  | ⟨_, _, _, _, some ds, _⟩ => 1 + depthAll ds
  | ⟨_, _, _, _, none, _⟩ => 1

def depthAll : List Descriptor → Nat
  | [] => 0
  | d :: ds => max (depth d) (depthAll ds)

end

theorem depth_of_children {d : Descriptor} {ds : List Descriptor} (h : d.filters = some ds) :
    d.depth = 1 + depthAll ds := by
  obtain ⟨_, _, _, _, filters, _⟩ := d
  cases h
  rw [depth]

theorem depth_of_no_children {d : Descriptor} (h : d.filters = none) : d.depth = 1 := by
  obtain ⟨_, _, _, _, filters, _⟩ := d
  cases h
  rw [depth]

theorem depthAll_le_iff {ds : List Descriptor} {n : Nat} :
    depthAll ds ≤ n ↔ ∀ d ∈ ds, d.depth ≤ n := by
  induction ds with
  | nil => simp [depthAll]
  | cons d ds ih => rw [depthAll, Nat.max_le, ih, List.forall_mem_cons]

mutual

/-- A filter has the depth of its descriptor. -/
theorem depth_tree {strict : Bool} : ∀ {d : Descriptor} {f : Filter},
    tree strict d = .ok f → f.depth = d.depth
  | ⟨_, _, _, _, some (d :: ds), _⟩, f, h => by
    obtain ⟨-, l, ts, -, hts, rfl⟩ := tree_group_eq_ok_iff.1 h
    rw [Tree.depth, depth, depthAll_trees hts]
  | ⟨_, _, _, _, some [], _⟩, f, h => by
    rw [tree_of_no_children strict rfl] at h
    obtain ⟨q, -, rfl⟩ := map_eq_ok_iff.1 h
    rfl
  | ⟨_, _, _, _, none, _⟩, f, h => by
    rw [tree_of_no_children strict rfl] at h
    obtain ⟨q, -, rfl⟩ := map_eq_ok_iff.1 h
    rfl

/-- Filters are as deep as their descriptors. -/
theorem depthAll_trees {strict : Bool} : ∀ {ds : List Descriptor} {ts : List Filter},
    trees strict ds = .ok ts → Tree.depthAll ts = depthAll ds
  | [], ts, h => by
    cases h
    rfl
  | d :: ds, ts, h => by
    obtain ⟨t, us, ht, hus, rfl⟩ := trees_cons_eq_ok_iff.1 h
    rw [Tree.depthAll, depthAll, depth_tree ht, depthAll_trees hus]

end

/-! ### The readers keep to their items -/

variable {levels : Nat} {children : Json.Reader (List Descriptor)} {d : Descriptor}

theorem stays_operand (levels : Nat) : Stays (operand levels) := by
  refine (stays_value levels).bind fun j => ?_
  cases j
  case array | object => exact passes_fail
  all_goals exact passes_pure rfl

theorem stays_member (hchildren : Finishes children) (draft : Draft) (key : String) :
    Stays (member levels children draft key) := by
  unfold member
  split
  · exact (stays_once _ _ (stays_optional stays_text)).bind fun _ => passes_pure rfl
  · exact (stays_once _ _ (stays_optional stays_text)).bind fun _ => passes_pure rfl
  · exact (stays_once _ _ (stays_operand levels)).bind fun _ => passes_pure rfl
  · exact (stays_once _ _ (stays_optional stays_text)).bind fun _ => passes_pure rfl
  · exact (stays_once _ _ (stays_optional (stays_sequence hchildren))).bind fun _ => passes_pure rfl
  · exact (stays_once _ _ stays_flag).bind fun _ => passes_pure rfl
  · exact (stays_once _ _ stays_flag).bind fun _ => passes_pure rfl
  · exact stays_ignored.bind fun _ => passes_pure rfl

theorem finishes_positional (hchildren : Finishes children) : Finishes (positional levels children) := by
  refine (inside_place (stays_optional stays_text) _ _ _).bind fun _ => ?_
  refine (inside_place (stays_optional stays_text) _ _ _).bind fun _ => ?_
  refine (inside_slot (stays_operand levels) _).bind fun _ => ?_
  refine (inside_place (stays_optional stays_text) _ _ _).bind fun _ => ?_
  refine (inside_place (stays_optional (stays_sequence hchildren)) _ _ _).bind fun _ => ?_
  refine (inside_slot stays_flag _).bind fun _ => ?_
  exact finishes_closeList.bind fun _ => passes_pure rfl

theorem stays_recordAt (hchildren : Finishes children) : Stays (recordAt levels children) :=
  stays_record (finishes_positional hchildren)
    ((finishes_members (stays_member hchildren) {}).bind fun _ => passes_pure rfl)

theorem stays_reader : ∀ levels : Nat, Stays (reader levels)
  | 0 => stays_record passes_fail passes_fail
  | 1 => stays_recordAt passes_fail
  | levels + 2 => stays_recordAt (finishes_elements (stays_reader levels))

/-! ### Where children come from -/

/-- Only the member of this name says anything about the children, and it says it once. -/
theorem member_cases {draft draft' : Draft} {key : String}
    (h : Takes (member levels children draft key) s draft' r) :
    draft'.filters = draft.filters ∧ key ≠ "filters" ∨
      draft.filters = none ∧ ∃ o t u, draft'.filters = some o ∧ Takes colon s () t ∧
        Takes (optional (sequence children)) t o u := by
  unfold member at h
  split at h
  case h_5 =>
    obtain ⟨o, t, honce, h⟩ := takes_bind_iff.1 h
    obtain ⟨rfl, rfl⟩ := takes_pure_iff.1 h
    obtain ⟨hnone, o, u, rfl, hcolon, hu⟩ := given_of_once honce
    exact .inr ⟨hnone, o, u, r, rfl, hcolon, hu⟩
  all_goals
    obtain ⟨_, _, -, h⟩ := takes_bind_iff.1 h
    obtain ⟨rfl, -⟩ := takes_pure_iff.1 h
    first | exact .inl ⟨rfl, by decide⟩ | exact .inl ⟨rfl, ‹_›⟩

theorem draft_of_keyed (h : Takes (keyed levels children) s d r) :
    ∃ draft, MembersTaken (member levels children) true {} s draft r ∧
      d.filters = draft.filters.join := by
  obtain ⟨draft, u, h, hfinish⟩ := takes_bind_iff.1 h
  obtain ⟨rfl, rfl⟩ := takes_pure_iff.1 hfinish
  exact ⟨draft, membersTaken_of_takes h, rfl⟩

/-- The children by position, the fifth of the items. -/
theorem filters_of_positional (h : Takes (positional levels children) s d r) :
    ∃ t u, Takes (optional (sequence children)) (afterSpace t) d.filters u ∧
      ∀ m, itemAt 4 s = some m → m = t := by
  obtain ⟨field, r₀, h₀, h⟩ := takes_bind_iff.1 h
  obtain ⟨operator, r₁, h₁, h⟩ := takes_bind_iff.1 h
  obtain ⟨value, r₂, h₂, h⟩ := takes_bind_iff.1 h
  obtain ⟨logic, r₃, h₃, h⟩ := takes_bind_iff.1 h
  obtain ⟨filters, r₄, h₄, h⟩ := takes_bind_iff.1 h
  obtain ⟨_, r₅, -, h⟩ := takes_bind_iff.1 h
  obtain ⟨_, r₆, -, h⟩ := takes_bind_iff.1 h
  obtain ⟨rfl, -⟩ := takes_pure_iff.1 h
  obtain ⟨t₀, hnext₀, h₀⟩ := element_of_place h₀
  obtain ⟨t₁, hnext₁, h₁⟩ := element_of_place h₁
  obtain ⟨t₃, hnext₃, h₃⟩ := element_of_place h₃
  obtain ⟨t₄, hnext₄, h₄⟩ := element_of_place h₄
  have htext : Stays (optional text) := stays_optional stays_text
  refine ⟨t₄, r₄, h₄, fun m hm => ?_⟩
  have hfield : itemAt 4 s = itemAt 4 r₀ := hnext₀.itemAt_rest htext h₀ 3
  have hoperator : itemAt 4 r₀ = itemAt 3 r₁ := hnext₁.itemAt_rest htext h₁ 2
  have hlogic : itemAt 2 r₂ = itemAt 1 r₃ := hnext₃.itemAt_rest htext h₃ 0
  have hfilters : itemAt 1 r₃ = some t₄ := hnext₄.itemAt_eq 0
  rw [hfield, hoperator] at hm
  rcases slot_cases h₂ with ⟨v, t₂, -, hnext₂, h₂⟩ | ⟨-, rfl, t, hclosed⟩
  · have hvalue : itemAt 3 r₁ = itemAt 2 r₂ := hnext₂.itemAt_rest (stays_operand levels) h₂ 1
    rw [hvalue, hlogic, hfilters] at hm
    exact (Option.some.inj hm).symm
  · -- a list that ends before its third element has no further one
    rw [itemAt_succ_closed hclosed (.inl rfl)] at hm
    cases hm

theorem children_of_optional {o : Option (List Descriptor)}
    (h : Takes (optional (sequence children)) s o r) :
    (o = none ∧ ∃ t, afterSpace s = 'n' :: t) ∨
      ∃ ds t, o = some ds ∧ afterSpace s = '[' :: t ∧ Takes children t ds r := by
  refine (optional_cases h).imp_right fun hsome => ?_
  obtain ⟨ds, rfl, hsequence⟩ := hsome
  obtain ⟨t, hbracket, hds⟩ := bracket_of_sequence hsequence
  rw [afterSpace_afterSpace] at hbracket
  exact ⟨ds, t, rfl, hbracket, hds⟩

/-- Children have been taken as children. -/
theorem children_of_recordAt (h : Takes (recordAt levels children) s d r) {ds : List Descriptor}
    (hds : d.filters = some ds) : ∃ t u, Takes children t ds u := by
  have hoptional : ∀ {t u o}, Takes (optional (sequence children)) t o u → o = some ds →
      ∃ t u, Takes children t ds u := by
    intro t u o h ho
    subst ho
    rcases children_of_optional h with ⟨he, -⟩ | ⟨_, v, he, -, h⟩
    · cases he
    · cases he
      exact ⟨v, u, h⟩
  rcases spelling_of_record h with ⟨t, -, h⟩ | ⟨t, -, h⟩
  · obtain ⟨t, u, h, -⟩ := filters_of_positional h
    exact hoptional h hds
  · obtain ⟨draft, hmembers, he⟩ := draft_of_keyed h
    rw [he] at hds
    refine hmembers.preserves
      (P := fun draft => draft.filters.join = some ds → ∃ t u, Takes children t ds u) ?_ nofun hds
    intro draft key s draft' r h hdraft hds
    rcases member_cases h with ⟨he, -⟩ | ⟨-, o, t, u, he, -, h⟩
    · exact hdraft (he ▸ hds)
    · rw [he] at hds
      exact hoptional h hds

/-- No deeper than the levels that are left. -/
theorem depth_recordAt {n : Nat} (h : Takes (recordAt levels children) s d r)
    (hchildren : ∀ {t ds u}, Takes children t ds u → depthAll ds ≤ n) : d.depth ≤ 1 + n := by
  cases hds : d.filters with
  | none =>
    rw [depth_of_no_children hds]
    exact Nat.le_add_right 1 n
  | some ds =>
    obtain ⟨t, u, h⟩ := children_of_recordAt h hds
    rw [depth_of_children hds]
    exact Nat.add_le_add_left (hchildren h) 1

/-- Two levels of JSON are opened for each level of descriptors. -/
theorem depth_le_of_takes : ∀ {levels : Nat} {s r : List Char} {d : Descriptor},
    Takes (reader levels) s d r → 2 * d.depth ≤ levels + 1
  | 0, s, r, d, h => by
    rcases spelling_of_record h with ⟨t, -, h⟩ | ⟨t, -, h⟩ <;> exact absurd h not_takes_fail
  | 1, s, r, d, h => by
    have hd := depth_recordAt (n := 0) h fun h => absurd h not_takes_fail
    omega
  | levels + 2, s, r, d, h => by
    have hd := depth_recordAt (n := (levels + 1) / 2) h fun {t ds u} h => by
      obtain ⟨v, hds, -⟩ := elementsTaken_of_takes h
      refine depthAll_le_iff.2 fun d hd => ?_
      obtain ⟨t, u, hd⟩ := hds.exists_text d hd
      have := depth_le_of_takes hd
      omega
    omega

end Descriptor

/-! ### Texts that nest -/

/-- A descriptor starts here, and the list of its children there, in either spelling. -/
inductive ListsChildren : List Char → List Char → Prop
  | keyed {s body member key value after list : List Char} {i : Nat} :
      afterSpace s = '\x7b' :: body → itemAt i body = some member →
      afterSpace member = '"' :: key → Takes string key "filters" value →
      afterSpace value = ':' :: after → afterSpace after = '[' :: list → ListsChildren s list
  | positional {s body member list : List Char} :
      afterSpace s = '[' :: body → itemAt 4 body = some member →
      afterSpace member = '[' :: list → ListsChildren s list

/-- So many descriptors are opened inside of each other, each as an item of the list of children of
the one before. -/
inductive Nests : Nat → List Char → Prop
  | one {s t : List Char} {c : Char} : afterSpace s = c :: t → c = '[' ∨ c = '\x7b' → Nests 1 s
  | more {s list child : List Char} {i k : Nat} : ListsChildren s list →
      itemAt i list = some child → Nests k child → Nests (k + 1) s

theorem Nests.bracket {k : Nat} (h : Nests k s) :
    ∃ c t, afterSpace s = c :: t ∧ (c = '[' ∨ c = '\x7b') := by
  cases h with
  | one hs hc => exact ⟨_, _, hs, hc⟩
  | more hlist =>
    cases hlist with
    | keyed hs => exact ⟨_, _, hs, .inr rfl⟩
    | positional hs => exact ⟨_, _, hs, .inl rfl⟩

namespace Descriptor

variable {levels : Nat} {children : Json.Reader (List Descriptor)} {d : Descriptor}

/-- Where a list of children starts, the children have been taken from. -/
theorem children_of_list {o : Option (List Descriptor)}
    (h : Takes (optional (sequence children)) s o r) (hs : afterSpace s = '[' :: list) :
    ∃ ds, o = some ds ∧ Takes children list ds r := by
  rcases children_of_optional h with ⟨-, t, hnull⟩ | ⟨ds, t, ho, hbracket, h⟩
  · cases hnull.symm.trans hs
  · cases hbracket.symm.trans hs
    exact ⟨ds, ho, h⟩

/-- A member for the children gives the draft what stands in its list, and no member after it takes
that away. -/
theorem children_of_member {draft : Draft} {body m key value after : List Char} {i : Nat}
    (hchildren : Finishes children) (h : MembersTaken (member levels children) true {} body draft r)
    (hat : itemAt i body = some m) (hquote : afterSpace m = '"' :: key)
    (hkey : Takes string key "filters" value) (hcolon : afterSpace value = ':' :: after)
    (hbracket : afterSpace after = '[' :: list) :
    ∃ ds u, draft.filters = some (some ds) ∧ Takes children list ds u := by
  refine h.holds_of_item
    (P := fun draft => ∃ ds u, draft.filters = some (some ds) ∧ Takes children list ds u)
    (stays_member hchildren) ?_ (i := i) hat hquote ?_
  · intro draft key s draft' r h hdraft
    obtain ⟨ds, u, hfilters, hds⟩ := hdraft
    rcases member_cases h with ⟨he, -⟩ | ⟨hnone, -⟩
    · exact ⟨ds, u, he.trans hfilters, hds⟩
    · cases hnone.symm.trans hfilters
  · intro draft name v draft' w hname hmember
    obtain ⟨rfl, rfl⟩ := takes_unique hname hkey
    rcases member_cases hmember with ⟨-, hne⟩ | ⟨-, o, t, u, hfilters, htaken, ho⟩
    · exact absurd rfl hne
    cases (afterSpace_of_colon htaken).symm.trans hcolon
    obtain ⟨ds, rfl, hds⟩ := children_of_list ho hbracket
    exact ⟨ds, u, hfilters, hds⟩

/-- A list of children where one may stand is read as the children. -/
theorem children_of_listsChildren (hlist : ListsChildren s list) (hs : afterSpace s' = afterSpace s)
    (hchildren : Finishes children) (h : Takes (recordAt levels children) s' d r) :
    ∃ ds u, d.filters = some ds ∧ Takes children list ds u := by
  cases hlist with
  | keyed hbody hat hquote hkey hcolon hbracket =>
    rcases spelling_of_record h with ⟨t, ht, -⟩ | ⟨t, ht, h⟩
    · cases (ht.symm.trans hs).trans hbody
    cases (ht.symm.trans hs).trans hbody
    obtain ⟨draft, hmembers, he⟩ := draft_of_keyed h
    obtain ⟨ds, u, hfilters, hds⟩ :=
      children_of_member hchildren hmembers hat hquote hkey hcolon hbracket
    rw [hfilters] at he
    exact ⟨ds, u, he, hds⟩
  | positional hbody hat hbracket =>
    rcases spelling_of_record h with ⟨t, ht, h⟩ | ⟨t, ht, -⟩
    · cases (ht.symm.trans hs).trans hbody
      obtain ⟨t, u, h, hitem⟩ := filters_of_positional h
      cases hitem _ hat
      obtain ⟨ds, hds, h⟩ := children_of_list h ((afterSpace_afterSpace _).trans hbracket)
      exact ⟨ds, u, hds, h⟩
    · cases (ht.symm.trans hs).trans hbody

end Descriptor

/-- A text is never read as anything less deep than it is. -/
theorem Nests.depth_le {k : Nat} (h : Nests k s) : ∀ {levels : Nat} {s' r : List Char}
    {d : Descriptor}, afterSpace s' = afterSpace s → Takes (Descriptor.reader levels) s' d r →
      k ≤ d.depth := by
  -- on the nesting: the reader that takes the list takes each child with two levels less
  induction h with
  | one hs hc =>
    intro levels s' r d hs' hd
    cases hfilters : d.filters with
    | none => rw [Descriptor.depth_of_no_children hfilters]
    | some ds =>
      rw [Descriptor.depth_of_children hfilters]
      exact Nat.le_add_right 1 _
  | @more s list child i k hlist hat hchild ih =>
    intro levels s' r d hs' hd
    match levels with
    | 0 =>
      rcases spelling_of_record hd with ⟨t, -, h⟩ | ⟨t, -, h⟩ <;> exact absurd h not_takes_fail
    | 1 =>
      obtain ⟨ds, u, -, h⟩ := Descriptor.children_of_listsChildren hlist hs' passes_fail hd
      exact absurd h not_takes_fail
    | levels + 2 =>
      have hitem := Descriptor.stays_reader levels
      obtain ⟨ds, u, hfilters, hds⟩ :=
        Descriptor.children_of_listsChildren hlist hs' (finishes_elements hitem) hd
      obtain ⟨v, hds, -⟩ := elementsTaken_of_takes hds
      obtain ⟨c, t, hopen, hc⟩ := hchild.bracket
      have hnotClosed : ∀ u, afterSpace child ≠ ']' :: u := by
        intro u hu
        cases hopen.symm.trans hu
        rcases hc with hc | hc <;> cases hc
      obtain ⟨a, ha, w, htaken⟩ := hds.exists_element hitem (i := i) hat hnotClosed
      have hk := ih (afterSpace_afterSpace child) htaken
      have hdepth := Descriptor.depthAll_le_iff.1 (Nat.le_refl _) a ha
      rw [Descriptor.depth_of_children hfilters]
      omega

/-! ### Every text -/

theorem takes_of_ofJson {text : String} {d : Descriptor} (h : Descriptor.ofJson text = .ok d) :
    ∃ r, Takes (Descriptor.reader maxDepth) text.toList d r :=
  takes_of_run h

/-- What is read is at most 64 deep. -/
theorem depth_le_of_ofJson {text : String} {d : Descriptor} (h : Descriptor.ofJson text = .ok d) :
    d.depth ≤ 64 := by
  obtain ⟨r, h⟩ := takes_of_ofJson h
  have hd := Descriptor.depth_le_of_takes h
  rw [maxDepth] at hd
  omega

/-- **Recursion is bounded whatever depth is allowed.** What is read has at most 64 descriptors
inside each other, a filter made of it at most 64 nodes above each other, and no way down it is
longer. A text that opens more than 64 descriptors inside of each other, in whichever spelling, is
refused before any filter is made of it. -/
theorem nesting_bounded (text : String) :
    (∀ d, Descriptor.ofJson text = .ok d → d.depth ≤ 64) ∧
    (∀ l f, Filter.ofJson l text = .ok f →
      f.depth ≤ 64 ∧ ∀ path u, f.descend? path = some u → path.length < 64) ∧
    ∀ k, 64 < k → Nests k text.toList →
      ∃ p, Descriptor.ofJson text = .error p ∧
        ∀ l : Limits, text.utf8ByteSize ≤ l.maxJsonBytes →
          Filter.ofJson l text = .error (.invalidJson p) := by
  refine ⟨fun d => depth_le_of_ofJson, fun l f hf => ?_, fun k hk hnests => ?_⟩
  · obtain ⟨-, ⟨d, hd, hf⟩, -⟩ := ofJson_eq_ok_iff.1 hf
    have hdepth : f.depth ≤ 64 := by
      rw [Descriptor.depth_tree hf]
      exact depth_le_of_ofJson hd
    refine ⟨hdepth, fun path u hu => ?_⟩
    have hpath := depth_of_descend? hu
    have hu := depth_pos u
    omega
  · cases hread : Descriptor.ofJson text with
    | ok d =>
      obtain ⟨r, htaken⟩ := takes_of_ofJson hread
      have hd := hnests.depth_le rfl htaken
      have hbound := depth_le_of_ofJson hread
      omega
    | error p =>
      refine ⟨p, rfl, fun l hsize => ?_⟩
      simp only [Filter.ofJson, if_neg (Nat.not_lt_of_le hsize), hread]

/-- The spellings alternate, and the text breaks off after the bracket of the last descriptor. -/
theorem nesting_bounded_alternating :
    let opened := fun s => "\x7b\"filters\":[[null,null,null,null,[".toList ++ s
    let text := String.ofList (opened^[32] ['['])
    let limits : Limits := { maxJsonBytes := text.utf8ByteSize, maxDepth := 1000 }
    Nests 65 text.toList ∧ ∃ p, Filter.ofJson limits text = .error (.invalidJson p) := by
  intro opened text limits
  have hopened : ∀ s k, Nests k s → Nests (k + 2) (opened s) := by
    intro s k h
    have hinner : Nests (k + 1) ("[null,null,null,null,[".toList ++ s) :=
      .more (i := 0) (.positional rfl rfl rfl) rfl h
    exact .more (i := 0) (.keyed (i := 0) rfl rfl rfl (takes_string "filters" _) rfl rfl) rfl hinner
  have hnests : ∀ n, Nests (2 * n + 1) (opened^[n] ['[']) := by
    intro n
    induction n with
    | zero => exact .one rfl (.inl rfl)
    | succ n ih =>
      rw [Function.iterate_succ_apply']
      exact hopened _ _ ih
  have htext : Nests 65 text.toList := by
    rw [String.toList_ofList]
    exact hnests 32
  obtain ⟨p, -, hp⟩ := (nesting_bounded text).2.2 65 (by decide) htext
  have hsize : text.utf8ByteSize ≤ limits.maxJsonBytes := by
    dsimp only [limits]
    exact Nat.le_refl _
  exact ⟨htext, p, hp limits hsize⟩

end Criteria
