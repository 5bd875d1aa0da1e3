import Criteria.Proofs.Json.Containers
import Criteria.Proofs.Wire.WellFormed

/-! Filters survive the wire.

`Filter.json` writes a filter as a client would: a comparison with all of its fields, a
group with its connective and its children. Reading the text gives the filter back
(`ofJson_text`), whatever characters its fields and operands have, as deep as brackets may
nest: each group opens one bracket for itself and one for its children. -/
namespace Criteria

open Criteria.Tree Json Json.Reader

/-! ### Writing a filter -/

def Comparison.json (q : Comparison) : Json :=
  .object [("field", .string q.field), ("operator", .string q.operator.code),
    ("value", q.operand.elim .null .string), ("casesensitive", .boolean q.caseSensitive)]

namespace Filter

mutual

def json : Filter → Json
  | .leaf q => q.json
  | .group l ts => .object [("logic", .string l.word), ("filters", .array (jsons ts))]

def jsons : List Filter → List Json
  | [] => []
  | t :: ts => json t :: jsons ts

end

mutual

/-- What the text of a filter describes. -/
def descriptor : Filter → Descriptor
  | .leaf q => ⟨some q.field, some q.operator.code, q.operand, none, none, q.caseSensitive⟩
  | .group l ts => ⟨none, none, none, some l.word, some (descriptors ts), false⟩

def descriptors : List Filter → List Descriptor
  | [] => []
  | t :: ts => descriptor t :: descriptors ts

end

end Filter

/-! ### Reading a descriptor -/

namespace Descriptor

/-- The members of a comparison, with `cs` for the text of its value. -/
def comparisonMembers (field code : String) (cs : List Char) (caseSensitive : Bool) :
    List (String × List Char) :=
  [("field", stringChars field), ("operator", stringChars code), ("value", cs),
    ("casesensitive", wordChars caseSensitive)]

theorem reads_optional_text (v : String) : Reads (optional text) (stringChars v) (some v) :=
  reads_optional (reads_text v) rfl (by decide)

/-- A member that has not been given yet, under its own key, is taken by the reader of its value. -/
theorem reads_member {depth : Nat} {children : Json.Reader (List Descriptor)} {d : Draft}
    {key : String} {x : Json.Reader α} {cs : List Char} {a : α} (put : Option α → Draft)
    (hkey : member depth children d key = (do pure (put (← once key none x)))) (h : Reads x cs a) :
    Reads (member depth children d key) (':' :: cs) (put (some a)) :=
  hkey ▸ (reads_once h key).map put

/-- A comparison is read back, given how its operand is. -/
theorem reads_comparison {depth : Nat} {children : Json.Reader (List Descriptor)}
    {field code : String} {cs : List Char} {v : Option String} {caseSensitive : Bool}
    (h : Reads (Descriptor.operand depth) cs v) :
    Reads (recordAt depth children) (objectChars (comparisonMembers field code cs caseSensitive))
      ⟨some field, some code, v, none, none, caseSensitive⟩ := by
  have hsteps : Steps (member depth children) {} (comparisonMembers field code cs caseSensitive)
      ⟨some (some field), some (some code), some v, none, none, some caseSensitive⟩ := by
    refine .cons (reads_member (fun f => { field := f }) ?_ (reads_optional_text field)) <|
      .cons (reads_member (fun o => ⟨some (some field), o, none, none, none, none⟩) ?_
        (reads_optional_text code)) <|
      .cons (reads_member (fun w => ⟨some (some field), some (some code), w, none, none, none⟩) ?_
        h) <|
      .cons (reads_member (fun b => ⟨some (some field), some (some code), some v, none, none, b⟩) ?_
        (reads_flag caseSensitive)) (.nil _)
    all_goals simp only [member]
  exact reads_record hsteps Draft.finish _ _

/-- The members of a group, with the texts of its children. -/
def groupMembers (logic : String) (parts : List (List Char)) : List (String × List Char) :=
  [("logic", stringChars logic), ("filters", '[' :: (listed parts ++ [']']))]

theorem reads_children {item : Json.Reader Descriptor} {parts : List (List Char)}
    {ds : List Descriptor} (h : ReadsAll item parts ds) :
    Reads (optional (sequence (elements item))) ('[' :: (listed parts ++ [']'])) (some ds) := by
  refine reads_optional (reads_sequence fun r => ?_) rfl (by decide)
  rw [List.append_assoc]
  exact takes_elements h r

/-- A group is read back, given how its children are. -/
theorem reads_group {depth : Nat} {item : Json.Reader Descriptor} {logic : String}
    {parts : List (List Char)} {ds : List Descriptor} (h : ReadsAll item parts ds) :
    Reads (recordAt depth (elements item))
      (objectChars (groupMembers logic parts))
      ⟨none, none, none, some logic, some ds, false⟩ := by
  have hsteps : Steps (member depth (elements item)) {} (groupMembers logic parts)
      ⟨none, none, none, some (some logic), some (some ds), none⟩ := by
    refine .cons (reads_member (fun l => { logic := l }) ?_ (reads_optional_text logic)) <|
      .cons (reads_member (fun c => ⟨none, none, none, some (some logic), c, none⟩) ?_
        (reads_children h)) (.nil _)
    all_goals simp only [member]
  exact reads_record hsteps Draft.finish _ _

end Descriptor

/-! ### Reading what has been written -/

namespace Filter

/-- The text of an operand. -/
def operandChars (operand : Option String) : List Char := operand.elim "null".toList stringChars

theorem reads_operand (depth : Nat) (operand : Option String) :
    Reads (Descriptor.operand depth) (operandChars operand) operand := by
  intro r hr
  cases operand with
  | none => exact (reads_value_null depth r hr).bind (takes_pure _ _)
  | some s => exact (reads_value_string depth s r hr).bind (takes_pure _ _)

theorem chars_leaf (q : Comparison) : (json (.leaf q)).chars =
    objectChars (Descriptor.comparisonMembers q.field q.operator.code (operandChars q.operand)
      q.caseSensitive) := by
  cases h : q.operand <;>
    simp only [json, Comparison.json, h, objectChars, Json.chars, Json.memberChars, operandChars, memberText,
      Descriptor.comparisonMembers, Option.elim, List.map_cons, List.map_nil, List.cons_append]

theorem chars_group (l : Logic) (ts : List Filter) : (json (.group l ts)).chars =
    objectChars (Descriptor.groupMembers l.word (Json.itemChars (jsons ts))) := by
  simp only [json, objectChars, Json.chars, Json.memberChars, memberText, Descriptor.groupMembers,
    List.map_cons, List.map_nil, List.cons_append]

mutual

/-- Two brackets are open at each node above: that of the group and that of its list. -/
theorem reads_descriptor : ∀ (f : Filter) (k : Nat), f.Populated → f.depth ≤ k + 1 →
    Reads (Descriptor.reader (2 * k + 1)) f.json.chars f.descriptor
  | .leaf q, k, _, _ => by
    rw [chars_leaf]
    cases k with
    | zero => exact Descriptor.reads_comparison (reads_operand _ q.operand)
    | succ k => exact Descriptor.reads_comparison (reads_operand _ q.operand)
  | .group l [], _, hpop, _ => absurd rfl hpop.1
  | .group l (t :: ts), k, hpop, hdepth => by
    rw [chars_group]
    rw [depth] at hdepth
    cases k with
    | zero =>
      have ht := depth_pos t
      rw [depthAll] at hdepth
      omega
    | succ k =>
      exact Descriptor.reads_group (readsAll_descriptors (t :: ts) k hpop.2 (by omega))

/-- Filters that are not too deep are read back as their descriptors. -/
theorem readsAll_descriptors : ∀ (ts : List Filter) (k : Nat), PopulatedAll ts →
    depthAll ts ≤ k + 1 →
      ReadsAll (Descriptor.reader (2 * k + 1)) (Json.itemChars (jsons ts)) (descriptors ts)
  | [], _, _, _ => .nil
  | t :: ts, k, hpop, hdepth => by
    rw [depthAll] at hdepth
    have hopens : Opens t.json.chars := by
      cases t with
      | leaf q => exact ⟨_, _, chars_leaf q, rfl, by decide⟩
      | group l us => exact ⟨_, _, chars_group l us, rfl, by decide⟩
    exact .cons ⟨hopens, reads_descriptor t k hpop.1 (by omega)⟩
      (readsAll_descriptors ts k hpop.2 (by omega))

end

theorem ofText?_word (l : Logic) : Logic.ofText? l.word = some l := by
  cases l <;> decide

theorem comparison_descriptor {q : Comparison}
    (h : ∃ c ∈ q.field.toList, Text.isBlank c = false) :
    (descriptor (.leaf q)).comparison = .ok q := by
  have hblank : Text.allBlank q.field.toList = false := by
    simpa [Text.allBlank] using h
  simp only [descriptor, Descriptor.comparison, Option.filter, hblank, Bool.not_false, if_true,
    Operator.ofCode?_code]

mutual

/-- A well-formed filter comes back from what its text describes, strictly or not. -/
theorem tree_descriptor (strict : Bool) : ∀ f : Filter, f.Populated →
    (∀ q ∈ f.leaves, ∃ c ∈ q.field.toList, Text.isBlank c = false) →
      Descriptor.tree strict f.descriptor = .ok f
  | .leaf q, _, hnamed => by
    rw [Descriptor.tree_of_no_children strict rfl,
      comparison_descriptor (hnamed q (List.mem_singleton_self q))]
    rfl
  | .group l [], hpop, _ => absurd rfl hpop.1
  | .group l (t :: ts), hpop, hnamed => by
    have hchildren := trees_descriptors strict (t :: ts) hpop.2 hnamed
    rw [descriptors] at hchildren
    have hplain : (strict && Descriptor.statesComparison none none none) = false :=
      Bool.and_false strict
    simp only [descriptor, descriptors, Descriptor.tree, hplain, Bool.false_eq_true, if_false,
      Descriptor.connective, ofText?_word, hchildren]

theorem trees_descriptors (strict : Bool) : ∀ ts : List Filter, PopulatedAll ts →
    (∀ q ∈ leavesAll ts, ∃ c ∈ q.field.toList, Text.isBlank c = false) →
      Descriptor.trees strict (descriptors ts) = .ok ts
  | [], _, _ => rfl
  | t :: ts, hpop, hnamed => by
    have ht := tree_descriptor strict t hpop.1 fun q hq => hnamed q (List.mem_append_left _ hq)
    have hts := trees_descriptors strict ts hpop.2 fun q hq => hnamed q (List.mem_append_right _ hq)
    simp only [descriptors, Descriptor.trees, ht, hts]

end

end Filter

/-- **A filter survives the wire.** The text that is written for a well-formed filter is
read as that filter, strictly or not, by every reader whose limits it meets, down to the
64 nodes above each other for which 127 levels of brackets are enough. -/
theorem ofJson_text {f : Filter} (hf : f.WellFormed) {l : Limits}
    (hsize : f.json.text.utf8ByteSize ≤ l.maxJsonBytes) (hdepth : f.depth ≤ min l.maxDepth 64)
    (hleaves : f.leaves.length ≤ l.maxLeaves) : Filter.ofJson l f.json.text = .ok f := by
  have hread : Descriptor.ofJson f.json.text = .ok f.descriptor := by
    refine run_of_reads ?_
    rw [Json.text, String.toList_ofList]
    exact Filter.reads_descriptor f 63 hf.populated (by omega)
  have htree := Filter.tree_descriptor l.strictNodes f hf.populated hf.named
  exact ofJson_eq_ok_iff.2 ⟨hsize, ⟨f.descriptor, hread, htree⟩, by omega, hleaves⟩

/-- Within limits that the text just meets. -/
theorem ofJson_text_hostile :
    let f : Filter := .group .or [
      .leaf ⟨"a\"\\/\n\x01\x7f é😀", .doesNotContain, some "null", true⟩,
      .group .and [.leaf ⟨" b", .isNull, none, false⟩],
      .leaf ⟨"\x7d,\x7b", .eq, some "", false⟩]
    Filter.ofJson ⟨f.json.text.utf8ByteSize, 3, 3, true⟩ f.json.text = .ok f := by
  intro f
  have hf : f.WellFormed := by
    refine ⟨by simp [f, Populated, PopulatedAll], fun q hq => ?_⟩
    simp only [f, leaves, leavesAll, List.append_nil, List.singleton_append, List.mem_cons,
      List.not_mem_nil, or_false] at hq
    rcases hq with rfl | rfl | rfl
    · exact ⟨'a', by decide, by decide⟩
    · exact ⟨'b', by decide, by decide⟩
    · exact ⟨',', by decide, by decide⟩
  have hdepth : f.depth ≤ min 3 64 := by decide
  have hleaves : f.leaves.length ≤ 3 := by decide
  obtain ⟨size, hsize⟩ : ∃ size, size = f.json.text.utf8ByteSize := ⟨_, rfl⟩
  rw [← hsize]
  exact ofJson_text hf (Nat.le_of_eq hsize.symm) hdepth hleaves

/-- A comparison without an operand, and a group around it. -/
example : (Filter.json (.group .or [.leaf ⟨"a\nb", .isNull, none, false⟩])).text =
    "\x7b\"logic\":\"or\",\"filters\":[\x7b\"field\":\"a\\nb\",\"operator\":\"isnull\"," ++
      "\"value\":null,\"casesensitive\":false\x7d]\x7d" := by decide +kernel

end Criteria
