import Criteria.Proofs.Json.Numbers
import Criteria.Proofs.Number.Localized
import Criteria.Proofs.Predicate.Typing
import Criteria.Proofs.Wire.RoundTrip

/-! Numbers that are sent without quotes.

A number of a JSON text becomes text again before a locale sees it, with a point whatever
the locale (`reads_operand_number`), so the locale reads what no client wrote. Most locales
take it as it is meant (`coerce_number_kept`). One that puts points between groups of
digits drops the point before three digits and refuses it elsewhere
(`coerce_number_grouped`). `answer_number` says both of what a client gets for a text, and of
what a filter binds that has such a comparison anywhere. -/
namespace Criteria

open Json Json.Reader

/-- What a client gets who sends `text`. -/
def answer (limits : Limits) (schema : Schema) (l : Locale) (text : String) :
    Except Error Compiled :=
  match Filter.ofJson limits text with
  | .error e => .error e
  | .ok f => compile schema l f

/-- The text of a comparison, with `cs` where its operand stands. -/
def operandText (name : String) (o : Operator) (cs : List Char) (caseSensitive : Bool) : String :=
  String.ofList (objectChars (Descriptor.comparisonMembers name o.code cs caseSensitive))

variable {n : Numeral} {v : Number} {cs : List Char} {schema : Schema} {name : String}
  {field : Field} {l : Locale} {limits : Limits} {o : Operator} {caseSensitive : Bool}

/-! ### Reading -/

/-- A number without quotes is read as its text, wherever an operand may stand. -/
theorem reads_operand_number (h : n.Literal cs) (hv : n.value = some v) (depth : Nat) :
    Reads (Descriptor.operand depth) cs (some v.text) :=
  fun r hr => (reads_value_number h hv depth r hr).bind (takes_pure _ _)

/-- A filter of one comparison is within the limits, and has more than white space for a field. -/
structure Accepted (limits : Limits) (name text : String) : Prop where
  size : text.utf8ByteSize ≤ limits.maxJsonBytes
  named : ∃ c ∈ name.toList, Text.isBlank c = false
  depth : 1 ≤ limits.maxDepth
  leaves : 1 ≤ limits.maxLeaves

/-- The descriptor of a comparison is a filter just when its field is not blank. -/
theorem tree_leaf_eq_ok_iff {strict : Bool} {q : Comparison} {f : Filter} :
    Descriptor.tree strict (Filter.descriptor (.leaf q)) = .ok f ↔
      (∃ c ∈ q.field.toList, Text.isBlank c = false) ∧ f = .leaf q := by
  rw [Descriptor.tree_of_no_children strict rfl, map_eq_ok_iff]
  constructor
  · intro h
    obtain ⟨p, hp, rfl⟩ := h
    by_cases hnamed : ∃ c ∈ q.field.toList, Text.isBlank c = false
    · cases (Filter.comparison_descriptor hnamed).symm.trans hp
      exact ⟨hnamed, rfl⟩
    · have hblank : Text.allBlank q.field.toList = true := by
        simpa [Text.allBlank] using hnamed
      simp [Filter.descriptor, Descriptor.comparison, Option.filter, hblank] at hp
  · intro h
    obtain ⟨hnamed, rfl⟩ := h
    exact ⟨q, Filter.comparison_descriptor hnamed, rfl⟩

/-- The text of a comparison is accepted within the limits, and as that comparison. -/
theorem ofJson_operandText_eq_ok_iff (h : n.Literal cs) (hv : n.value = some v) {f : Filter} :
    Filter.ofJson limits (operandText name o cs caseSensitive) = .ok f ↔
      Accepted limits name (operandText name o cs caseSensitive) ∧
        f = .leaf ⟨name, o, some v.text, caseSensitive⟩ := by
  have hread : Descriptor.ofJson (operandText name o cs caseSensitive) =
      .ok (Filter.descriptor (.leaf ⟨name, o, some v.text, caseSensitive⟩)) := by
    refine run_of_reads ?_
    rw [operandText, String.toList_ofList]
    exact Descriptor.reads_comparison (reads_operand_number h hv _)
  rw [ofJson_eq_ok_iff]
  constructor
  · intro h
    obtain ⟨hsize, ⟨d, hd, htree⟩, hdepth, hleaves⟩ := h
    cases hread.symm.trans hd
    obtain ⟨hnamed, rfl⟩ := tree_leaf_eq_ok_iff.1 htree
    exact ⟨⟨hsize, hnamed, hdepth, hleaves⟩, rfl⟩
  · intro h
    obtain ⟨h, rfl⟩ := h
    exact ⟨h.size, ⟨_, hread, tree_leaf_eq_ok_iff.2 ⟨h.named, rfl⟩⟩, h.depth, h.leaves⟩

/-! ### Compiling -/

/-- A comparison alone compiles to its atom and the value of its operand. -/
theorem compile_leaf {q : Comparison} (hfield : schema.resolve? q.field = some field) :
    compile schema l (.leaf q) =
      (coerce l field q.operator q.caseSensitive q.operand).map fun v =>
        ⟨.leaf (.of field q.operator q.caseSensitive 0), [v]⟩ := by
  cases hv : coerce l field q.operator q.caseSensitive q.operand with
  | error e => exact compile_eq_error_iff.2 ⟨[], .leaf q, [], rfl, nofun, .unsuitable hfield hv⟩
  | ok v =>
    have hq : q.Binds schema l field v := ⟨hfield, hv⟩
    exact compile_eq_ok_iff.2 ⟨trivial, .leaf ⟨field, v, hq, rfl⟩, .cons ⟨field, hq⟩ .nil⟩

/-! ### What a number means -/

/-- The predicate of one comparison with the number `x`. -/
def floatCompiled (field : Field) (o : Operator) (caseSensitive : Bool) (x : Binary64) : Compiled :=
  ⟨.leaf (.of field o caseSensitive 0), [.float x]⟩

variable {m : Numeral}

theorem answer_of_accepted (h : n.Literal cs) (hv : n.value = some v)
    (ha : Accepted limits name (operandText name o cs caseSensitive)) :
    answer limits schema l (operandText name o cs caseSensitive) =
      compile schema l (.leaf ⟨name, o, some v.text, caseSensitive⟩) := by
  simp only [answer, (ofJson_operandText_eq_ok_iff h hv).2 ⟨ha, rfl⟩]

/-- A rejected text is rejected under every locale. -/
theorem answer_of_rejected (h : n.Literal cs) (hv : n.value = some v) (l' : Locale)
    (ha : ¬Accepted limits name (operandText name o cs caseSensitive)) :
    answer limits schema l (operandText name o cs caseSensitive) =
      answer limits schema l' (operandText name o cs caseSensitive) := by
  cases hf : Filter.ofJson limits (operandText name o cs caseSensitive) with
  | error e => simp only [answer, hf]
  | ok f => exact absurd ((ofJson_operandText_eq_ok_iff h hv).1 hf).1 ha

theorem isBlank_text (hm : m.Written v.chars) : Coercion.isBlank v.text = false := by
  obtain ⟨tail, -, htext⟩ := hm.text
  obtain ⟨d, hd⟩ := List.exists_mem_of_ne_nil _ hm.whole_ne
  have hmem : d ∈ v.chars := by
    rw [htext]
    exact List.mem_append_left _ (mem_signed_of_mem _ hd)
  rw [Coercion.isBlank, Number.text, String.toList_ofList, Text.allBlank, List.all_eq_false]
  exact ⟨d, hmem, by rw [Locale.isBlank_of_numeric (hm.numeric hmem)]; exact Bool.false_ne_true⟩

/-- What the locale reads is bound, or it is the reason why nothing is. -/
theorem coerce_float (hfloat : field.type = .float) {s : String} (hs : Coercion.isBlank s = false) :
    coerce l field o caseSensitive (some s) = ((l.float s).map .float).mapError fun f =>
      .conversion field.name (some s) .float (.locale f) := by
  have htype : field.type ≠ .string := by
    rw [hfloat]
    decide
  rw [coerce_eq_convert htype hs, Coercion.convert, hfloat]
  simp only [Coercion.lenient?, Coercion.strict]
  cases l.float s <;> rfl

/-- A locale that does not put points between groups binds the number as it is written. -/
theorem coerce_number_kept (hfloat : field.type = .float) (hm : m.Written v.chars)
    (hl : l.Separated) (hpoint : l.group = some '.' → '.' ∉ v.chars) (o : Operator)
    (caseSensitive : Bool) :
    ∃ x, Binary64.ofLiteral? v.chars = some x ∧
      coerce l field o caseSensitive (some v.text) = .ok (.float x) := by
  obtain ⟨x, hx, hread⟩ := Locale.exists_float_of_plain (Locale.plain_written hl hm hpoint) hm
  refine ⟨x, hx, ?_⟩
  rw [coerce_float hfloat (isBlank_text hm), Number.text, hread]
  rfl

/-- Where points separate groups, three digits after the point are a group, and the number is
bound without its point; after any other count nothing is bound. -/
theorem coerce_number_grouped (hfloat : field.type = .float) {whole rest : List Char}
    (hv : v.chars = whole ++ '.' :: rest) (hm : m.Written v.chars) (hl : l.Separated)
    (hg : l.group = some '.') (o : Operator) (caseSensitive : Bool) :
    if (rest.takeWhile Char.isDigit).length = 3 then
      ∃ x, Binary64.ofLiteral? (whole ++ rest) = some x ∧
        coerce l field o caseSensitive (some v.text) = .ok (.float x)
    else coerce l field o caseSensitive (some v.text) =
      .error (.conversion field.name (some v.text) .float (.locale (.misplacedGroup '.'))) := by
  have hplain := Locale.plain_grouped hl hg (hv ▸ hm)
  rw [← hv] at hplain
  rw [coerce_float hfloat (isBlank_text hm), Number.text]
  split
  next hthree =>
    rw [if_pos hthree] at hplain
    obtain ⟨x, hx, hread⟩ := Locale.exists_float_of_plain hplain (Locale.written_joined (hv ▸ hm))
    refine ⟨x, hx, ?_⟩
    rw [hread]
    rfl
  next hthree =>
    rw [if_neg hthree] at hplain
    rw [Locale.float, hplain]
    rfl

/-! ### On its own, and in a filter -/

/-- A comparison on its own refers to what its operand is coerced to. -/
theorem compile_coerced {x : Binary64} {s : String} (hfield : schema.resolve? name = some field)
    (hx : coerce l field o caseSensitive (some s) = .ok (.float x)) :
    compile schema l (.leaf ⟨name, o, some s, caseSensitive⟩) =
      .ok (floatCompiled field o caseSensitive x) := by
  rw [compile_leaf (q := ⟨name, o, some s, caseSensitive⟩) hfield, hx]
  rfl

theorem compile_number_kept (hfield : schema.resolve? name = some field)
    (hfloat : field.type = .float) (hm : m.Written v.chars) (hl : l.Separated)
    (hpoint : l.group = some '.' → '.' ∉ v.chars) (o : Operator) (caseSensitive : Bool) :
    ∃ x, Binary64.ofLiteral? v.chars = some x ∧
      compile schema l (.leaf ⟨name, o, some v.text, caseSensitive⟩) =
        .ok (floatCompiled field o caseSensitive x) := by
  obtain ⟨x, hx, hcoerce⟩ := coerce_number_kept hfloat hm hl hpoint o caseSensitive
  exact ⟨x, hx, compile_coerced hfield hcoerce⟩

theorem compile_number_grouped (hfield : schema.resolve? name = some field)
    (hfloat : field.type = .float) {whole rest : List Char} (hv : v.chars = whole ++ '.' :: rest)
    (hm : m.Written v.chars) (hl : l.Separated) (hg : l.group = some '.') (o : Operator)
    (caseSensitive : Bool) :
    if (rest.takeWhile Char.isDigit).length = 3 then
      ∃ x, Binary64.ofLiteral? (whole ++ rest) = some x ∧
        compile schema l (.leaf ⟨name, o, some v.text, caseSensitive⟩) =
          .ok (floatCompiled field o caseSensitive x)
    else compile schema l (.leaf ⟨name, o, some v.text, caseSensitive⟩) =
      .error (.conversion field.name (some v.text) .float (.locale (.misplacedGroup '.'))) := by
  have hcoerce := coerce_number_grouped hfloat hv hm hl hg o caseSensitive
  split
  next hthree =>
    rw [if_pos hthree] at hcoerce
    obtain ⟨x, hx, hcoerce⟩ := hcoerce
    exact ⟨x, hx, compile_coerced hfield hcoerce⟩
  next hthree =>
    rw [if_neg hthree] at hcoerce
    rw [compile_leaf (q := ⟨name, o, some v.text, caseSensitive⟩) hfield, hcoerce]
    rfl

/-- What a filter that compiles binds for a number, wherever the comparison with it stands. -/
theorem parameter_number (hfield : schema.resolve? name = some field)
    (hfloat : field.type = .float) (hm : m.Written v.chars) (hl : l.Separated) {f : Filter}
    {c : Compiled} {i : Nat} (hc : compile schema l f = .ok c)
    (hq : f.leaves[i]? = some ⟨name, o, some v.text, caseSensitive⟩) :
    ((l.group = some '.' → '.' ∉ v.chars) →
      ∃ x, Binary64.ofLiteral? v.chars = some x ∧ c.parameters[i]? = some (.float x)) ∧
    ∀ whole rest, l.group = some '.' → v.chars = whole ++ '.' :: rest →
      (rest.takeWhile Char.isDigit).length = 3 ∧
        ∃ x, Binary64.ofLiteral? (whole ++ rest) = some x ∧ c.parameters[i]? = some (.float x) := by
  obtain ⟨w, hw, hparameter⟩ := exists_coerced hc hq hfield
  refine ⟨fun hpoint => ?_, fun whole rest hg hchars => ?_⟩
  · obtain ⟨x, hx, hcoerce⟩ := coerce_number_kept hfloat hm hl hpoint o caseSensitive
    cases hcoerce.symm.trans hw
    exact ⟨x, hx, hparameter⟩
  · have hcoerce := coerce_number_grouped hfloat hchars hm hl hg o caseSensitive
    split at hcoerce
    next hthree =>
      obtain ⟨x, hx, hcoerce⟩ := hcoerce
      cases hcoerce.symm.trans hw
      exact ⟨hthree, x, hx, hparameter⟩
    next hthree => cases hcoerce.symm.trans hw

/-- **A number that is sent without quotes is the same number under every locale, unless
points separate groups of digits.** A comparison of a floating-point field with such a number
is answered as under the invariant locale, which binds the number as its text says. Only a
locale with points between groups answers differently, and only when the text of the number
has a point: three digits after it are a group, and the number is bound without its point;
with any other count of digits the point is misplaced. Wherever the number stands in a filter,
it is read as the same text, and a filter that compiles binds it in the same way: as it is
written, or without its point and then with three digits after it. -/
theorem answer_number (h : n.Literal cs) (hv : n.value = some v)
    (hfield : schema.resolve? name = some field) (hfloat : field.type = .float)
    (hl : l.Separated) (limits : Limits) (o : Operator) (caseSensitive : Bool) :
    let text := operandText name o cs caseSensitive
    ((l.group = some '.' → '.' ∉ v.chars) →
      answer limits schema l text = answer limits schema .invariant text) ∧
    (Accepted limits name text →
      (∃ x, Binary64.ofLiteral? v.chars = some x ∧
        answer limits schema .invariant text = .ok (floatCompiled field o caseSensitive x)) ∧
      ∀ whole rest, l.group = some '.' → v.chars = whole ++ '.' :: rest →
        if (rest.takeWhile Char.isDigit).length = 3 then
          ∃ x, Binary64.ofLiteral? (whole ++ rest) = some x ∧
            answer limits schema l text = .ok (floatCompiled field o caseSensitive x)
        else answer limits schema l text = .error
          (.conversion field.name (some v.text) .float (.locale (.misplacedGroup '.')))) ∧
    (∀ depth, Reads (Descriptor.operand depth) cs (some v.text)) ∧
    ∀ f c (i : Nat), compile schema l f = .ok c →
      f.leaves[i]? = some ⟨name, o, some v.text, caseSensitive⟩ →
        ((l.group = some '.' → '.' ∉ v.chars) →
          ∃ x, Binary64.ofLiteral? v.chars = some x ∧ c.parameters[i]? = some (.float x)) ∧
        ∀ whole rest, l.group = some '.' → v.chars = whole ++ '.' :: rest →
          (rest.takeWhile Char.isDigit).length = 3 ∧ ∃ x,
            Binary64.ofLiteral? (whole ++ rest) = some x ∧ c.parameters[i]? = some (.float x) := by
  intro text
  obtain ⟨m, hm⟩ := exists_written_chars hv
  have hsame : ∀ {k : Locale}, k.Separated → (k.group = some '.' → '.' ∉ v.chars) →
      Accepted limits name text → ∃ x, Binary64.ofLiteral? v.chars = some x ∧
        answer limits schema k text = .ok (floatCompiled field o caseSensitive x) := by
    intro k hk hpoint ha
    rw [answer_of_accepted h hv ha]
    exact compile_number_kept hfield hfloat hm hk hpoint o caseSensitive
  refine ⟨fun hpoint => ?_, fun ha => ⟨hsame Locale.separated_invariant nofun ha, ?_⟩,
    reads_operand_number h hv, fun f c i hc hq => parameter_number hfield hfloat hm hl hc hq⟩
  · by_cases ha : Accepted limits name text
    · obtain ⟨x, hx, hanswer⟩ := hsame hl hpoint ha
      obtain ⟨y, hy, hinvariant⟩ := hsame Locale.separated_invariant nofun ha
      cases hx.symm.trans hy
      exact hanswer.trans hinvariant.symm
    · exact answer_of_rejected h hv .invariant ha
  · intro whole rest hg hchars
    rw [answer_of_accepted h hv ha]
    exact compile_number_grouped hfield hfloat hchars hm hl hg o caseSensitive

/-! ### A point for a thousand -/

/-- Points between groups of digits, and a comma before the fraction. -/
def pointGroups : Locale := { Locale.invariant with decimal := ',', group := some '.' }

theorem separated_pointGroups : pointGroups.Separated :=
  ⟨by decide, by unfold Locale.Neutral; decide, by simp [pointGroups, Locale.Neutral]⟩

/-- The magnitude nearest to 1.234. -/
def thousand : Magnitude := (Magnitude.ofDecimal 1234 (-3)).getD .zero

theorem literal_thousand :
    Numeral.Literal ⟨false, ['1'], ['2', '3', '4'], none⟩ "1.234".toList := by
  refine ⟨⟨List.cons_ne_nil _ _, ?_, ?_, [], .absent, rfl⟩, fun ds h => by cases h⟩
  · exact List.all_eq_true.1 (by decide)
  · exact List.all_eq_true.1 (by decide)

theorem value_thousand : (⟨false, ['1'], ['2', '3', '4'], none⟩ : Numeral).value =
    some (.float (.finite false thousand)) := by decide +kernel

theorem leading_thousand : thousand.leading = 0 := by
  have hlow : 10 ^ 400 ≤ thousand.units * 10 ^ 400 / 2 ^ 1074 := by decide +kernel
  have hhigh : thousand.units * 10 ^ 400 / 2 ^ 1074 < 10 ^ (400 + 1) := by decide +kernel
  rw [Magnitude.leading, length_digits hlow hhigh]
  rfl

theorem shortest_thousand : thousand.shortest .even = ⟨1234, -3⟩ :=
  (shortest_of_leading leading_thousand .even).trans (by decide +kernel)

theorem chars_thousand : (Number.float (.finite false thousand)).chars = "1.234".toList := by
  simp only [Number.chars, Binary64.jsonText, Binary64.jsonChars?, shortest_thousand]
  decide +kernel

/-- The number `1.234` is a thousand times as large where points separate groups, on its own
and as the second of two alternatives. -/
theorem answer_number_thousand :
    let score : Field := ⟨"Score", .float, false⟩
    let text := operandText "score" .gte "1.234".toList false
    let either : Filter :=
      .group .or [.leaf ⟨"score", .isNull, none, false⟩, .leaf ⟨"score", .gte, some "1.234", false⟩]
    ∃ x, Binary64.ofLiteral? "1234".toList = some x ∧
      answer {} ⟨[score]⟩ pointGroups text = .ok (floatCompiled score .gte false x) ∧
      ∃ c, compile ⟨[score]⟩ pointGroups either = .ok c ∧
        c.parameters[1]? = some (.float x) := by
  intro score text either
  have hfield : (⟨[score]⟩ : Schema).resolve? "score" = some score := by decide +kernel
  have htext : (Number.float (.finite false thousand)).text = "1.234" := by
    rw [Number.text, chars_thousand, String.ofList_toList]
  obtain ⟨-, hlone, -, hanywhere⟩ := answer_number literal_thousand value_thousand hfield rfl
    separated_pointGroups {} .gte false
  have ha : Accepted {} "score" text :=
    ⟨by decide +kernel, ⟨'s', by decide, by decide⟩, by decide, by decide⟩
  obtain ⟨x, hx, hanswer⟩ := (hlone ha).2 ['1'] ['2', '3', '4'] rfl chars_thousand
  obtain ⟨m, hm⟩ := exists_written_chars value_thousand
  have hsplit : (Number.float (.finite false thousand)).chars = ['1'] ++ '.' :: ['2', '3', '4'] :=
    chars_thousand
  have hfloat : score.type = .float := rfl
  obtain ⟨y, -, hy⟩ := coerce_number_grouped hfloat hsplit hm separated_pointGroups rfl .gte false
  rw [htext] at hy
  obtain ⟨c, hc⟩ : ∃ c, compile ⟨[score]⟩ pointGroups either = .ok c := by
    refine exists_compile_iff.2 ⟨⟨List.cons_ne_nil _ _, trivial, trivial, trivial⟩, fun q hq => ?_⟩
    rcases List.mem_pair.1 hq with rfl | rfl
    · exact ⟨score, .null, hfield, rfl⟩
    · exact ⟨score, .float y, hfield, hy⟩
  obtain ⟨-, z, hz, hbound⟩ := (hanywhere either c 1 hc (by rw [htext]; rfl)).2 ['1']
    ['2', '3', '4'] rfl chars_thousand
  cases hx.symm.trans hz
  exact ⟨x, hx, hanswer, c, hc, hbound⟩

/-- One text, two locales, and two numbers. -/
theorem answer_depends_on_groups :
    let score : Field := ⟨"Score", .float, false⟩
    let text := operandText "Score" .eq "1.234".toList false
    pointGroups.Separated ∧
      Numeral.Literal ⟨false, ['1'], ['2', '3', '4'], none⟩ "1.234".toList ∧
      ∃ x y, Binary64.ofLiteral? "1234".toList = some x ∧
        Binary64.ofLiteral? "1.234".toList = some y ∧ x ≠ y ∧
        answer {} ⟨[score]⟩ pointGroups text = .ok (floatCompiled score .eq false x) ∧
        answer {} ⟨[score]⟩ .invariant text = .ok (floatCompiled score .eq false y) := by
  intro score text
  have hv := value_thousand
  obtain ⟨m, hm⟩ := exists_written_chars hv
  have hfield : (⟨[score]⟩ : Schema).resolve? "Score" = some score := by decide +kernel
  have ha : Accepted {} "Score" text :=
    ⟨by decide +kernel, ⟨'S', by decide, by decide⟩, by decide, by decide⟩
  have hsplit : (Number.float (.finite false thousand)).chars = ['1'] ++ '.' :: ['2', '3', '4'] :=
    chars_thousand
  obtain ⟨x, hx, hgrouped⟩ := compile_number_grouped hfield rfl hsplit hm
    separated_pointGroups rfl .eq false
  obtain ⟨y, hy, hkept⟩ := compile_number_kept hfield rfl hm Locale.separated_invariant nofun
    .eq false
  rw [chars_thousand] at hy
  refine ⟨separated_pointGroups, literal_thousand, x, y, hx, hy, ?_, ?_, ?_⟩
  · rintro rfl
    exact absurd (hx.trans hy.symm) (by decide +kernel)
  · rw [answer_of_accepted literal_thousand hv ha]
    exact hgrouped
  · rw [answer_of_accepted literal_thousand hv ha]
    exact hkept

end Criteria
