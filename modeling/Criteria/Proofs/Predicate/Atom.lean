import Criteria.Predicate

/-! Atoms and their texts.

An atom shows its field, an operator and whether it folds case, and nothing else of the
comparison that it comes from: `of_eq_of_iff` says which comparisons of a field become
one atom. Where names are plain words, the text of an atom tells the atom and where it
ends, whatever follows that is not more of a word (`text_append_inj`). A field may then
have any name, also that of a connective or of a type. -/
namespace Criteria

/-! ### Words -/

/-- The characters of plain names. -/
def isWordChar (c : Char) : Bool := c.isAlphanum || c == '_'

/-- A name that is one word. -/
structure IsPlain (name : String) : Prop where
  ne_empty : name ≠ ""
  word : ∀ c ∈ name.toList, isWordChar c = true

/-- A text that goes on with no further character of a word. -/
def Ends (r : List Char) : Prop := ∀ c ∈ r.head?, isWordChar c = false

theorem ends_cons {c : Char} (h : isWordChar c = false) (r : List Char) : Ends (c :: r) := by
  intro d hd
  cases hd
  exact h

/-- Two runs of `p` that are followed by something else are equal when their texts are. -/
theorem run_append_inj {p : Char → Bool} {w w' r r' : List Char} (hw : ∀ c ∈ w, p c = true)
    (hw' : ∀ c ∈ w', p c = true) (hr : ∀ c ∈ r.head?, p c = false)
    (hr' : ∀ c ∈ r'.head?, p c = false) (h : w ++ r = w' ++ r') : w = w' ∧ r = r' := by
  induction w generalizing w' with
  | nil =>
    cases w' with
    | nil => exact ⟨rfl, h⟩
    | cons c w' =>
      have hc : p c = false := hr c (by rw [← List.nil_append r, h]; rfl)
      rw [hw' c (List.mem_cons_self ..)] at hc
      cases hc
  | cons c w ih =>
    cases w' with
    | nil =>
      have hc : p c = false := hr' c (by rw [← List.nil_append r', ← h]; rfl)
      rw [hw c (List.mem_cons_self ..)] at hc
      cases hc
    | cons c' w' =>
      rw [List.cons_append, List.cons_append, List.cons.injEq] at h
      obtain ⟨rfl, h⟩ := h
      obtain ⟨rfl, rfl⟩ := ih (fun d hd => hw d (List.mem_cons_of_mem c hd))
        (fun d hd => hw' d (List.mem_cons_of_mem c hd)) h
      exact ⟨rfl, rfl⟩

theorem isWordChar_of_isDigit {c : Char} (h : c.isDigit = true) : isWordChar c = true := by
  simp only [isWordChar, Char.isAlphanum, h, Bool.or_true, Bool.true_or]

/-- A number tells itself and where it ends. -/
theorem digits_append_inj {n m : Nat} {r r' : List Char} (hr : Ends r) (hr' : Ends r')
    (h : Text.digits n ++ r = Text.digits m ++ r') : n = m ∧ r = r' := by
  have hword : ∀ k, ∀ c ∈ Text.digits k, isWordChar c = true := fun k c hc =>
    isWordChar_of_isDigit (Text.isDigit_of_mem_digits hc)
  obtain ⟨hd, rfl⟩ := run_append_inj (hword n) (hword m) hr hr' h
  refine ⟨?_, rfl⟩
  rw [← Text.ofDigits_digits n, hd, Text.ofDigits_digits]

/-- Where a word ends is seen from what follows it. -/
theorem word_append_inj {s t : String} (hs : ∀ c ∈ s.toList, isWordChar c = true)
    (ht : ∀ c ∈ t.toList, isWordChar c = true) {r r' : List Char} (hr : Ends r) (hr' : Ends r')
    (h : s.toList ++ r = t.toList ++ r') : s = t ∧ r = r' := by
  obtain ⟨hst, rfl⟩ := run_append_inj hs ht hr hr' h
  exact ⟨String.toList_inj.1 hst, rfl⟩

theorem Method.name_inj {m m' : Method} (h : m.name = m'.name) : m = m' := by
  cases m <;> cases m' <;> simp [Method.name] at h ⊢

theorem Method.name_word (m : Method) : ∀ c ∈ m.name.toList, isWordChar c = true := by
  cases m <;> exact List.all_eq_true.1 rfl

theorem Relation.sign_inj {r r' : Relation} (h : r.sign = r'.sign) : r = r' := by
  cases r <;> cases r' <;> simp [Relation.sign] at h ⊢

namespace Atom

/-! ### Parts of a text

A text is a negation, a first word, a mark and a key, and then what the key asks for. -/

/-- The name that an atom tests. -/
def field : Atom → String
  | compare f _ _ => f
  | call _ f _ _ _ => f
  | nullness f _ => f
  | emptiness _ f => f

/-- Whether the atom begins with a `!`. -/
def negated : Atom → Bool
  | call b .. => b
  | emptiness b _ => b
  | _ => false

/-- The word an atom begins with, apart from a `!`. -/
def firstWord : Atom → String
  | emptiness .. => "String"
  | a => a.field

/-- What comes between the first word and the key. -/
def mark : Atom → Char
  | compare .. => ' '
  | nullness .. => ' '
  | _ => '.'

/-- The sign of a relation or the first method that is called. -/
def key : Atom → String
  | compare _ s _ => s.sign
  | call _ _ false m _ => m.name
  | call _ _ true _ _ => "ToLower"
  | nullness _ s => s.sign
  | emptiness .. => "IsNullOrEmpty"

/-- What follows the key. -/
def rest : Atom → List Char
  | compare _ _ n => ' ' :: '@' :: Text.digits n
  | call _ _ false _ n => '(' :: '@' :: (Text.digits n ++ [')'])
  | call _ _ true m n =>
    '(' :: ')' :: '.' :: (m.name.toList ++ '(' :: '@' :: (Text.digits n ++ [')']))
  | nullness .. => ' ' :: "null".toList
  | emptiness _ f => '(' :: (f.toList ++ [')'])

/-- The text of an atom in its parts: a sign of denial, a word, a mark, the key, and the rest. -/
theorem toList_text (a : Atom) : a.text.toList =
    (negation a.negated).toList ++ (a.firstWord.toList ++ a.mark :: (a.key.toList ++ a.rest)) := by
  cases a with
  | compare f s n =>
    simp only [text, placeholderText, Text.decimal, String.toList_append, String.toList_ofList,
      List.append_assoc]
    rfl
  | call b f folded m n =>
    cases folded with
    | false =>
      simp only [text, access, placeholderText, Text.decimal, String.toList_append,
        String.toList_ofList, List.append_assoc, if_false, Bool.false_eq_true]
      rfl
    | true =>
      simp only [text, access, placeholderText, Text.decimal, String.toList_append,
        String.toList_ofList, List.append_assoc, if_true, negated, firstWord, mark, key, rest]
      rfl
  | nullness f s =>
    simp only [text, String.toList_append, List.append_assoc]
    rfl
  | emptiness b f =>
    simp only [text, negated, firstWord, mark, key, rest, String.toList_append, List.append_assoc]
    rfl

/-! ### Reading the parts back -/

theorem string_plain : IsPlain "String" := ⟨by decide, List.all_eq_true.1 rfl⟩

theorem firstWord_plain {a : Atom} (ha : IsPlain a.field) : IsPlain a.firstWord := by
  cases a with
  | emptiness b f => exact string_plain
  | _ => exact ha

theorem mark_ends (a : Atom) (r : List Char) : Ends (a.mark :: r) := by
  apply ends_cons
  cases a <;> rfl

/-- A plain name does not begin with a mark. -/
theorem plain_append_ne {name : String} (h : IsPlain name) (c : Char) (hc : isWordChar c = false)
    (x y : List Char) : name.toList ++ x ≠ c :: y := by
  intro he
  cases hn : name.toList with
  | nil => exact h.ne_empty (String.toList_eq_nil_iff.1 hn)
  | cons d ds =>
    rw [hn, List.cons_append] at he
    have hd := h.word d (hn ▸ List.mem_cons_self ..)
    rw [(List.cons.inj he).1, hc] at hd
    cases hd

theorem negation_append_inj {b b' : Bool} {s s' : String} (hs : IsPlain s) (hs' : IsPlain s')
    {r r' : List Char}
    (h : (negation b).toList ++ (s.toList ++ r) = (negation b').toList ++ (s'.toList ++ r')) :
    b = b' ∧ s.toList ++ r = s'.toList ++ r' := by
  cases b with
  | false =>
    cases b' with
    | false => exact ⟨rfl, h⟩
    | true => exact absurd h (plain_append_ne hs '!' rfl _ _)
  | true =>
    cases b' with
    | false => exact absurd h.symm (plain_append_ne hs' '!' rfl _ _)
    | true => exact ⟨rfl, (List.cons.inj h).2⟩

/-- What may follow a key does not occur in it. -/
def isKeyChar (c : Char) : Bool := c != ' ' && c != '('

theorem sign_isKeyChar (s : Relation) : ∀ c ∈ s.sign.toList, isKeyChar c = true := by
  cases s <;> exact List.all_eq_true.1 rfl

theorem name_isKeyChar (m : Method) : ∀ c ∈ m.name.toList, isKeyChar c = true := by
  cases m <;> exact List.all_eq_true.1 rfl

theorem key_isKeyChar (a : Atom) : ∀ c ∈ a.key.toList, isKeyChar c = true := by
  cases a with
  | compare f s n => exact sign_isKeyChar s
  | call b f folded m n =>
    cases folded with
    | false => exact name_isKeyChar m
    | true =>
      have h : "ToLower".toList.all isKeyChar = true := rfl
      exact List.all_eq_true.1 h
  | nullness f s => exact sign_isKeyChar s
  | emptiness b f =>
    have h : "IsNullOrEmpty".toList.all isKeyChar = true := rfl
    exact List.all_eq_true.1 h

theorem rest_isKeyChar (a : Atom) (r : List Char) :
    ∀ c ∈ (a.rest ++ r).head?, isKeyChar c = false := by
  intro c hc
  cases a with
  | call b f folded m n => cases folded <;> cases hc <;> rfl
  | _ =>
    cases hc
    rfl

/-- A key ends where a space or a parenthesis comes. -/
theorem key_append_inj {a b : Atom} {r r' : List Char}
    (h : a.key.toList ++ (a.rest ++ r) = b.key.toList ++ (b.rest ++ r')) :
    a.key = b.key ∧ a.rest ++ r = b.rest ++ r' := by
  obtain ⟨hk, hr⟩ := run_append_inj (key_isKeyChar a) (key_isKeyChar b)
    (rest_isKeyChar a r) (rest_isKeyChar b r') h
  exact ⟨String.toList_inj.1 hk, hr⟩

/-- The number of a placeholder that stands last in a call. -/
theorem argument_append_inj {n n' : Nat} {r r' : List Char}
    (h : Text.digits n ++ ')' :: r = Text.digits n' ++ ')' :: r') : n = n' ∧ r = r' := by
  obtain ⟨hn, h⟩ := digits_append_inj (ends_cons rfl _) (ends_cons rfl _) h
  exact ⟨hn, (List.cons.inj h).2⟩

theorem name_ne_toLower (m : Method) : m.name ≠ "ToLower" := by
  cases m <;> decide

theorem name_ne_isNullOrEmpty (m : Method) : m.name ≠ "IsNullOrEmpty" := by
  cases m <;> decide

/-- Two calls with one key, lowered or not. -/
theorem call_rest_inj {b b' : Bool} {f f' : String} {folded folded' : Bool} {m m' : Method}
    {n n' : Nat} (hk : (call b f folded m n).key = (call b' f' folded' m' n').key)
    {r r' : List Char}
    (h : (call b f folded m n).rest ++ r = (call b' f' folded' m' n').rest ++ r') :
    folded = folded' ∧ m = m' ∧ n = n' ∧ r = r' := by
  cases folded with
  | false =>
    cases folded' with
    | false =>
      simp only [rest, List.cons_append, List.append_assoc, List.nil_append, List.cons.injEq,
        true_and] at h
      obtain ⟨rfl, rfl⟩ := argument_append_inj h
      exact ⟨rfl, Method.name_inj hk, rfl, rfl⟩
    | true => exact absurd hk (name_ne_toLower m)
  | true =>
    cases folded' with
    | false => exact absurd hk.symm (name_ne_toLower m')
    | true =>
      simp only [rest, List.cons_append, List.append_assoc, List.nil_append, List.cons.injEq,
        true_and] at h
      obtain ⟨hm, h⟩ := word_append_inj m.name_word m'.name_word (ends_cons rfl _)
        (ends_cons rfl _) h
      obtain ⟨rfl, rfl⟩ := argument_append_inj (List.cons.inj (List.cons.inj h).2).2
      exact ⟨rfl, Method.name_inj hm, rfl, rfl⟩

/-- Atoms with the same beginning differ in the rest, if they differ. -/
theorem rest_append_inj {a a' : Atom} (ha : IsPlain a.field) (ha' : IsPlain a'.field)
    (hn : a.negated = a'.negated) (hw : a.firstWord = a'.firstWord) (hk : a.key = a'.key)
    {r r' : List Char} (hr : Ends r) (hr' : Ends r') (h : a.rest ++ r = a'.rest ++ r') :
    a = a' ∧ r = r' := by
  -- atoms of two forms differ in the key or at one of the first two characters after it
  cases a with
  | compare f s n =>
    cases a' with
    | compare f' s' n' =>
      simp only [rest, List.cons_append, List.cons.injEq, true_and] at h
      obtain ⟨rfl, rfl⟩ := digits_append_inj hr hr' h
      cases hw
      cases Relation.sign_inj hk
      exact ⟨rfl, rfl⟩
    | call b' f' folded' m' n' => cases folded' <;> simp [rest] at h
    | nullness f' s' => simp [rest] at h
    | emptiness b' f' => simp [rest] at h
  | call b f folded m n =>
    cases a' with
    | compare f' s' n' => cases folded <;> simp [rest] at h
    | call b' f' folded' m' n' =>
      obtain ⟨rfl, rfl, rfl, rfl⟩ := call_rest_inj hk h
      cases hn
      cases hw
      exact ⟨rfl, rfl⟩
    | nullness f' s' => cases folded <;> simp [rest] at h
    | emptiness b' f' =>
      cases folded with
      | false => exact absurd hk (name_ne_isNullOrEmpty m)
      | true => simp [key] at hk
  | nullness f s =>
    cases a' with
    | compare f' s' n' => simp [rest] at h
    | call b' f' folded' m' n' => cases folded' <;> simp [rest] at h
    | nullness f' s' =>
      cases hw
      cases Relation.sign_inj hk
      exact ⟨rfl, List.append_cancel_left h⟩
    | emptiness b' f' => simp [rest] at h
  | emptiness b f =>
    cases a' with
    | compare f' s' n' => simp [rest] at h
    | call b' f' folded' m' n' =>
      cases folded' with
      | false => exact absurd hk.symm (name_ne_isNullOrEmpty m')
      | true => simp [key] at hk
    | nullness f' s' => simp [rest] at h
    | emptiness b' f' =>
      simp only [rest, List.cons_append, List.append_assoc, List.nil_append, List.cons.injEq,
        true_and] at h
      obtain ⟨hf, hp⟩ := word_append_inj ha.word ha'.word (ends_cons rfl _) (ends_cons rfl _) h
      cases hn
      cases hf
      exact ⟨rfl, (List.cons.inj hp).2⟩

/-- **The text of an atom tells the atom and where it ends.** -/
theorem text_append_inj {a b : Atom} (ha : IsPlain a.field) (hb : IsPlain b.field)
    {r r' : List Char} (hr : Ends r) (hr' : Ends r')
    (h : a.text.toList ++ r = b.text.toList ++ r') : a = b ∧ r = r' := by
  simp only [toList_text, List.append_assoc, List.cons_append] at h
  have hpa := firstWord_plain ha
  have hpb := firstWord_plain hb
  obtain ⟨hn, h⟩ := negation_append_inj hpa hpb h
  obtain ⟨hw, h⟩ := word_append_inj hpa.word hpb.word (mark_ends a _) (mark_ends b _) h
  obtain ⟨hk, h⟩ := key_append_inj (List.cons.inj h).2
  exact rest_append_inj ha hb hn hw hk hr hr' h

/-- The text of an atom does not begin with a parenthesis. -/
theorem text_append_ne {a : Atom} (ha : IsPlain a.field) (r y : List Char) :
    a.text.toList ++ r ≠ '(' :: y := by
  simp only [toList_text, List.append_assoc]
  cases a.negated with
  | false => exact plain_append_ne (firstWord_plain ha) '(' rfl _ y
  | true => simp [negation]

/-! ### The comparisons of one atom -/

/-- The number that an atom refers to, if it needs a value. -/
def placeholder? : Atom → Option Nat
  | compare _ _ n => some n
  | call _ _ _ _ n => some n
  | _ => none

/-- The field is lowered first. -/
def folds : Atom → Bool
  | call _ _ folded _ _ => folded
  | _ => false

/-- The operator that an atom shows. -/
def operator : Atom → Operator
  | compare _ .eq _ => .eq
  | compare _ .ne _ => .neq
  | compare _ .lt _ => .lt
  | compare _ .le _ => .lte
  | compare _ .gt _ => .gt
  | compare _ .ge _ => .gte
  | call _ _ _ .equals _ => .eq
  | call _ _ _ .startsWith _ => .startsWith
  | call _ _ _ .endsWith _ => .endsWith
  | call false _ _ .contains _ => .contains
  | call true _ _ .contains _ => .doesNotContain
  | nullness _ .eq => .isNull
  | nullness _ _ => .isNotNull
  | emptiness false _ => .isEmpty
  | emptiness true _ => .isNotEmpty

end Atom

/-- The operator that shows when the field is text or not: text that is null is empty. -/
def Operator.shown (text : Bool) : Operator → Operator
  | isNull => if text then isEmpty else isNull
  | isNotNull => if text then isNotEmpty else isNotNull
  | o => o

namespace Atom

theorem field_of (field : Field) (o : Operator) (cs : Bool) (n : Nat) :
    (Atom.of field o cs n).field = field.name := by
  unfold of
  generalize field.type.isString = text
  cases o <;> cases text <;> cases cs <;> rfl

theorem placeholder?_of (field : Field) (o : Operator) (cs : Bool) (n : Nat) :
    (Atom.of field o cs n).placeholder? = if o.isValueless then none else some n := by
  unfold of
  generalize field.type.isString = text
  cases o <;> cases text <;> cases cs <;> rfl

/-- An atom that refers to a placeholder shows it. -/
theorem placeholder_occurs {a : Atom} {n : Nat} (h : a.placeholder? = some n) :
    (placeholderText n).toList <:+: a.text.toList := by
  cases a with
  | compare f s m =>
    cases h
    refine ⟨(f ++ " " ++ s.sign ++ " ").toList, [], ?_⟩
    simp only [text, String.toList_append, List.append_nil]
  | call b f folded m k =>
    cases h
    refine ⟨(negation b ++ access f folded ++ "." ++ m.name ++ "(").toList, [')'], ?_⟩
    simp only [text, String.toList_append]
    rfl
  | nullness f s => cases h
  | emptiness b f => cases h

/-- Unless its field is named with one, an atom shows an `@` only for its placeholder. -/
theorem at_mem_text {a : Atom} (hf : '@' ∉ a.field.toList) (h : '@' ∈ a.text.toList) :
    ∃ n, a.placeholder? = some n := by
  cases a with
  | compare f s n => exact ⟨n, rfl⟩
  | call b f folded m n => exact ⟨n, rfl⟩
  | nullness f s =>
    simp only [text, String.toList_append, List.mem_append] at h
    rcases h with ((h | h) | h) | h
    · exact absurd h hf
    · exact absurd h (by decide)
    · cases s <;> exact absurd h (by decide)
    · exact absurd h (by decide)
  | emptiness b f =>
    simp only [text, String.toList_append, List.mem_append] at h
    rcases h with ((h | h) | h) | h
    · cases b <;> exact absurd h (by decide)
    · exact absurd h (by decide)
    · exact absurd h hf
    · exact absurd h (by decide)

theorem operator_of (field : Field) (o : Operator) (cs : Bool) (n : Nat) :
    (Atom.of field o cs n).operator = o.shown field.type.isString := by
  unfold of
  generalize field.type.isString = text
  cases o <;> cases text <;> cases cs <;> rfl

theorem folds_of (field : Field) (o : Operator) (cs : Bool) (n : Nat) :
    (Atom.of field o cs n).folds = (o.foldsCase && (field.type.isString && !cs)) := by
  unfold of
  generalize field.type.isString = text
  cases o <;> cases text <;> cases cs <;> rfl

theorem foldsCase_shown (text : Bool) (o : Operator) :
    (o.shown text).foldsCase = o.foldsCase := by
  cases o <;> cases text <;> rfl

/-- An operator that shows as another makes the same atom. -/
theorem of_shown (field : Field) (o : Operator) (cs : Bool) (n : Nat) :
    Atom.of field (o.shown field.type.isString) cs n = .of field o cs n := by
  unfold of
  generalize field.type.isString = text
  cases o <;> cases text <;> rfl

/-- The case mode does not show unless the operator folds the case of text. -/
theorem of_caseSensitive {field : Field} {o : Operator} {cs cs' : Bool}
    (h : field.type.isString → o.foldsCase → cs = cs') (n : Nat) :
    Atom.of field o cs n = .of field o cs' n := by
  unfold of
  generalize field.type.isString = text at h ⊢
  cases text with
  | false => rfl
  | true =>
    by_cases ho : o.foldsCase
    · rw [h rfl ho]
    · cases o <;> first | rfl | exact absurd rfl ho

/-- Two comparisons of one field that make one atom: one operator up to what shows of it,
and one case mode where it shows. -/
structure SameShow (field : Field) (o o' : Operator) (cs cs' : Bool) : Prop where
  operator : o.shown field.type.isString = o'.shown field.type.isString
  caseSensitive : field.type.isString → o.foldsCase → cs = cs'

/-- Equal atoms come from comparisons that show the same. -/
theorem sameShow_of_eq {field : Field} {o o' : Operator} {cs cs' : Bool} {n n' : Nat}
    (h : Atom.of field o cs n = .of field o' cs' n') : SameShow field o o' cs cs' := by
  have ho : o.shown field.type.isString = o'.shown field.type.isString := by
    rw [← operator_of field o cs n, h, operator_of]
  refine ⟨ho, fun ht hf => ?_⟩
  have hf' : o'.foldsCase = o.foldsCase := by
    rw [← foldsCase_shown field.type.isString o', ← ho, foldsCase_shown]
  have hfolds := congrArg folds h
  rw [folds_of, folds_of, hf', hf, ht] at hfolds
  simpa using hfolds

/-- **Which comparisons of a field make one atom.** -/
theorem of_eq_of_iff {field : Field} {o o' : Operator} {cs cs' : Bool} {n : Nat} :
    Atom.of field o cs n = .of field o' cs' n ↔ SameShow field o o' cs cs' := by
  refine ⟨sameShow_of_eq, fun h => ?_⟩
  calc Atom.of field o cs n
      = .of field o cs' n := of_caseSensitive h.caseSensitive n
    _ = .of field (o.shown field.type.isString) cs' n := (of_shown field o cs' n).symm
    _ = .of field (o'.shown field.type.isString) cs' n := by rw [h.operator]
    _ = .of field o' cs' n := of_shown field o' cs' n

end Atom
end Criteria
