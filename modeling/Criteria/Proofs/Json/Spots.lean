import Criteria.Proofs.Json.Taken
import Mathlib.Data.List.DropRight

/-! Where readers leave off, by brackets and quotes alone.

The commas that stand outside of strings and of brackets opened since divide a list or an object
into items, and `itemEnd` finds the end of an item by looking at quotes, commas and brackets alone.
What a reader takes agrees with this (`Passes`). A value is taken inside one item (`Stays`), and the
inside of a container up to the bracket that closes it (`Finishes`). -/
namespace Criteria.Json.Reader

open Text

variable {α β σ : Type} {s r t : List Char} {a : α} {b : β} {c : Char}

/-! ### Looking for the end of an item -/

/-- The place of the reading: outside of strings, in a string, or after a backslash in one, with so
many brackets open. An item has ended with the comma or bracket that cannot belong to it. -/
inductive Spot
  | plain (opened : Nat)
  | quoted (opened : Nat)
  | escaped (opened : Nat)
  | ended (mark : Char)

/-- Outside of strings all other characters are alike. -/
def isMark (c : Char) : Bool :=
  c == '"' || c == ',' || c == '[' || c == '\x7b' || c == ']' || c == '\x7d'

/-- Where the text is after one more character. -/
def Spot.after : Spot → Char → Spot
  | .plain opened, c =>
    if !isMark c then .plain opened
    else if c = '"' then .quoted opened
    else if c = '[' ∨ c = '\x7b' then .plain (opened + 1)
    else match opened with
      | 0 => .ended c
      | n + 1 => if c = ',' then .plain (n + 1) else .plain n
  | .quoted opened, c =>
    if c = '"' then .plain opened else if c = '\\' then .escaped opened else .quoted opened
  | .escaped opened, _ => .quoted opened
  | .ended mark, _ => .ended mark

/-- What is left of a text from the end of the item that it starts with. -/
def itemEnd : Spot → List Char → List Char
  | .ended c, s => c :: s
  | _, [] => []
  | p, c :: s => itemEnd (p.after c) s

theorem itemEnd_ended (c : Char) (s : List Char) : itemEnd (.ended c) s = c :: s := by
  cases s <;> rfl

theorem itemEnd_plain (n : Nat) (c : Char) (s : List Char) :
    itemEnd (.plain n) (c :: s) = itemEnd ((Spot.plain n).after c) s := rfl

theorem itemEnd_quoted (n : Nat) (c : Char) (s : List Char) :
    itemEnd (.quoted n) (c :: s) = itemEnd ((Spot.quoted n).after c) s := rfl

theorem after_plain (h : isMark c = false) (n : Nat) : (Spot.plain n).after c = .plain n := by
  cases n <;> rw [Spot.after, h] <;> rfl

theorem isMark_of_isDigit (h : c.isDigit = true) : isMark c = false := by
  simp only [isMark, Bool.or_eq_false_iff, beq_eq_false_iff_ne]
  refine ⟨⟨⟨⟨⟨?_, ?_⟩, ?_⟩, ?_⟩, ?_⟩, ?_⟩ <;> rintro rfl <;> cases h

theorem isMark_of_isSpace (h : isSpace c = true) : isMark c = false := by
  simp only [isMark, Bool.or_eq_false_iff, beq_eq_false_iff_ne]
  refine ⟨⟨⟨⟨⟨?_, ?_⟩, ?_⟩, ?_⟩, ?_⟩, ?_⟩ <;> rintro rfl <;> cases h

theorem itemEnd_dropWhile {f : Char → Bool} (hf : ∀ c, f c = true → isMark c = false) (n : Nat)
    (s : List Char) : itemEnd (.plain n) (s.dropWhile f) = itemEnd (.plain n) s := by
  induction s with
  | nil => rfl
  | cons c s ih =>
    rw [List.dropWhile_cons]
    split
    next h => rw [ih, itemEnd_plain, after_plain (hf c h)]
    next => rfl

theorem itemEnd_afterSpace (n : Nat) (s : List Char) :
    itemEnd (.plain n) (afterSpace s) = itemEnd (.plain n) s :=
  itemEnd_dropWhile (fun _ => isMark_of_isSpace) n s

theorem afterSpace_afterSpace (s : List Char) : afterSpace (afterSpace s) = afterSpace s :=
  List.dropWhile_idempotent isSpace s

/-! ### From spot to spot -/

/-- Whatever the reader takes leads from one spot to another, however many brackets are open. -/
def Passes (p : Nat → Spot) (x : Reader α) (q : α → Nat → Spot) : Prop :=
  ∀ s a r, Takes x s a r → ∀ n, itemEnd (p n) s = itemEnd (q a n) r

/-- The same when it is known what comes first. -/
def PassesOn (c : Option Char) (p : Nat → Spot) (x : Reader α) (q : α → Nat → Spot) : Prop :=
  ∀ s a r, s.head? = c → Takes x s a r → ∀ n, itemEnd (p n) s = itemEnd (q a n) r

/-- A value is taken inside one item. -/
abbrev Stays (x : Reader α) : Prop := Passes .plain x fun _ => .plain

/-- What is taken ends with the bracket that closes it. -/
abbrev Finishes (x : Reader α) : Prop := Passes (fun n => .plain (n + 1)) x fun _ => .plain

variable {p : Nat → Spot} {q : α → Nat → Spot} {q' : β → Nat → Spot} {x : Reader α}

theorem passes_pure (h : p = q a) : Passes p (pure a) q := by
  intro s b r ht n
  obtain ⟨rfl, rfl⟩ := takes_pure_iff.1 ht
  rw [h]

theorem passes_fail {e : Problem} : Passes p (fail e) q :=
  fun _ _ _ h => absurd h not_takes_fail

theorem Passes.bind {f : α → Reader β} (hx : Passes p x q) (hf : ∀ a, Passes (q a) (f a) q') :
    Passes p (x >>= f) q' := by
  intro s b t h n
  obtain ⟨a, r, hx', hf'⟩ := takes_bind_iff.1 h
  rw [hx s a r hx' n, hf a r b t hf' n]

theorem Passes.on (h : Passes p x q) (c : Option Char) : PassesOn c p x q :=
  fun s a r _ => h s a r

theorem passes_peek {f : Option Char → Reader β} (hf : ∀ c, PassesOn c p (f c) q') :
    Passes p (peek >>= f) q' := by
  intro s b t h n
  obtain ⟨c, r, hpeek, hf'⟩ := takes_bind_iff.1 h
  obtain ⟨rfl, rfl⟩ := takes_unique hpeek ⟨_, rfl⟩
  exact hf _ _ b t rfl hf' n

/-- A spot in which an item goes on. -/
def Spot.Within (p : Spot) : Prop := ∀ c s, itemEnd p (c :: s) = itemEnd (p.after c) s

theorem passesOn_next {f : Option Char → Reader β} (hp : ∀ n, (p n).Within)
    (hf : Passes (fun n => (p n).after c) (f (some c)) q') :
    PassesOn (some c) p (next >>= f) q' := by
  intro s b t hs h n
  obtain ⟨s, rfl⟩ := List.head?_eq_some_iff.1 hs
  obtain ⟨d, r, hnext, hf'⟩ := takes_bind_iff.1 h
  obtain ⟨rfl, rfl⟩ := takes_unique hnext (takes_next c s)
  rw [hp n c r, hf r b t hf' n]

theorem passes_next {f : Option Char → Reader β} (hp : ∀ n, (p n).Within)
    (hf : ∀ c, Passes (fun n => (p n).after c) (f (some c)) q') (hnone : Passes p (f none) q') :
    Passes p (next >>= f) q' := by
  intro s b t h n
  cases s with
  | nil =>
    obtain ⟨d, r, hnext, hf'⟩ := takes_bind_iff.1 h
    obtain ⟨rfl, rfl⟩ := takes_unique hnext ⟨_, rfl⟩
    exact hnone _ b t hf' n
  | cons c s => exact passesOn_next hp (hf c) _ b t rfl h n

theorem stays_space : Stays space := by
  intro s a r h n
  obtain ⟨_, rfl⟩ := takes_unique h ⟨_, rfl⟩
  exact (itemEnd_afterSpace n s).symm

theorem stays_digitRun : Stays digitRun := by
  intro s a r h n
  obtain ⟨_, rfl⟩ := takes_unique h ⟨_, rfl⟩
  exact (itemEnd_dropWhile (fun _ => isMark_of_isDigit) n s).symm

theorem stays_word {w : List Char} (hw : w.all (fun c => !isMark c) = true) : Stays (word w) := by
  induction w with
  | nil => exact passes_pure rfl
  | cons d w ih =>
    obtain ⟨hd, hrest⟩ := Bool.and_eq_true_iff.1 hw
    refine passes_next (fun _ _ _ => rfl) (fun c => ?_) passes_fail
    dsimp only
    split
    next h =>
      subst h
      simp only [after_plain (Bool.not_eq_true' _ ▸ hd)]
      exact ih hrest
    next => exact passes_fail

/-! ### Numbers -/

theorem passesOn_next_plain {f : Option Char → Reader β} (hc : isMark c = false)
    (hf : Passes .plain (f (some c)) q') : PassesOn (some c) .plain (next >>= f) q' := by
  refine passesOn_next (fun _ _ _ => rfl) ?_
  simp only [after_plain hc]
  exact hf

theorem passesOn_next_either {f : Option Char → Reader β} {o : Option Char} {d : Char}
    (ho : o = some c ∨ o = some d) (hc : isMark c = false) (hd : isMark d = false)
    (hf : Passes .plain (f o) q') : PassesOn o .plain (next >>= f) q' := by
  rcases ho with rfl | rfl
  · exact passesOn_next_plain hc hf
  · exact passesOn_next_plain hd hf

/-- Where digits are missing, only the problem depends on what comes instead. -/
theorem passes_missing {e e' : Problem} :
    Passes p (do if (← peek).isNone then fail e else fail e') q := by
  refine passes_peek fun c => Passes.on ?_ c
  split <;> exact passes_fail

theorem stays_fraction : Stays fraction := by
  refine passes_peek fun c => ?_
  split
  next h =>
    subst h
    refine passesOn_next_plain rfl (stays_digitRun.bind fun ds => ?_)
    split
    · exact passes_pure rfl
    · exact passes_missing
  next =>
    refine Passes.on ?_ c
    exact passes_pure rfl

theorem stays_exponent : Stays exponent := by
  have hdigits : ∀ sign : Option Char, Stays (do
      let ds ← digitRun
      if ds ≠ [] then pure (some (decide (sign = some '-'), ds))
      else if (← peek).isNone then fail .endInValue
      else fail .invalidNumber) := by
    intro sign
    refine stays_digitRun.bind fun ds => ?_
    split
    · exact passes_pure rfl
    · exact passes_missing
  refine passes_peek fun mark => ?_
  split
  next hmark =>
    refine passesOn_next_either hmark rfl rfl (passes_peek fun sign => ?_)
    dsimp only
    split
    next hsign => exact passesOn_next_either hsign rfl rfl (hdigits sign)
    next => exact (hdigits sign).on sign
  next =>
    refine Passes.on ?_ mark
    exact passes_pure rfl

theorem stays_numeral (negative : Bool) : Stays (numeral negative) := by
  refine stays_digitRun.bind fun whole => ?_
  split
  · exact passes_missing
  · exact passes_fail
  · exact stays_fraction.bind fun _ => stays_exponent.bind fun _ => passes_pure rfl

theorem stays_number (negative : Bool) : Stays (number negative) := by
  refine (stays_numeral negative).bind fun n => ?_
  split
  · exact passes_pure rfl
  · exact passes_fail

/-! ### Strings -/

theorem after_quoted_hex {c : Char} {d : Nat} (h : hexValue? c = some d) (n : Nat) :
    (Spot.quoted n).after c = .quoted n := by
  rw [Spot.after, if_neg (by rintro rfl; cases h), if_neg (by rintro rfl; cases h)]

theorem passes_hexQuad : Passes .quoted hexQuad fun _ => .quoted := by
  intro s a r h n
  obtain ⟨hle, h⟩ := h
  unfold hexQuad at h
  split at h
  next =>
    split at h
    next ha hb hc hd =>
      cases h
      simp only [itemEnd, after_quoted_hex ha, after_quoted_hex hb, after_quoted_hex hc,
        after_quoted_hex hd]
    next => cases h
  next => cases h

theorem passes_expectInPair (hp : ∀ n, (p n).Within) (c : Char) :
    Passes p (expectInPair c) fun _ n => (p n).after c := by
  refine passes_next hp (fun d => ?_) passes_fail
  dsimp only
  split
  next h =>
    subst h
    exact passes_pure rfl
  next => exact passes_fail

theorem passes_coded : Passes .quoted coded fun _ => .quoted := by
  refine passes_hexQuad.bind fun n => ?_
  split
  · exact passes_fail
  split
  · exact passes_pure rfl
  refine (passes_expectInPair (fun _ _ _ => rfl) _).bind fun _ => ?_
  refine (passes_expectInPair (fun _ _ _ => rfl) _).bind fun _ => ?_
  refine passes_hexQuad.bind fun m => ?_
  split
  · exact passes_fail
  · exact passes_pure rfl

theorem passes_escape : Passes .escaped escape fun _ => .quoted := by
  refine passes_next (fun _ _ _ => rfl) (fun c => ?_) passes_fail
  split
  next h => cases h
  next => exact passes_coded
  next =>
    split
    · exact passes_pure rfl
    · exact passes_fail

theorem itemEnd_stringFrom {origin taken s r : List Char} {h : s.length ≤ origin.length} {v : String}
    {h' : r.length ≤ origin.length} (hs : stringFrom origin taken s h = .ok ⟨v, r, h'⟩) (n : Nat) :
    itemEnd (.quoted n) s = itemEnd (.plain n) r := by
  -- the rounds that go on have taken an escape or a character that stands for itself
  fun_induction stringFrom origin taken s h with
  | case1 => cases hs
  | case2 =>
    cases hs
    rfl
  | case3 => cases hs
  | case4 taken r d t ht hescape _ _ _ _ ih =>
    rw [← ih hs, ← passes_escape r d t ⟨ht, hescape⟩ n]
    rfl
  | case5 => cases hs
  | case6 taken c r _ _ hquote hslash _ _ ih =>
    rw [← ih hs, itemEnd_quoted, Spot.after, if_neg hquote, if_neg hslash]

theorem passes_string : Passes .quoted string fun _ => .plain := by
  intro s v r h n
  obtain ⟨_, h⟩ := h
  exact itemEnd_stringFrom h n

/-! ### The start of a value -/

/-- Inside of a container if it is one that starts. -/
def Spot.inside : Start → Nat → Spot
  | .array, n | .object, n => .plain (n + 1)
  | _, n => .plain n

theorem passes_startAfter (c : Char) :
    Passes (fun n => (Spot.plain n).after c) (startAfter c) Spot.inside := by
  unfold startAfter
  split
  · exact (stays_word rfl).bind fun _ => passes_pure rfl
  · exact (stays_word rfl).bind fun _ => passes_pure rfl
  · exact (stays_word rfl).bind fun _ => passes_pure rfl
  · exact (stays_number true).bind fun _ => passes_pure rfl
  · exact passes_string.bind fun _ => passes_pure rfl
  · exact passes_pure rfl
  · exact passes_pure rfl
  · exact passes_fail

theorem passes_start : Passes .plain start Spot.inside := by
  refine stays_space.bind fun _ => passes_peek fun c => ?_
  split
  · exact passes_fail.on none
  next c =>
    split
    · exact ((stays_number false).bind fun _ => passes_pure rfl).on (some c)
    · exact passesOn_next (fun _ _ _ => rfl) (passes_startAfter c)

theorem stays_text : Stays text := by
  refine passes_start.bind fun st => ?_
  split
  · exact passes_pure rfl
  · exact passes_fail

theorem stays_flag : Stays flag := by
  refine passes_start.bind fun st => ?_
  split
  · exact passes_pure rfl
  · exact passes_fail

theorem stays_optional (hx : Stays x) : Stays (optional x) := by
  refine stays_space.bind fun _ => passes_peek fun c => ?_
  split
  next h =>
    subst h
    exact passesOn_next_plain rfl ((stays_word rfl).bind fun _ => passes_pure rfl)
  next => exact (hx.bind fun _ => passes_pure rfl).on c

/-! ### Lists and objects -/

theorem itemEnd_of_afterSpace (h : afterSpace s = c :: r) (n : Nat) :
    itemEnd (.plain n) s = itemEnd ((Spot.plain n).after c) r := by
  rw [← itemEnd_afterSpace, h]
  rfl

/-- A comma between elements does not end the list. -/
theorem Next.inside {first : Bool} (h : Next first s t) (n : Nat) :
    itemEnd (.plain (n + 1)) s = itemEnd (.plain (n + 1)) t := by
  cases h with
  | first => rfl
  | later h => exact itemEnd_of_afterSpace h (n + 1)

/-- A value inside of a container. -/
theorem Stays.inside (hx : Stays x) :
    Passes (fun n => .plain (n + 1)) x fun _ n => .plain (n + 1) :=
  fun s a r h n => hx s a r h (n + 1)

theorem finishes_closeList : Finishes closeList := by
  refine stays_space.inside.bind fun _ => passes_next (fun _ _ _ => rfl) (fun c => ?_) passes_fail
  split
  next h =>
    cases h
    exact passes_pure rfl
  next h =>
    cases h
    refine stays_space.inside.bind fun _ => passes_peek fun d => Passes.on ?_ d
    split <;> exact passes_fail
  next => exact passes_fail
  next => exact passes_fail

/-- After its elements the list is still open. -/
theorem ElementsTaken.inside {item : Reader α} (hitem : Stays item) {first : Bool} {as : List α}
    (h : ElementsTaken item first s as r) (n : Nat) :
    itemEnd (.plain (n + 1)) s = itemEnd (.plain (n + 1)) r := by
  induction h with
  | nil => rfl
  | @cons first s t u r a as hnext ht _ ih =>
    rw [hnext.inside, ← itemEnd_afterSpace, hitem _ a u ht, ih]

/-- Reading a list to its end closes it. -/
theorem finishes_elements {item : Reader α} (hitem : Stays item) : Finishes (elements item) := by
  intro s as r h n
  obtain ⟨t, has, hclose⟩ := elementsTaken_of_takes h
  rw [has.inside hitem, finishes_closeList t () r hclose]

theorem stays_colon : Stays colon := by
  refine stays_space.bind fun _ => passes_next (fun _ _ _ => rfl) (fun c => ?_) passes_fail
  split
  next h =>
    cases h
    exact passes_pure rfl
  next => exact passes_fail
  next => exact passes_fail

variable {step : σ → String → Reader σ} {state final : σ}

/-- Reading an object to its end closes it. -/
theorem MembersTaken.finishes (hstep : ∀ state key, Stays (step state key)) {first : Bool}
    (h : MembersTaken step first state s final r) (n : Nat) :
    itemEnd (.plain (n + 1)) s = itemEnd (.plain n) r := by
  induction h with
  | nil h => exact itemEnd_of_afterSpace h (n + 1)
  | @cons first state state' final s t u v w r key hnext hquote hkey ht _ ih =>
    rw [hnext.inside, itemEnd_of_afterSpace hquote, ← ih, ← hstep state key v state' w ht (n + 1),
      ← passes_string u key v hkey (n + 1)]
    rfl

theorem finishes_members (hstep : ∀ state key, Stays (step state key)) (state : σ) :
    Finishes (members step state) :=
  fun _ _ _ h n => (membersTaken_of_takes h).finishes hstep n

theorem stays_record {name : String} {positional keyed : Reader α} (hpositional : Finishes positional)
    (hkeyed : Finishes keyed) : Stays (record name positional keyed) := by
  refine passes_start.bind fun st => ?_
  split
  · exact hpositional
  · exact hkeyed
  · exact passes_fail

theorem stays_sequence {inside : Reader α} (h : Finishes inside) : Stays (sequence inside) := by
  refine passes_start.bind fun st => ?_
  split
  · exact h
  · exact passes_fail

/-- A field whose key has been read, with its value. -/
theorem stays_once (name : String) (seen : Option α) (hx : Stays x) : Stays (once name seen x) := by
  unfold once
  split
  · exact passes_fail
  · exact stays_colon.bind fun _ => hx.bind fun _ => passes_pure rfl

theorem stays_valueWith {array : Reader (List Json)} {object : Reader (List (String × Json))}
    (harray : Finishes array) (hobject : Finishes object) : Stays (valueWith array object) := by
  refine passes_start.bind fun st => ?_
  split
  · exact passes_pure rfl
  · exact passes_pure rfl
  · exact passes_pure rfl
  · exact passes_pure rfl
  · exact harray.bind fun _ => passes_pure rfl
  · exact hobject.bind fun _ => passes_pure rfl

/-- A value of any type is passed as a whole. -/
theorem stays_value : ∀ depth : Nat, Stays (value depth)
  | 0 => stays_valueWith passes_fail passes_fail
  | depth + 1 => stays_valueWith (finishes_elements (stays_value depth))
      (finishes_members (fun _ _ => stays_colon.bind fun _ =>
        (stays_value depth).bind fun _ => passes_pure rfl) [])

/-! ### Fields by position -/

theorem inside_slot (hx : Stays x) (first : Bool) :
    Passes (fun n => .plain (n + 1)) (slot first x) fun _ n => .plain (n + 1) := by
  intro s o r h n
  rcases slot_cases h with ⟨a, t, -, hnext, ha⟩ | ⟨-, rfl, -⟩
  · rw [hnext.inside, ← itemEnd_afterSpace, hx _ a r ha]
  · rfl

theorem inside_place (hx : Stays x) (position size : Nat) (name : String) :
    Passes (fun n => .plain (n + 1)) (place position name size x) fun _ n => .plain (n + 1) := by
  intro s a r h n
  obtain ⟨t, hnext, ha⟩ := element_of_place h
  rw [hnext.inside, ← itemEnd_afterSpace, hx _ a r ha]

end Criteria.Json.Reader
