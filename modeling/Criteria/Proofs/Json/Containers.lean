import Criteria.Proofs.Json.Reading
import Mathlib.Data.List.Forall2

/-! Lists and objects, part by part.

The two loops of a reader end where the bracket closes, and before that each round takes
one part. A list is read as the list of what its elements are read as (`takes_elements`).
The members of an object change a state one after the other, and `Steps` is the run that
they make of it (`takes_members`). -/
namespace Criteria.Json.Reader

open Text

variable {α σ : Type} {s r t u v : List Char}

/-! ### Parts with commas between them -/

theorem listed_cons (x : List Char) (xs : List (List Char)) :
    listed (x :: xs) = x ++ xs.flatMap (',' :: ·) := by
  induction xs generalizing x with
  | nil => rw [listed, List.flatMap_nil, List.append_nil]
  | cons y ys ih => rw [listed, ih, List.flatMap_cons, List.cons_append]

/-- What follows a part is a comma or the closing bracket. -/
theorem delimited_rest (xs : List (List Char)) {c : Char} (hc : c = ']' ∨ c = '\x7d') :
    Delimited (xs.flatMap (',' :: ·) ++ c :: r) := by
  intro d hd
  cases xs with
  | nil =>
    cases hd
    exact .inr hc
  | cons x xs =>
    cases hd
    exact .inl rfl

/-! ### Lists -/

/-- A text that cannot be taken for the end of a list. -/
def Opens (cs : List Char) : Prop := ∃ c t, cs = c :: t ∧ isSpace c = false ∧ c ≠ ']'

theorem anotherElement_close (first : Bool) (r : List Char) :
    anotherElement first (']' :: r) = .ok none := rfl

theorem anotherElement_first (h : Opens s) : ∃ p, anotherElement true s = .ok (some ⟨s, p⟩) := by
  obtain ⟨c, t, rfl, hspace, hc⟩ := h
  refine ⟨by simp, ?_⟩
  unfold anotherElement
  split
  next he =>
    rw [afterSpace_cons hspace] at he
    cases he
  next d u he =>
    rw [afterSpace_cons hspace] at he
    cases he
    rw [if_neg hc, dif_pos rfl]

theorem anotherElement_next (h : Opens s) :
    ∃ p, anotherElement false (',' :: s) = .ok (some ⟨s, p⟩) := by
  obtain ⟨c, t, rfl, hspace, hc⟩ := h
  refine ⟨by simp, ?_⟩
  unfold anotherElement
  split
  next he => cases he
  next d u he =>
    rw [afterSpace_cons rfl] at he
    cases he
    rw [if_neg (by decide), dif_neg (by decide), if_pos rfl]
    split
    next he =>
      rw [afterSpace_cons hspace] at he
      cases he
    next d u he =>
      rw [afterSpace_cons hspace] at he
      cases he
      rw [if_neg hc]

variable {item : Reader α} {origin : List Char}

/-- One round: an element is taken, and the rest of the list from after it. -/
theorem elementsFrom_cons {first : Bool} {taken as : List α} {a : α}
    (hnext : ∃ p, anotherElement first s = .ok (some ⟨t, p⟩)) (hitem : Takes item t a u)
    (hrest : ∀ h, ∃ h', elementsFrom item origin false (a :: taken) u h = .ok ⟨as, r, h'⟩)
    (h : s.length ≤ origin.length) :
    ∃ h', elementsFrom item origin first taken s h = .ok ⟨as, r, h'⟩ := by
  obtain ⟨p, hnext⟩ := hnext
  obtain ⟨hle, hitem⟩ := hitem
  have ht : t.length ≤ origin.length := Nat.le_trans (length_le_of_element p) h
  obtain ⟨h', hrest⟩ := hrest (Nat.le_trans hle ht)
  refine ⟨h', ?_⟩
  rw [elementsFrom]
  simp only [hnext, hitem, hrest]

theorem elementsFrom_nil {first : Bool} {taken : List α} (h : (']' :: r).length ≤ origin.length) :
    ∃ h', elementsFrom item origin first taken (']' :: r) h =
      .ok ⟨taken.reverse, ']' :: r, h'⟩ := by
  refine ⟨h, ?_⟩
  rw [elementsFrom]
  simp only [anotherElement_close]

/-- Texts of elements, one for each. -/
def ReadsAll (item : Reader α) : List (List Char) → List α → Prop :=
  List.Forall₂ fun cs a => Opens cs ∧ Reads item cs a

theorem elementsFrom_rest {parts : List (List Char)} {as : List α}
    (hparts : ReadsAll item parts as) (taken : List α)
    (h : (parts.flatMap (',' :: ·) ++ ']' :: r).length ≤ origin.length) :
    ∃ h', elementsFrom item origin false taken (parts.flatMap (',' :: ·) ++ ']' :: r) h =
      .ok ⟨taken.reverse ++ as, ']' :: r, h'⟩ := by
  induction hparts generalizing taken with
  | nil =>
    rw [List.append_nil]
    exact elementsFrom_nil h
  | @cons cs a parts as hcs _ ih =>
    simp only [List.flatMap_cons, List.cons_append, List.append_assoc] at h ⊢
    obtain ⟨c, t, rfl, hc⟩ := hcs.1
    refine elementsFrom_cons (anotherElement_next ⟨c, _, rfl, hc⟩)
      (hcs.2 _ (delimited_rest parts (.inl rfl))) (fun h => ?_) h
    obtain ⟨h', hrest⟩ := ih (a :: taken) h
    rw [List.reverse_cons, List.append_assoc, List.singleton_append] at hrest
    exact ⟨h', hrest⟩

/-- A list of parts with commas between them is read part by part. -/
theorem elementsFrom_parts {parts : List (List Char)} {as : List α}
    (hparts : ReadsAll item parts as) (h : (listed parts ++ ']' :: r).length ≤ origin.length) :
    ∃ h', elementsFrom item origin true [] (listed parts ++ ']' :: r) h =
      .ok ⟨as, ']' :: r, h'⟩ := by
  cases hparts with
  | nil => exact elementsFrom_nil h
  | @cons cs a parts as hcs hparts =>
    simp only [listed_cons, List.append_assoc] at h ⊢
    obtain ⟨c, t, rfl, hc⟩ := hcs.1
    exact elementsFrom_cons (anotherElement_first ⟨c, _, rfl, hc⟩)
      (hcs.2 _ (delimited_rest parts (.inl rfl))) (elementsFrom_rest hparts [a]) h

theorem takes_closeList (r : List Char) : Takes closeList (']' :: r) () r :=
  (takes_space rfl _).bind ((takes_next _ _).bind (takes_pure _ _))

/-- The elements of a list from after its opening bracket. -/
theorem takes_elements {parts : List (List Char)} {as : List α}
    (hparts : ReadsAll item parts as) (r : List Char) :
    Takes (elements item) (listed parts ++ ']' :: r) as r :=
  Takes.bind (elementsFrom_parts hparts (length_le_self _))
    ((takes_closeList r).bind (takes_pure _ _))

/-! ### Objects -/

theorem takes_colon (r : List Char) : Takes colon (':' :: r) () r :=
  (takes_space rfl _).bind ((takes_next _ _).bind (takes_pure _ _))

/-- A key and the text of its value. -/
def memberText (m : String × List Char) : List Char := stringChars m.1 ++ ':' :: m.2

/-- An object with these members. -/
def objectChars (ms : List (String × List Char)) : List Char :=
  '\x7b' :: (listed (ms.map memberText) ++ ['\x7d'])

variable {step : σ → String → Reader σ} {state state' final : σ}

/-- The members turn one state into another, each by a step of its own. -/
inductive Steps (step : σ → String → Reader σ) : σ → List (String × List Char) → σ → Prop
  | nil (state : σ) : Steps step state [] state
  | cons {state state' final : σ} {key : String} {cs : List Char} {ms : List (String × List Char)} :
      Reads (step state key) (':' :: cs) state' → Steps step state' ms final →
        Steps step state ((key, cs) :: ms) final

theorem anotherKey_close (first : Bool) (r : List Char) :
    ∃ p, anotherKey first ('\x7d' :: r) = .ok (false, ⟨r, p⟩) := ⟨_, rfl⟩

theorem anotherKey_first (r : List Char) : ∃ p, anotherKey true ('"' :: r) = .ok (true, ⟨r, p⟩) :=
  ⟨_, rfl⟩

theorem anotherKey_next (r : List Char) :
    ∃ p, anotherKey false (',' :: '"' :: r) = .ok (true, ⟨r, p⟩) := ⟨_, rfl⟩

/-- One round: a key is taken, a step, and the rest of the object from after it. -/
theorem membersFrom_cons {first : Bool} {key : String}
    (hkey : ∃ p, anotherKey first s = .ok (true, ⟨t, p⟩)) (hstring : Takes string t key u)
    (hstep : Takes (step state key) u state' v)
    (hrest : ∀ h, ∃ h', membersFrom step origin false state' v h = .ok ⟨final, r, h'⟩)
    (h : s.length ≤ origin.length) :
    ∃ h', membersFrom step origin first state s h = .ok ⟨final, r, h'⟩ := by
  obtain ⟨p, hkey⟩ := hkey
  obtain ⟨hu, hstring⟩ := hstring
  obtain ⟨hv, hstep⟩ := hstep
  obtain ⟨h', hrest⟩ := hrest (by omega)
  refine ⟨h', ?_⟩
  rw [membersFrom]
  simp only [hkey, hstring, hstep, hrest]

theorem membersFrom_nil {first : Bool} (h : ('\x7d' :: r).length ≤ origin.length) :
    ∃ h', membersFrom step origin first state ('\x7d' :: r) h = .ok ⟨state, r, h'⟩ := by
  obtain ⟨p, hkey⟩ := anotherKey_close first r
  refine ⟨Nat.le_of_succ_le h, ?_⟩
  rw [membersFrom]
  simp only [hkey]

theorem membersFrom_rest {ms : List (String × List Char)} (hms : Steps step state ms final)
    (h : ((ms.map memberText).flatMap (',' :: ·) ++ '\x7d' :: r).length ≤ origin.length) :
    ∃ h', membersFrom step origin false state
      ((ms.map memberText).flatMap (',' :: ·) ++ '\x7d' :: r) h = .ok ⟨final, r, h'⟩ := by
  induction hms with
  | nil => exact membersFrom_nil h
  | @cons _ _ _ key cs ms hstep _ ih =>
    simp only [List.map_cons, List.flatMap_cons, memberText, stringChars, List.cons_append,
      List.append_assoc, List.nil_append] at h ⊢
    exact membersFrom_cons (anotherKey_next _) (takes_string key _)
      (hstep _ (delimited_rest _ (.inr rfl))) ih h

/-- Members with commas between them are read as the steps that they make. -/
theorem membersFrom_parts {ms : List (String × List Char)} (hms : Steps step state ms final)
    (h : (listed (ms.map memberText) ++ '\x7d' :: r).length ≤ origin.length) :
    ∃ h', membersFrom step origin true state (listed (ms.map memberText) ++ '\x7d' :: r) h =
      .ok ⟨final, r, h'⟩ := by
  cases hms with
  | nil => exact membersFrom_nil h
  | @cons _ _ _ key cs ms hstep hms =>
    simp only [List.map_cons, listed_cons, memberText, stringChars, List.cons_append,
      List.append_assoc, List.nil_append] at h ⊢
    exact membersFrom_cons (anotherKey_first _) (takes_string key _)
      (hstep _ (delimited_rest _ (.inr rfl))) (membersFrom_rest hms) h

/-- The members of an object from after its opening brace. -/
theorem takes_members {ms : List (String × List Char)} (hms : Steps step state ms final)
    (r : List Char) :
    Takes (members step state) (listed (ms.map memberText) ++ '\x7d' :: r) final r :=
  membersFrom_parts hms (length_le_self _)

theorem reads_once {x : Reader α} {cs : List Char} {a : α} (h : Reads x cs a) (name : String) :
    Reads (once name none x) (':' :: cs) (some a) :=
  fun r hr => (takes_colon (cs ++ r)).bind ((h r hr).map some)

/-! ### Brackets -/

theorem reads_sequence {x : Reader α} {cs : List Char} {a : α} (h : ∀ r, Takes x (cs ++ r) a r) :
    Reads (sequence x) ('[' :: cs) a :=
  fun r _ => (takes_start_array (cs ++ r)).bind (h r)

/-- A record that is made of its members as they have been read. -/
theorem reads_record {ms : List (String × List Char)} (hms : Steps step state ms final)
    (make : σ → α) (name : String) (positional : Reader α) :
    Reads (record name positional (do pure (make (← members step state)))) (objectChars ms)
      (make final) := by
  intro r _
  rw [objectChars, List.cons_append, List.append_assoc]
  exact (takes_start_object _).bind ((takes_members hms r).map make)

end Criteria.Json.Reader
