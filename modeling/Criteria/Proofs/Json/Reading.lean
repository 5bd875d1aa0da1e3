import Criteria.Json.Typed

/-! What readers take.

`Takes x s a r` says that the reader `x` takes `a` off the front of `s` and leaves `r`.
Readers that follow each other take one after the other (`Takes.bind`), so what a reader
takes is found by going through its steps. `Reads x cs a` says that `cs` is a text of `a`
for the reader `x`, wherever such a text may stand: before a comma, a closing bracket or
the end. Strings are read as they are written (`takes_string`), a list of texts as the
list of what they stand for (`takes_elements`), and the members of an object one after
the other, in the order in which they come (`takes_members`). -/
namespace Criteria.Json.Reader

open Text

variable {α β σ : Type} {s r t : List Char} {a : α} {b : β} {c : Char}

/-- Reading `s` takes `a` off its front and leaves `r`. -/
def Takes (x : Reader α) (s : List Char) (a : α) (r : List Char) : Prop :=
  ∃ h, x s = .ok ⟨a, r, h⟩

theorem takes_pure (a : α) (s : List Char) : Takes (pure a : Reader α) s a s := ⟨_, rfl⟩

theorem Takes.bind {x : Reader α} {f : α → Reader β} (hx : Takes x s a r)
    (hf : Takes (f a) r b t) : Takes (x >>= f) s b t := by
  obtain ⟨h, hx⟩ := hx
  obtain ⟨h', hf⟩ := hf
  refine ⟨Nat.le_trans h' h, ?_⟩
  simp only [Bind.bind, hx, hf]

/-- What is taken is turned into something else. -/
theorem Takes.map {x : Reader α} (hx : Takes x s a r) (f : α → β) :
    Takes (do pure (f (← x))) s (f a) r :=
  hx.bind (takes_pure _ _)

/-! ### What has been taken -/

theorem takes_unique {x : Reader α} {a' : α} {r' : List Char} (h : Takes x s a r)
    (h' : Takes x s a' r') : a = a' ∧ r = r' := by
  obtain ⟨_, h⟩ := h
  obtain ⟨_, h'⟩ := h'
  cases h.symm.trans h'
  exact ⟨rfl, rfl⟩

theorem takes_pure_iff {a' : α} : Takes (pure a : Reader α) s a' r ↔ a' = a ∧ r = s := by
  constructor
  · exact fun h => takes_unique h (takes_pure a s)
  · intro h
    obtain ⟨rfl, rfl⟩ := h
    exact takes_pure _ _

theorem not_takes_fail {p : Problem} : ¬Takes (fail p : Reader α) s a r := nofun

/-- Of readers that follow each other, the first has taken something and the second from there. -/
theorem takes_bind_iff {x : Reader α} {f : α → Reader β} :
    Takes (x >>= f) s b t ↔ ∃ a r, Takes x s a r ∧ Takes (f a) r b t := by
  constructor
  · intro h
    obtain ⟨h, hb⟩ := h
    simp only [Bind.bind] at hb
    split at hb
    · cases hb
    next a r hr hx =>
      split at hb
      · cases hb
      next b' t' ht hf =>
        cases hb
        exact ⟨a, r, ⟨hr, hx⟩, ht, hf⟩
  · intro h
    obtain ⟨a, r, hx, hf⟩ := h
    exact hx.bind hf

/-! ### Characters -/

theorem afterSpace_cons (hc : isSpace c = false) (s : List Char) :
    afterSpace (c :: s) = c :: s := by
  simp only [afterSpace, List.dropWhile_cons, hc, Bool.false_eq_true, if_false]

theorem takes_space (hc : isSpace c = false) (s : List Char) :
    Takes space (c :: s) () (c :: s) := by
  refine ⟨Nat.le_refl _, ?_⟩
  simp only [space, afterSpace_cons hc]

theorem takes_peek (c : Char) (s : List Char) : Takes peek (c :: s) (some c) (c :: s) := ⟨_, rfl⟩

theorem takes_next (c : Char) (s : List Char) : Takes next (c :: s) (some c) s := ⟨_, rfl⟩

theorem takes_word (w s : List Char) : Takes (word w) (w ++ s) () s := by
  induction w with
  | nil => exact takes_pure _ _
  | cons c w ih =>
    refine (takes_next c (w ++ s)).bind ?_
    simp only [if_true]
    exact ih

/-! ### Strings -/

theorem takes_hexQuad {n : Nat} (h : n < 0x20) (s : List Char) :
    Takes hexQuad ('0' :: '0' :: hexChar (n / 16) :: hexChar (n % 16) :: s) n s := by
  have h0 : hexValue? '0' = some 0 := by decide
  have h1 := hexValue?_hexChar (n / 16) (by omega)
  have h2 := hexValue?_hexChar (n % 16) (by omega)
  refine ⟨by simp only [List.length_cons]; omega, ?_⟩
  simp only [hexQuad, h0, h1, h2, Except.ok.injEq, Taken.mk.injEq, and_true]
  omega

theorem takes_coded {c : Char} (h : c.toNat < 0x20) (s : List Char) :
    Takes coded ('0' :: '0' :: hexChar (c.toNat / 16) :: hexChar (c.toNat % 16) :: s) c s := by
  refine (takes_hexQuad h s).bind ?_
  rw [if_neg (by omega), if_pos (by omega), Char.ofNat_toNat]
  exact takes_pure c s

theorem takes_lettered {l d : Char} (h : lettered l = some d) (s : List Char) :
    Takes escape (l :: s) d s := by
  have hu : l ≠ 'u' := by
    intro hu
    subst hu
    cases h
  refine (takes_next l s).bind ?_
  split
  next he => cases he
  next he => exact absurd (Option.some.inj he) hu
  next c _ he =>
    cases he
    rw [h]
    exact takes_pure d s

/-- A character is escaped, and the escape stands for it, or it needs no escape. -/
theorem escapeChar_cases (c : Char) :
    (∃ e, escapeChar c = '\\' :: e ∧ ∀ s, Takes escape (e ++ s) c s) ∨
      (escapeChar c = [c] ∧ c ≠ '"' ∧ c ≠ '\\' ∧ ¬c.toNat < 0x20) := by
  have hletter : ∀ l d, lettered l = some d →
      ∃ e, ['\\', l] = '\\' :: e ∧ ∀ s, Takes escape (e ++ s) d s :=
    fun l d h => ⟨[l], rfl, takes_lettered h⟩
  unfold escapeChar
  -- the seven characters that have a letter of their own
  iterate 7
    split
    next h => subst h; exact .inl (hletter _ _ rfl)
  split
  next h => exact .inl ⟨_, rfl, fun s => (takes_next 'u' _).bind (takes_coded h s)⟩
  next hquote hslash _ _ _ _ _ hcontrol => exact .inr ⟨rfl, hquote, hslash, hcontrol⟩

/-- What has been taken, and the characters as they were before they were escaped. -/
theorem stringFrom_escaped (cs : List Char) {origin : List Char} (taken : List Char)
    (h : (cs.flatMap escapeChar ++ '"' :: r).length ≤ origin.length) :
    ∃ h', stringFrom origin taken (cs.flatMap escapeChar ++ '"' :: r) h =
      .ok ⟨String.ofList (taken.reverse ++ cs), r, h'⟩ := by
  induction cs generalizing taken with
  | nil =>
    refine ⟨Nat.le_of_succ_le h, ?_⟩
    simp only [List.flatMap_nil, List.nil_append, List.append_nil]
    rw [stringFrom, if_pos rfl]
  | cons c cs ih =>
    simp only [List.flatMap_cons, List.append_assoc] at h ⊢
    rcases escapeChar_cases c with ⟨e, he, hescape⟩ | ⟨he, hquote, hslash, hcontrol⟩
    · simp only [he, List.cons_append] at h ⊢
      obtain ⟨hle, hc⟩ := hescape (cs.flatMap escapeChar ++ '"' :: r)
      obtain ⟨h', hrest⟩ := ih (c :: taken) (Nat.le_trans hle (Nat.le_of_succ_le h))
      refine ⟨h', ?_⟩
      rw [stringFrom, if_neg (by decide), if_pos rfl]
      simp only [hc, hrest, List.reverse_cons, List.append_assoc, List.singleton_append]
    · simp only [he, List.cons_append, List.nil_append] at h ⊢
      obtain ⟨h', hrest⟩ := ih (c :: taken) (Nat.le_of_succ_le h)
      refine ⟨h', ?_⟩
      rw [stringFrom, if_neg hquote, if_neg hslash, if_neg hcontrol]
      simp only [hrest, List.reverse_cons, List.append_assoc, List.singleton_append]

/-- A string is read back as it was escaped. -/
theorem takes_string (v : String) (r : List Char) :
    Takes string (v.toList.flatMap escapeChar ++ '"' :: r) v r := by
  obtain ⟨h, hv⟩ := stringFrom_escaped v.toList [] (length_le_self (_ ++ _ :: r))
  rw [List.reverse_nil, List.nil_append, String.ofList_toList] at hv
  exact ⟨h, hv⟩

/-! ### The start of a value -/

theorem takes_start {st : Start} (hc : isSpace c = false) (hd : c.isDigit = false)
    (h : Takes (startAfter c) s st r) : Takes start (c :: s) st r := by
  refine (takes_space hc s).bind ((takes_peek c s).bind ?_)
  simp only [hd, Bool.false_eq_true, if_false]
  exact (takes_next c s).bind h

theorem takes_start_null (r : List Char) : Takes start ("null".toList ++ r) .null r :=
  takes_start rfl rfl ((takes_word "ull".toList r).map fun _ => Start.null)

theorem takes_start_boolean (b : Bool) (r : List Char) :
    Takes start (wordChars b ++ r) (.boolean b) r := by
  cases b with
  | true => exact takes_start rfl rfl ((takes_word "rue".toList r).map fun _ => Start.boolean true)
  | false =>
    exact takes_start rfl rfl ((takes_word "alse".toList r).map fun _ => Start.boolean false)

theorem takes_start_string (v : String) (r : List Char) :
    Takes start (stringChars v ++ r) (.string v) r := by
  rw [stringChars, List.append_assoc]
  exact takes_start rfl rfl ((takes_string v r).map Start.string)

theorem takes_start_array (r : List Char) : Takes start ('[' :: r) .array r :=
  takes_start rfl rfl (takes_pure _ _)

theorem takes_start_object (r : List Char) : Takes start ('\x7b' :: r) .object r :=
  takes_start rfl rfl (takes_pure _ _)

/-! ### Texts of values -/

/-- What may follow a value: the end, a comma, or the end of what the value stands in. -/
def Delimited (r : List Char) : Prop := ∀ c ∈ r.head?, c = ',' ∨ c = ']' ∨ c = '\x7d'

/-- `cs` is a text of `a`. -/
def Reads (x : Reader α) (cs : List Char) (a : α) : Prop :=
  ∀ r, Delimited r → Takes x (cs ++ r) a r

theorem Reads.map {x : Reader α} {cs : List Char} (h : Reads x cs a) (f : α → β) :
    Reads (do pure (f (← x))) cs (f a) :=
  fun r hr => (h r hr).map f

theorem reads_text (v : String) : Reads text (stringChars v) v :=
  fun r _ => (takes_start_string v r).bind (takes_pure _ _)

theorem reads_flag (b : Bool) : Reads flag (wordChars b) b :=
  fun r _ => (takes_start_boolean b r).bind (takes_pure _ _)

/-- What does not start like null is read by the reader for the value. -/
theorem reads_optional {x : Reader α} {cs : List Char} (h : Reads x (c :: cs) a)
    (hc : isSpace c = false) (hn : c ≠ 'n') : Reads (optional x) (c :: cs) (some a) := by
  intro r hr
  refine (takes_space hc _).bind ((takes_peek c _).bind ?_)
  rw [if_neg (fun he => hn (Option.some.inj he))]
  exact (h r hr).map some

theorem reads_value_null (depth : Nat) : Reads (value depth) "null".toList .null := by
  intro r _
  cases depth <;> exact (takes_start_null r).bind (takes_pure _ _)

theorem reads_value_string (depth : Nat) (v : String) :
    Reads (value depth) (stringChars v) (.string v) := by
  intro r _
  cases depth <;> exact (takes_start_string v r).bind (takes_pure _ _)

/-- A text is read whole when nothing is left of it. -/
theorem run_of_reads {x : Reader α} {text : String} (h : Reads x text.toList a) :
    run x text = .ok a := by
  have ht := h [] nofun
  rw [List.append_nil] at ht
  obtain ⟨h', hx⟩ := ht
  simp only [run, hx]
  rfl

end Criteria.Json.Reader
