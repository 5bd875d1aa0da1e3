import Criteria.Calendar.Layout
import Criteria.Proofs.Calendar.Texts
import Criteria.Proofs.Number.Grammar
import Criteria.Proofs.Results
import Criteria.Proofs.Text.Trimming

/-! What scanners have taken.

The scanners of dates and times, followed backwards: whatever a scanner takes is a piece at the
front of the text, and the piece is one that the scanner was made for. A timestamp has a colon and
no white space around it (`text_of_takes_timestamp`). A text that is read by a layout is made of one
piece for each item (`exists_of_takes_sequence`), and so has a colon just when the layout has one
(`colon_mem_iff`), and no white space behind it when the layout ends in a number
(`trimRight_of_fields`). -/
namespace Criteria.Calendar

open Text Scan

variable {α β : Type} {s r t ds : List Char} {a : α} {b : β} {c : Char} {x : Scan α}

namespace Scan

/-! ### One scanner after the other -/

theorem takes_bind_iff {f : α → Scan β} :
    Takes (x >>= f) s b t ↔ ∃ a r, Takes x s a r ∧ Takes (f a) r b t := by
  rw [Takes, StateT.run_bind, bind_eq_ok_iff]
  exact Prod.exists

/-- What is left is looked at and stays. -/
theorem takes_get_bind_iff {f : List Char → Scan β} :
    Takes (get >>= f) s b t ↔ Takes (f s) s b t := Iff.rfl

theorem takes_set_bind_iff {f : PUnit → Scan β} :
    Takes (set r >>= f) s b t ↔ Takes (f ⟨⟩) r b t := Iff.rfl

theorem takes_pure_iff {a' : α} : Takes (pure a) s a' r ↔ a = a' ∧ s = r := by
  show Except.ok (a, s) = .ok (a', r) ↔ _
  rw [Except.ok.injEq, Prod.mk.injEq]

theorem not_takes_throw {f : Fault} : ¬Takes (throw f : Scan α) s a r := by
  rintro ⟨⟩

theorem takes_of_all (h : x.all s = .ok a) : Takes x s a [] := by
  obtain ⟨⟨a', rest⟩, hrun, h⟩ := bind_eq_ok_iff.1 h
  dsimp only at h
  split at h
  next hrest =>
    cases h
    rw [Takes, hrun, hrest]
  next => cases h

/-! ### Single characters -/

theorem exists_of_takes_one {p : Char → Bool} (h : Takes (one p) s () r) :
    ∃ c, p c = true ∧ s = c :: r := by
  rw [one, takes_get_bind_iff] at h
  split at h
  · exact absurd h not_takes_throw
  next c t =>
    split at h
    next hc =>
      cases h
      exact ⟨c, hc, rfl⟩
    next => exact absurd h not_takes_throw

theorem eq_of_takes_literal (h : Takes (literal c) s () r) : s = c :: r := by
  rw [literal, takes_get_bind_iff] at h
  split at h
  next d t =>
    split at h
    next hd =>
      cases h
      rw [hd]
    next => split at h <;> exact absurd h not_takes_throw
  · exact absurd h not_takes_throw

/-! ### Digits -/

theorem exists_of_takes_number {least n : Nat} {most : Option Nat}
    (h : Takes (number least most) s n r) :
    ∃ ds, AllDigits ds ∧ least ≤ ds.length ∧ s = ds ++ r := by
  rw [number, takes_get_bind_iff] at h
  dsimp only at h
  generalize htaken : List.takeWhile Char.isDigit _ = ds at h
  have hds : AllDigits ds := by
    rw [← htaken]
    exact fun c hc => List.mem_takeWhile_imp hc
  have hprefix : ds <+: s := by
    rw [← htaken]
    cases most with
    | none => exact List.takeWhile_prefix _
    | some n => exact (List.takeWhile_prefix _).trans (List.take_prefix n s)
  split at h
  · exact absurd h not_takes_throw
  split at h
  · exact absurd h not_takes_throw
  next hleast =>
    split at h
    · exact absurd h not_takes_throw
    · rw [takes_set_bind_iff, takes_pure_iff] at h
      obtain ⟨u, rfl⟩ := hprefix
      rw [List.drop_left] at h
      exact ⟨ds, hds, Nat.not_lt.1 hleast, by rw [h.2]⟩

/-- The digits that count and those after the ninth. -/
theorem exists_of_takes_fraction {n : Nat} (h : Takes fraction s n r) :
    ∃ ds, AllDigits ds ∧ ds ≠ [] ∧ s = ds ++ r := by
  rw [fraction, takes_get_bind_iff, takes_bind_iff] at h
  obtain ⟨k, u, hnumber, h⟩ := h
  obtain ⟨ds, hds, hleast, rfl⟩ := exists_of_takes_number hnumber
  rw [takes_get_bind_iff] at h
  have hrest : r = u.dropWhile Char.isDigit := by
    cases h
    rfl
  have hdropped : AllDigits (u.takeWhile Char.isDigit) := fun c hc => List.mem_takeWhile_imp hc
  refine ⟨ds ++ u.takeWhile Char.isDigit, allDigits_append hds hdropped,
    List.append_ne_nil_of_left_ne_nil (List.length_pos_iff.1 hleast) _, ?_⟩
  rw [hrest, List.append_assoc, List.takeWhile_append_dropWhile]

theorem exists_of_takes_fixedDigits {w : Nat} (h : Takes (fixedDigits w) s ds r) :
    AllDigits ds ∧ ds.length = w ∧ s = ds ++ r := by
  induction w generalizing s ds with
  | zero =>
    obtain ⟨rfl, rfl⟩ := takes_pure_iff.1 h
    exact ⟨allDigits_nil, rfl, rfl⟩
  | succ w ih =>
    rw [fixedDigits, takes_get_bind_iff] at h
    split at h
    next c t =>
      split at h
      next hc =>
        rw [takes_set_bind_iff, takes_bind_iff] at h
        obtain ⟨es, u, hes, h⟩ := h
        obtain ⟨rfl, rfl⟩ := takes_pure_iff.1 h
        obtain ⟨hall, rfl, rfl⟩ := ih hes
        exact ⟨List.forall_mem_cons.2 ⟨hc, hall⟩, rfl, rfl⟩
      next => exact absurd h not_takes_throw
    · exact absurd h not_takes_throw

theorem exists_of_takes_fixedNumber {w n : Nat} (h : Takes (fixedNumber w) s n r) :
    ∃ ds, AllDigits ds ∧ ds.length = w ∧ s = ds ++ r := by
  rw [fixedNumber, takes_bind_iff] at h
  obtain ⟨ds, u, hds, h⟩ := h
  obtain ⟨-, rfl⟩ := takes_pure_iff.1 h
  exact ⟨ds, exists_of_takes_fixedDigits hds⟩

/-! ### Timestamps -/

/-- Whatever it takes, what is left is the end of the text. -/
def Advances (x : Scan α) : Prop := ∀ ⦃s a r⦄, Takes x s a r → r <:+ s

theorem advances_pure (a : α) : Advances (pure a) := by
  intro s a' r h
  obtain ⟨-, rfl⟩ := takes_pure_iff.1 h
  exact List.suffix_rfl

theorem Advances.bind {f : α → Scan β} (hx : Advances x) (hf : ∀ a, Advances (f a)) :
    Advances (x >>= f) := by
  intro s b t h
  obtain ⟨a, r, hfirst, hrest⟩ := takes_bind_iff.1 h
  exact (hf a hrest).trans (hx hfirst)

theorem advances_one (p : Char → Bool) : Advances (one p) := by
  intro s _ r h
  obtain ⟨c, -, rfl⟩ := exists_of_takes_one h
  exact List.suffix_cons c r

theorem advances_fixedNumber (w : Nat) : Advances (fixedNumber w) := by
  intro s n r h
  obtain ⟨ds, -, -, rfl⟩ := exists_of_takes_fixedNumber h
  exact List.suffix_append ds r

theorem advances_orElseFault (f : Fault) (o : Option α) : Advances (orElseFault f o) := by
  cases o with
  | none => exact fun s a r h => absurd h not_takes_throw
  | some a => exact advances_pure a

theorem advances_fullDate : Advances fullDate := by
  refine (advances_fixedNumber 4).bind fun _ => (advances_one _).bind fun _ => ?_
  refine (advances_fixedNumber 2).bind fun _ => (advances_one _).bind fun _ => ?_
  exact (advances_fixedNumber 2).bind fun _ => advances_orElseFault _ _

theorem advances_fullTime : Advances fullTime := by
  refine (advances_fixedNumber 2).bind fun _ => (advances_one _).bind fun _ => ?_
  refine (advances_fixedNumber 2).bind fun _ => (advances_one _).bind fun _ => ?_
  refine (advances_fixedNumber 2).bind fun _ s t r h => ?_
  rw [takes_get_bind_iff] at h
  extract_lets done at h
  have hdone : ∀ n, Advances (done n) := fun n => advances_orElseFault _ _
  split at h
  next u =>
    rw [takes_set_bind_iff, takes_bind_iff] at h
    obtain ⟨n, v, hfraction, h⟩ := h
    obtain ⟨ds, -, -, rfl⟩ := exists_of_takes_fraction hfraction
    exact (hdone n h).trans ((List.suffix_append ds v).trans (List.suffix_cons '.' _))
  next => exact hdone 0 h

theorem exists_of_takes_offsetDigits {d : Char × Char} (h : Takes offsetDigits s d r) :
    s = d.1 :: d.2 :: r := by
  rw [offsetDigits, takes_get_bind_iff] at h
  split at h
  · cases h
    rfl
  · exact absurd h not_takes_throw

/-- An offset ends in a digit. -/
theorem exists_of_takes_offset {p : Char → Bool} {m : Int}
    (h : Takes (offset (one p) false) s m r) : ∃ q c, c.isDigit = true ∧ s = q ++ c :: r := by
  rw [offset, takes_get_bind_iff] at h
  extract_lets hours at h
  have hhours : ∀ negative u, Takes (hours negative) u m r →
      ∃ q c, c.isDigit = true ∧ u = q ++ c :: r := by
    intro negative u hu
    obtain ⟨⟨a, b⟩, v, hab, hv⟩ := takes_bind_iff.1 hu
    dsimp only at hv
    split at hv
    · cases hv
    obtain ⟨_, w, hone, hw⟩ := takes_bind_iff.1 hv
    -- minutes are not optional here
    rw [takes_get_bind_iff, Bool.false_and, if_neg Bool.false_ne_true] at hw
    obtain ⟨⟨c, d⟩, z, hcd, hz⟩ := takes_bind_iff.1 hw
    dsimp only at hz
    split at hz
    · cases hz
    next hdigits =>
    split at hz
    · cases hz
    obtain ⟨-, rfl⟩ := takes_pure_iff.1 hz
    obtain ⟨e, -, rfl⟩ := exists_of_takes_one hone
    obtain rfl := exists_of_takes_offsetDigits hcd
    simp only [Bool.not_eq_true', Bool.not_eq_false, Bool.and_eq_true] at hdigits
    exact ⟨[a, b, e, c], d, hdigits.2, exists_of_takes_offsetDigits hab⟩
  have hsign : ∃ sign u negative, s = sign :: u ∧ Takes (hours negative) u m r := by
    clear_value hours
    split at h
    · exact ⟨_, _, false, rfl, h⟩
    · exact ⟨_, _, true, rfl, h⟩
    · exact ⟨_, _, true, rfl, h⟩
    · cases h
    · cases h
  obtain ⟨sign, u, negative, rfl, hu⟩ := hsign
  obtain ⟨q, c, hc, rfl⟩ := hhours negative u hu
  exact ⟨sign :: q, c, hc, rfl⟩

/-- An offset, also that of UTC, ends in no white space. -/
theorem exists_of_takes_fullOffset {m : Int} (h : Takes fullOffset s m r) :
    ∃ q c, isBlank c = false ∧ s = q ++ c :: r := by
  obtain ⟨utc, u, hzulu, hu⟩ := takes_bind_iff.1 h
  rw [zulu, takes_get_bind_iff] at hzulu
  split at hzulu
  next c t =>
    split at hzulu
    next hc =>
      cases hzulu
      obtain ⟨-, rfl⟩ := takes_pure_iff.1 hu
      exact ⟨[], c, by rcases hc with rfl | rfl <;> rfl, rfl⟩
    next =>
      cases hzulu
      obtain ⟨q, c, hc, hs⟩ := exists_of_takes_offset hu
      exact ⟨q, c, isBlank_of_isDigit hc, hs⟩
  next =>
    cases hzulu
    obtain ⟨q, c, hc, hs⟩ := exists_of_takes_offset hu
    exact ⟨q, c, isBlank_of_isDigit hc, hs⟩

/-- A timestamp has a colon in its time. It begins with a digit and ends in no white space. -/
theorem text_of_takes_timestamp {shown : Instant × Int} (h : Takes timestamp s shown []) :
    ':' ∈ s ∧ trim s = s := by
  obtain ⟨date, u, hdate, h⟩ := takes_bind_iff.1 h
  obtain ⟨_, v, hseparator, h⟩ := takes_bind_iff.1 h
  obtain ⟨time, w, htime, h⟩ := takes_bind_iff.1 h
  obtain ⟨offset, z, hoffset, h⟩ := takes_bind_iff.1 h
  obtain ⟨-, rfl⟩ := takes_pure_iff.1 h
  have hv : v <:+ s := (advances_one _ hseparator).trans (advances_fullDate hdate)
  have hw : w <:+ s := (advances_fullTime htime).trans hv
  have hleft : trimLeft s = s := by
    obtain ⟨_, _, hyear, -⟩ := takes_bind_iff.1 hdate
    obtain ⟨ds, hds, hlength, rfl⟩ := exists_of_takes_fixedNumber hyear
    obtain ⟨c, ds, rfl⟩ := List.exists_cons_of_length_eq_add_one hlength
    exact trimLeft_cons (isBlank_of_isDigit (hds c List.mem_cons_self)) _
  have hcolon : ':' ∈ v := by
    obtain ⟨_, _, hhour, htime⟩ := takes_bind_iff.1 htime
    obtain ⟨_, _, hmark, -⟩ := takes_bind_iff.1 htime
    obtain ⟨ds, -, -, rfl⟩ := exists_of_takes_fixedNumber hhour
    obtain ⟨m, hm, rfl⟩ := exists_of_takes_one hmark
    rw [eq_of_beq hm]
    exact List.mem_append_right _ List.mem_cons_self
  have hright : trimRight s = s := by
    obtain ⟨q, d, hd, rfl⟩ := exists_of_takes_fullOffset hoffset
    obtain ⟨p, rfl⟩ := hw
    rw [← List.append_assoc]
    exact trimRight_append hd _
  exact ⟨hv.subset hcolon, by rw [trim, hleft, hright]⟩

end Scan

/-- A timestamp has a colon, and no white space at its ends. -/
theorem text_of_ofRfc3339 {i : Instant} (h : Instant.ofRfc3339 s = .ok i) :
    ':' ∈ s ∧ trim s = s := by
  rw [Instant.ofRfc3339] at h
  split at h
  · cases h
  · obtain ⟨shown, hall, -⟩ := bind_eq_ok_iff.1 h
    exact text_of_takes_timestamp (takes_of_all hall)

/-! ### Items of a layout -/

/-- The texts that an item stands for. -/
inductive Item.Shows : Item → List Char → Prop
  | space {bs : List Char} : allBlank bs = true → Shows .space bs
  | literal (c : Char) : Shows (.literal c) [c]
  | number {n : Numeric} {negative : Bool} {bs sign ds : List Char} : allBlank bs = true →
      SignText negative sign → ds ≠ [] → AllDigits ds → Shows (.number n) (bs ++ (sign ++ ds))
  | noFraction : Shows .fraction []
  | fraction {ds : List Char} : ds ≠ [] → AllDigits ds → Shows .fraction ('.' :: ds)

/-- No names and no offsets: the items that have texts of their own. -/
def Item.isPlain : Item → Bool
  | .space | .literal _ | .number _ | .fraction => true
  | _ => false

variable {i : Item} {is : List Item} {f g : Fields} {p : List Char}

theorem takes_lift_iff {e : Except Fault α} :
    Takes (liftM e : Scan α) s a r ↔ e = .ok a ∧ s = r := by
  cases e with
  | error f => exact iff_of_false (by rintro ⟨⟩) (by rintro ⟨⟨⟩, -⟩)
  | ok a' =>
    rw [Except.ok.injEq]
    exact takes_pure_iff

theorem exists_of_takes_blanks (h : Takes blanks s () r) :
    ∃ bs, allBlank bs = true ∧ s = bs ++ r := by
  obtain rfl : r = trimLeft s := by
    cases h
    rfl
  exact exists_before_trimLeft s

/-- A number has taken its digits and what may stand before them: white space and a sign. -/
theorem exists_of_takes_numeric {n : Numeric} {v : Int} (h : Takes (numeric n) s v r) :
    ∃ p, (Item.number n).Shows p ∧ s = p ++ r := by
  obtain ⟨_, u, hblanks, hu⟩ := takes_bind_iff.1 h
  obtain ⟨bs, hbs, rfl⟩ := exists_of_takes_blanks hblanks
  have hsigned : ∃ negative sign, SignText negative sign ∧ ∃ w, u = sign ++ w ∧
      ∃ most k, Takes (number 1 most) w k r := by
    rw [takes_get_bind_iff] at hu
    split at hu
    next w _ =>
      obtain ⟨k, z, hnumber, hz⟩ := takes_bind_iff.1 (takes_set_bind_iff.1 hu)
      obtain ⟨-, rfl⟩ := takes_pure_iff.1 hz
      exact ⟨true, ['-'], .minus, w, rfl, none, k, hnumber⟩
    next w _ =>
      obtain ⟨k, z, hnumber, hz⟩ := takes_bind_iff.1 (takes_set_bind_iff.1 hu)
      obtain ⟨-, rfl⟩ := takes_pure_iff.1 hz
      exact ⟨false, ['+'], .plus, w, rfl, none, k, hnumber⟩
    next =>
      obtain ⟨k, z, hnumber, hz⟩ := takes_bind_iff.1 hu
      obtain ⟨-, rfl⟩ := takes_pure_iff.1 hz
      exact ⟨false, [], .absent, _, rfl, n.width, k, hnumber⟩
  obtain ⟨negative, sign, hsign, w, rfl, most, k, hnumber⟩ := hsigned
  obtain ⟨ds, hds, hleast, rfl⟩ := exists_of_takes_number hnumber
  exact ⟨bs ++ (sign ++ ds), .number hbs hsign (List.length_pos_iff.1 hleast) hds, by simp⟩

/-- An item of a plain layout has taken a text that it stands for. -/
theorem exists_of_takes_item (hplain : i.isPlain = true) (h : Takes (item f i) s g r) :
    ∃ p, i.Shows p ∧ s = p ++ r := by
  cases i with
  | space =>
    obtain ⟨_, u, hblanks, hu⟩ := takes_bind_iff.1 h
    obtain ⟨-, rfl⟩ := takes_pure_iff.1 hu
    obtain ⟨bs, hbs, hs⟩ := exists_of_takes_blanks hblanks
    exact ⟨bs, .space hbs, hs⟩
  | literal c =>
    obtain ⟨_, u, hliteral, hu⟩ := takes_bind_iff.1 h
    obtain ⟨-, rfl⟩ := takes_pure_iff.1 hu
    exact ⟨[c], .literal c, eq_of_takes_literal hliteral⟩
  | number n =>
    obtain ⟨v, u, hnumeric, hu⟩ := takes_bind_iff.1 h
    obtain ⟨-, rfl⟩ := takes_lift_iff.1 hu
    exact exists_of_takes_numeric hnumeric
  | fraction =>
    obtain ⟨v, u, hpoint, hu⟩ := takes_bind_iff.1 h
    rw [afterPoint, takes_get_bind_iff] at hpoint
    split at hpoint
    next w =>
      obtain ⟨k, z, hdigits, hz⟩ := takes_bind_iff.1 (takes_set_bind_iff.1 hpoint)
      obtain ⟨rfl, rfl⟩ := takes_pure_iff.1 hz
      obtain ⟨-, rfl⟩ := takes_lift_iff.1 hu
      obtain ⟨ds, hds, hne, rfl⟩ := exists_of_takes_fraction hdigits
      exact ⟨'.' :: ds, .fraction hne hds, rfl⟩
    next =>
      obtain ⟨rfl, rfl⟩ := takes_pure_iff.1 hpoint
      obtain ⟨-, rfl⟩ := takes_pure_iff.1 hu
      exact ⟨[], .noFraction, rfl⟩
  | _ => cases hplain

/-- A text that is read by a layout has a piece for each item, one after the other. -/
theorem exists_of_takes_sequence (hplain : ∀ i ∈ is, i.isPlain = true)
    (h : Takes (sequence f is) s g r) :
    ∃ ps, List.Forall₂ Item.Shows is ps ∧ s = ps.flatten ++ r := by
  induction is generalizing f s with
  | nil =>
    obtain ⟨-, rfl⟩ := takes_pure_iff.1 h
    exact ⟨[], .nil, rfl⟩
  | cons i is ih =>
    rw [List.forall_mem_cons] at hplain
    obtain ⟨k, u, hitem, hrest⟩ := takes_bind_iff.1 h
    obtain ⟨p, hp, rfl⟩ := exists_of_takes_item hplain.1 hitem
    obtain ⟨ps, hps, rfl⟩ := ih hplain.2 hrest
    exact ⟨p :: ps, .cons hp hps, by simp⟩

/-! ### Texts that a layout reads -/

variable {layout : String} {n : Numeric}

/-- Only the colon itself shows a colon. -/
theorem Item.Shows.colon_mem_iff (h : i.Shows p) : ':' ∈ p ↔ i = .literal ':' := by
  have hdigits : ∀ {ds : List Char}, AllDigits ds → ':' ∉ ds :=
    fun hds hmem => Bool.false_ne_true (hds ':' hmem)
  have hblanks : ∀ {bs : List Char}, allBlank bs = true → ':' ∉ bs :=
    fun hbs hmem => Bool.false_ne_true (List.all_eq_true.1 hbs ':' hmem)
  cases h with
  | space hbs => exact iff_of_false (hblanks hbs) (by rintro ⟨⟩)
  | literal c => rw [List.mem_singleton, Item.literal.injEq, eq_comm]
  | number hbs hsign _ hds =>
    refine iff_of_false ?_ (by rintro ⟨⟩)
    simp only [List.mem_append, not_or]
    exact ⟨hblanks hbs, by cases hsign <;> decide, hdigits hds⟩
  | noFraction => exact iff_of_false List.not_mem_nil (by rintro ⟨⟩)
  | fraction _ hds =>
    refine iff_of_false (fun hmem => ?_) (by rintro ⟨⟩)
    exact (List.mem_cons.1 hmem).elim (by decide) (hdigits hds)

/-- A text has a colon just when its layout has one. -/
theorem colon_mem_iff (hplain : ∀ i ∈ items layout, i.isPlain = true)
    (h : Layout.fields layout s = .ok f) : ':' ∈ s ↔ .literal ':' ∈ items layout := by
  obtain ⟨ps, hps, rfl⟩ := exists_of_takes_sequence hplain (takes_of_all h)
  rw [List.append_nil]
  clear h hplain
  generalize items layout = is at hps ⊢
  induction hps with
  | nil => exact iff_of_false List.not_mem_nil List.not_mem_nil
  | cons hp _ ih =>
    rw [List.flatten_cons, List.mem_append, List.mem_cons, hp.colon_mem_iff, ih, eq_comm]

/-- What a layout reads ends in a digit when the layout ends in a number. -/
theorem exists_digit_of_shows {ps : List (List Char)}
    (h : List.Forall₂ Item.Shows (is ++ [.number n]) ps) :
    ∃ q c, c.isDigit = true ∧ ps.flatten = q ++ [c] := by
  induction is generalizing ps with
  | nil =>
    obtain _ | ⟨hp, _ | _⟩ := h
    cases hp with
    | @number _ _ bs sign ds _ _ hne hds =>
      refine ⟨bs ++ (sign ++ ds.dropLast), ds.getLast hne, hds _ (List.getLast_mem hne), ?_⟩
      simp [List.dropLast_append_getLast hne]
  | cons i is ih =>
    obtain _ | ⟨hp, hps⟩ := h
    obtain ⟨q, c, hc, hflat⟩ := ih hps
    exact ⟨_ ++ q, c, hc, by rw [List.flatten_cons, hflat, List.append_assoc]⟩

/-- A layout that ends in a number leaves no white space to read behind it. -/
theorem trimRight_of_fields (hplain : ∀ i ∈ items layout, i.isPlain = true)
    (hlast : items layout = is ++ [.number n]) (h : Layout.fields layout s = .ok f) :
    trimRight s = s := by
  obtain ⟨ps, hps, rfl⟩ := exists_of_takes_sequence hplain (takes_of_all h)
  rw [hlast] at hps
  obtain ⟨q, c, hc, hflat⟩ := exists_digit_of_shows hps
  rw [hflat, List.append_nil]
  exact trimRight_append (isBlank_of_isDigit hc) q

/-- A layout that begins with a number reads white space in front. -/
theorem fields_trimLeft (hfirst : items layout = .number n :: is) (s : List Char) :
    Layout.fields layout (trimLeft s) = Layout.fields layout s := by
  have hblanks : blanks.run (trimLeft s) = blanks.run s :=
    congrArg (fun r => Except.ok (PUnit.unit, r)) (trimLeft_trimLeft s)
  have hnumeric : (numeric n).run (trimLeft s) = (numeric n).run s := by
    rw [numeric, StateT.run_bind, StateT.run_bind, hblanks]
  have hitem : (item {} (.number n)).run (trimLeft s) = (item {} (.number n)).run s := by
    rw [item, StateT.run_bind, StateT.run_bind, hnumeric]
  have hsequence : (sequence {} (.number n :: is)).run (trimLeft s) =
      (sequence {} (.number n :: is)).run s := by
    rw [Scan.sequence, StateT.run_bind, StateT.run_bind, hitem]
  rw [Layout.fields, Layout.fields, hfirst, Scan.all, Scan.all, hsequence]

end Criteria.Calendar
