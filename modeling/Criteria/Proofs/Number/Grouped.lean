import Criteria.Proofs.Number.Integers

/-! Whole parts in groups.

A whole part is a run of digits and then any number of groups, each a separator and just three
digits (`WholePart`). A locale judges one separator at a time, by the character before it and the
four behind it. That comes to the same: a whole part is made plain by leaving its separators out
(`plainFrom_wholePart`), and whatever is made plain begins with a whole part or with none of its
characters (`exists_whole_of_plainFrom`). So an integer is read just when it is a sign or none and a
whole part, and has 64 bits (`integer_grouped`). -/
namespace Criteria

open Text

namespace Locale

variable {l : Locale} {cs ds r : List Char}

/-- No digit and no sign is a separator. -/
def KeepsSigned (l : Locale) : Prop :=
  ∀ c : Char, c.isDigit = true ∨ c = '+' ∨ c = '-' → some c ≠ l.group ∧ c ≠ l.decimal

theorem KeepsSigned.keepsDigits (hl : l.KeepsSigned) : l.KeepsDigits := fun c hc => hl c (.inl hc)

theorem KeepsDigits.group (hl : l.KeepsDigits) : ∀ c ∈ l.group, c.isDigit = false := by
  intro c hc
  cases hdigit : c.isDigit with
  | false => rfl
  | true => exact absurd hc.symm (hl c hdigit).1

/-! ### From the parts to the plain text -/

theorem plainFrom_sign (hl : l.KeepsSigned) {negative : Bool} {sign : List Char}
    (hsign : SignText negative sign) (r : List Char) :
    l.plainFrom true false (sign ++ r) = (l.plainFrom true false r).map (sign ++ ·) := by
  cases hsign with
  | absent => cases h : l.plainFrom true false r <;> simp [h, Except.map]
  | plus =>
    obtain ⟨hg, hd⟩ := hl '+' (by simp)
    exact plainFrom_cons hg hd true false r
  | minus =>
    obtain ⟨hg, hd⟩ := hl '-' (by simp)
    exact plainFrom_cons hg hd true false r

/-- Groups of three are copied without what separates them. -/
theorem plainFrom_groups (hl : l.KeepsDigits) (h : Groups l.group cs ds) (hr : NoDigit r) :
    l.plainFrom true true (cs ++ r) = (l.plainFrom true true r).map (ds ++ ·) := by
  induction h with
  | nil => cases h : l.plainFrom true true r <;> simp [h, Except.map]
  | @cons c three rest ds hc hthree hlength hgroups ih =>
    have hne : three ≠ [] := List.ne_nil_of_length_eq_add_one hlength
    have hstarts : startsGroup (three ++ (rest ++ r)) = true := by
      rw [startsGroup_iff, takeWhile_digits hthree ((hgroups.noDigit hl.group).append hr), hlength]
    rw [List.cons_append, List.append_assoc, plainFrom_group hc.symm, if_pos hstarts,
      hl.group c hc, plainFrom_run hl hne hthree, ih]
    cases l.plainFrom true true r <;> simp [Except.map]

/-- Of a whole part, the separators are left out. -/
theorem plainFrom_wholePart (hl : l.KeepsDigits) (h : WholePart l.group cs ds) (hr : NoDigit r)
    (afterDigit : Bool) :
    l.plainFrom true afterDigit (cs ++ r) = (l.plainFrom true true r).map (ds ++ ·) := by
  obtain ⟨hne, hrun, hgroups⟩ := h
  rw [List.append_assoc, plainFrom_run hl hne hrun, plainFrom_groups hl hgroups hr]
  cases l.plainFrom true true r <;> simp [Except.map]

/-! ### From the plain text to the parts -/

/-- A sign in the plain text has been there before. -/
theorem exists_of_plainFrom_sign {negative : Bool} {sign : List Char}
    (hsign : SignText negative sign) (h : l.plainFrom true false cs = .ok (sign ++ r)) :
    ∃ cs', cs = sign ++ cs' ∧ l.plainFrom true false cs' = .ok r := by
  have hfirst : ∀ {c : Char}, c ≠ '.' → c.isDigit = false → c ≠ 'e' → c ≠ 'E' →
      l.plainFrom true false cs = .ok (c :: r) →
        ∃ cs', cs = c :: cs' ∧ l.plainFrom true false cs' = .ok r := by
    intro c hpoint hdigit he hE h
    cases cs with
    | nil => cases h
    | cons d cs =>
      rcases plainFrom_cons_eq_ok_iff.1 h with ⟨-, -, hafter, -⟩ | ⟨-, cs', hcs, hrest⟩
      · cases hafter
      · obtain ⟨hd, rfl⟩ := List.cons.inj hcs
        rw [plainChar] at hd
        split at hd
        next => exact absurd hd hpoint
        next hdecimal =>
          subst hd
          rw [hdigit, bne_iff_ne.2 hdecimal, bne_iff_ne.2 he, bne_iff_ne.2 hE] at hrest
          exact ⟨cs, rfl, hrest⟩
  cases hsign with
  | absent => exact ⟨cs, rfl, h⟩
  | plus => exact hfirst (by decide) (by decide) (by decide) (by decide) h
  | minus => exact hfirst (by decide) (by decide) (by decide) (by decide) h

/-- No digit and no separator of groups comes next. -/
def Beyond (l : Locale) (back : List Char) : Prop :=
  ∀ c ∈ back.head?, c.isDigit = false ∧ some c ≠ l.group

/-- A text and what is made of it, both apart where the whole part ends. Without a run of digits
there are no groups either, unless a digit has been before. -/
inductive Parted (l : Locale) (afterDigit : Bool) : List Char → List Char → Prop
  | mk {run groups ds back out : List Char} (before : Bool) : AllDigits run →
      Groups l.group groups ds → (run = [] → groups = [] ∨ afterDigit = true) → l.Beyond back →
      l.plainFrom true before back = .ok out →
      Parted l afterDigit (run ++ (groups ++ back)) (run ++ (ds ++ out))

theorem Beyond.noDigit {back : List Char} (h : l.Beyond back) : NoDigit back :=
  fun c hc => (h c hc).1

/-- An accepted text and what is made of it, part by part. -/
theorem parted_of_plainFrom (hl : l.KeepsDigits) {afterDigit : Bool} {out : List Char}
    (h : l.plainFrom true afterDigit cs = .ok out) : l.Parted afterDigit cs out := by
  induction cs generalizing afterDigit out with
  | nil =>
    cases h
    have hback : l.Beyond [] := fun _ hc => absurd hc (Option.not_mem_none _)
    exact .mk (l := l) false allDigits_nil .nil (fun _ => .inl rfl) hback rfl
  | cons c r ih =>
    rcases plainFrom_cons_eq_ok_iff.1 h with ⟨hg, -, hafter, hstarts, hrest⟩ | ⟨hg, cs', rfl, hrest⟩
    · -- the digits behind the separator are the first group, and what follows them is no digit
      obtain @⟨run, groups, ds, back, out, before, hrun, hgroups, -, hback, hplain⟩ := ih hrest
      have hlength : run.length = 3 := by
        rwa [startsGroup_iff, takeWhile_digits hrun
          ((hgroups.noDigit hl.group).append hback.noDigit)] at hstarts
      have hparted := Parted.mk (l := l) before allDigits_nil (.cons hg.symm hrun hlength hgroups)
        (fun _ => .inr hafter) hback hplain
      rwa [List.nil_append, List.nil_append, List.cons_append, List.append_assoc,
        List.append_assoc] at hparted
    · cases hc : c.isDigit with
      | true =>
        obtain ⟨he, hE⟩ : c ≠ 'e' ∧ c ≠ 'E' := by constructor <;> rintro rfl <;> cases hc
        have hd := (hl c hc).2
        rw [hc, bne_iff_ne.2 hd, bne_iff_ne.2 he, bne_iff_ne.2 hE] at hrest
        obtain @⟨run, _, _, _, _, before, hrun, hgroups, -, hback, hplain⟩ := ih hrest
        rw [plainChar, if_neg hd]
        exact .mk (l := l) before (List.forall_mem_cons.2 ⟨hc, hrun⟩) hgroups
          (fun hnil => absurd hnil (List.cons_ne_nil c run)) hback hplain
      | false =>
        have hback : l.Beyond (c :: r) := by
          intro d hd
          cases hd
          exact ⟨hc, hg⟩
        exact .mk (l := l) afterDigit allDigits_nil .nil (fun _ => .inl rfl) hback h

/-- What is not yet plain behind the whole part is not empty, and begins with no digit. -/
theorem Beyond.of_plainFrom {back out : List Char} {whole before : Bool} (h : l.Beyond back)
    (hplain : l.plainFrom whole before back = .ok out) :
    NoDigit out ∧ (out = [] → back = []) := by
  cases back with
  | nil =>
    cases hplain
    exact ⟨noDigit_nil, fun _ => rfl⟩
  | cons c back =>
    obtain ⟨hdigit, hg⟩ := h c rfl
    rcases plainFrom_cons_eq_ok_iff.1 hplain with ⟨hgroup, -⟩ | ⟨-, cs', rfl, -⟩
    · exact absurd hgroup hg
    · refine ⟨noDigit_cons ?_ _, nofun⟩
      rw [plainChar]
      split
      · rfl
      · exact hdigit

/-- What is made plain begins with a whole part, or with none of its characters. -/
theorem exists_whole_of_plainFrom (hl : l.KeepsDigits) {out : List Char}
    (h : l.plainFrom true false cs = .ok out) :
    ∃ whole ds back rest before, cs = whole ++ back ∧ out = ds ++ rest ∧
      (whole = [] ∧ ds = [] ∨ WholePart l.group whole ds) ∧ l.Beyond back ∧
      l.plainFrom true before back = .ok rest := by
  obtain @⟨run, groups, ds, back, rest, before, hrun, hgroups, hstart, hback, hrest⟩ :=
    parted_of_plainFrom hl h
  refine ⟨run ++ groups, run ++ ds, back, rest, before, (List.append_assoc ..).symm,
    (List.append_assoc ..).symm, ?_, hback, hrest⟩
  cases run with
  | nil =>
    rcases hstart rfl with rfl | hfalse
    · cases hgroups
      exact .inl ⟨rfl, rfl⟩
    · cases hfalse
  | cons d run => exact .inr (.mk (List.cons_ne_nil d run) hrun hgroups)

/-- **An integer is read just when** it is a sign or none, and a run of digits with groups of three
behind it, and has 64 bits. White space around it does not count. The value is that of the digits
without the separators. -/
theorem integer_grouped (hl : l.KeepsSigned) (s : String) (n : Int) : l.integer s = .ok n ↔
    ∃ negative sign cs ds, SignText negative sign ∧ WholePart l.group cs ds ∧
      trim s.toList = sign ++ cs ∧ n = signedValue negative ds ∧ -2 ^ 63 ≤ n ∧ n < 2 ^ 63 := by
  rw [integer_eq_ok_iff]
  constructor
  · intro h
    obtain ⟨out, hplain, hread⟩ := h
    obtain ⟨negative, sign, ds, hsign, hne, hds, rfl, hn, hrange⟩ := readSigned_eq_ok_iff.1 hread
    obtain ⟨cs, htrim, hcs⟩ := exists_of_plainFrom_sign hsign hplain
    obtain ⟨whole, gs, back, rest, before, rfl, rfl, hwhole, hback, hrest⟩ :=
      exists_whole_of_plainFrom hl.keepsDigits hcs
    -- all that is made of the text is digits, so it ends with its whole part
    obtain ⟨hout, hempty⟩ := hback.of_plainFrom hrest
    obtain rfl : rest = [] :=
      eq_nil_of_digits (fun c hc => hds c (List.mem_append_right _ hc)) hout
    rw [List.append_nil] at hne hn
    have hwhole := hwhole.resolve_left fun hnil => hne hnil.2
    exact ⟨negative, sign, whole, gs, hsign, hwhole, by rw [htrim, hempty rfl, List.append_nil],
      hn, hrange⟩
  · intro h
    obtain ⟨negative, sign, cs, ds, hsign, hcs, htrim, rfl, hrange⟩ := h
    refine ⟨sign ++ ds, ?_, readSigned_eq_ok_iff.2
      ⟨negative, sign, ds, hsign, hcs.digits_ne, hcs.allDigits, rfl, rfl, hrange⟩⟩
    have hwhole := plainFrom_wholePart hl.keepsDigits hcs noDigit_nil false
    rw [List.append_nil] at hwhole
    rw [plain, htrim, plainFrom_sign hl hsign, hwhole]
    show Except.ok (sign ++ (ds ++ [])) = _
    rw [List.append_nil]

/-- The least integer, in groups behind spaces and with spaces around it. -/
theorem integer_grouped_least :
    let l : Locale := ⟨',', some ' ', [], []⟩
    l.KeepsSigned ∧ l.integer "  -9 223 372 036 854 775 808 " = .ok (-2 ^ 63) := by
  intro l
  have hl : l.KeepsSigned := by
    intro c hc
    constructor
    · rintro ⟨⟩
      revert hc
      decide
    · rintro rfl
      revert hc
      decide
  have hgroup : ∀ {a b c : Char} {r ds : List Char}, [a, b, c].all Char.isDigit = true →
      Groups l.group r ds → Groups l.group (' ' :: a :: b :: c :: r) (a :: b :: c :: ds) :=
    fun hdigits hr => .cons rfl (List.all_eq_true.1 hdigits) rfl hr
  have hwhole : WholePart l.group
      ['9', ' ', '2', '2', '3', ' ', '3', '7', '2', ' ', '0', '3', '6', ' ', '8', '5', '4', ' ',
        '7', '7', '5', ' ', '8', '0', '8']
      ['9', '2', '2', '3', '3', '7', '2', '0', '3', '6', '8', '5', '4', '7', '7', '5', '8', '0',
        '8'] := by
    refine .mk (List.cons_ne_nil '9' []) (List.all_eq_true.1 rfl) ?_
    exact hgroup rfl (hgroup rfl (hgroup rfl (hgroup rfl (hgroup rfl (hgroup rfl .nil)))))
  refine ⟨hl, (integer_grouped hl _ _).2
    ⟨true, ['-'], _, _, .minus, hwhole, by decide +kernel, by decide, by decide, by decide⟩⟩

end Locale
end Criteria
