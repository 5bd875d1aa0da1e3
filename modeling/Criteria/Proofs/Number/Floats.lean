import Criteria.Proofs.Number.Grouped

/-! Floating-point numbers under a locale.

A locale takes its separators out and writes a point for its decimal mark (`plainText`). What comes
out is a literal when a number stood there in the marks of the locale
(`exists_plainFrom_floatText`). The other way round a point in the literal may have been there
before, to a locale that does not know the point (`texts_of_plainFrom`). If the point is one of the
two separators, then only the decimal mark can have become a point (`floatText_of_plainFrom`). So a
number is read just when it has the grammar of the locale (`float_grouped`). -/
namespace Criteria

open Text Json

namespace Locale

variable {l : Locale} {cs ds r out back tail : List Char} {whole afterDigit : Bool}

theorem Separated.ne_group (hl : l.Separated) {c : Char} (hc : ¬Neutral c) : some c ≠ l.group :=
  fun hg => hc (hl.group c hg.symm)

theorem Separated.ne_decimal (hl : l.Separated) {c : Char} (hc : ¬Neutral c) : c ≠ l.decimal :=
  fun hd => hc (hd ▸ hl.decimal)

theorem Separated.keepsSigned (hl : l.Separated) : l.KeepsSigned := by
  intro c hc
  have hneutral : ¬Neutral c := by
    intro h
    obtain ⟨hdigit, hplus, hminus, -⟩ := h
    rcases hc with hc | hc | hc
    · cases hdigit.symm.trans hc
    · exact hplus hc
    · exact hminus hc
  exact ⟨hl.ne_group hneutral, hl.ne_decimal hneutral⟩

/-! ### What is made of a text -/

/-- Without the separators of groups, and with a point for the decimal mark. -/
def plainText (l : Locale) (cs : List Char) : List Char :=
  (cs.filter fun c => some c != l.group).map l.plainChar

/-- What is accepted becomes the text without separators, wherever the reading stood. -/
theorem plainText_of_plainFrom (h : l.plainFrom whole afterDigit cs = .ok out) :
    out = l.plainText cs := by
  induction cs generalizing whole afterDigit out with
  | nil =>
    cases h
    rfl
  | cons c cs ih =>
    rcases plainFrom_cons_eq_ok_iff.1 h with ⟨hg, -, -, -, hrest⟩ | ⟨hg, rest, rfl, hrest⟩
    · rw [ih hrest, plainText, plainText, List.filter_cons_of_neg (by simp [hg])]
    · rw [ih hrest, plainText, plainText, List.filter_cons_of_pos (by simp [hg]), List.map_cons]

/-- Behind the whole part no separator of groups is let through. -/
theorem plainFrom_false_eq_ok_iff : l.plainFrom false afterDigit cs = .ok out ↔
    (∀ c ∈ cs, some c ≠ l.group) ∧ out = cs.map l.plainChar := by
  induction cs generalizing afterDigit out with
  | nil => simp [plainFrom, eq_comm]
  | cons c cs ih =>
    rw [plainFrom_cons_eq_ok_iff, List.forall_mem_cons, List.map_cons]
    simp only [Bool.false_eq_true, false_and, and_false, false_or, Bool.false_and, ih]
    constructor
    · intro h
      obtain ⟨hg, -, rfl, hcs, rfl⟩ := h
      exact ⟨⟨hg, hcs⟩, rfl⟩
    · intro h
      obtain ⟨⟨hg, hcs⟩, rfl⟩ := h
      exact ⟨hg, _, rfl, hcs, rfl⟩

/-- What comes out without a point has gone in so. -/
theorem eq_of_plainFrom_false (h : l.plainFrom false afterDigit cs = .ok out) (hout : '.' ∉ out) :
    cs = out := by
  obtain ⟨-, rfl⟩ := plainFrom_false_eq_ok_iff.1 h
  have hkept : ∀ c ∈ cs, c = l.plainChar c := by
    intro c hc
    rw [plainChar]
    split
    next hd =>
      have hpoint : l.plainChar c = '.' := if_pos hd
      exact absurd (hpoint ▸ List.mem_map_of_mem hc) hout
    next => rfl
  exact (List.map_id' cs).symm.trans (List.map_congr_left hkept)

/-! ### From a number to a literal -/

/-- Up to a decimal mark with digits behind it. -/
theorem plainFrom_mark (hl : l.Separated) {fraction : List Char} {e : Option (Bool × List Char)}
    (hfraction : AllDigits fraction) (htail : ExponentText e tail) (whole afterDigit : Bool) :
    l.plainFrom whole afterDigit (l.decimal :: (fraction ++ tail)) =
      .ok ('.' :: (fraction ++ tail)) := by
  rw [plainFrom_decimal (fun hg => hl.differ hg.symm) rfl, plainFrom_fraction hl hfraction htail]
  rfl

/-- A grouped number is accepted, and what is made of it is a number without groups. -/
theorem exists_plainFrom_floatText (hl : l.Separated) (h : FloatText l.decimal l.group cs) :
    ∃ out, l.plainFrom true false cs = .ok out ∧ FloatText '.' none out := by
  obtain @⟨_, sign, mantissa, _, tail, hsign, hmantissa, htail⟩ := h
  suffices hplain : ∃ digits, l.plainFrom true false (mantissa ++ tail) = .ok (digits ++ tail) ∧
      Mantissa '.' none digits by
    obtain ⟨digits, hplain, hdigits⟩ := hplain
    refine ⟨sign ++ (digits ++ tail), ?_, .mk hsign hdigits htail⟩
    rw [plainFrom_sign hl.keepsSigned hsign, hplain]
    rfl
  cases hmantissa with
  | @whole _ ds hcs =>
    refine ⟨ds, ?_, .whole (wholePart_of_digits hcs.digits_ne hcs.allDigits)⟩
    have hrest := plainFrom_fraction hl allDigits_nil htail true true
    rw [plainFrom_wholePart hl.keepsDigits hcs htail.noDigit, ← List.nil_append tail, hrest]
    rfl
  | @pointed cs ds fraction hcs hfraction =>
    refine ⟨ds ++ '.' :: fraction, ?_,
      .pointed (wholePart_of_digits hcs.digits_ne hcs.allDigits) hfraction⟩
    have hmark : NoDigit (l.decimal :: (fraction ++ tail)) := noDigit_cons hl.decimal.1 _
    rw [List.append_assoc, List.cons_append, plainFrom_wholePart hl.keepsDigits hcs hmark,
      plainFrom_mark hl hfraction htail, List.append_assoc, List.cons_append]
    rfl
  | @fraction fraction hne hfraction =>
    exact ⟨'.' :: fraction, plainFrom_mark hl hfraction htail true false, .fraction hne hfraction⟩

/-! ### From a literal to a number -/

/-- The first character behind the whole part is not dropped. -/
theorem exists_cons_of_beyond {c : Char} (hback : l.Beyond back)
    (h : l.plainFrom whole afterDigit back = .ok (c :: out)) : ∃ d r, back = d :: r ∧
      c = l.plainChar d ∧
      l.plainFrom (whole && d != l.decimal && d != 'e' && d != 'E') d.isDigit r = .ok out := by
  cases back with
  | nil => cases h
  | cons d r =>
    rcases plainFrom_cons_eq_ok_iff.1 h with ⟨hg, -⟩ | ⟨-, rest, hrest, hr⟩
    · exact absurd hg (hback d rfl).2
    · obtain ⟨rfl, rfl⟩ := List.cons.inj hrest
      exact ⟨d, r, rfl, rfl, hr⟩

/-- The decimal mark has become the point, or the point is nothing to the locale. Then it has been
there before, and the whole part has not ended. -/
theorem mark_of_plainFrom {before : Bool} (hback : l.Beyond back)
    (h : l.plainFrom true before back = .ok ('.' :: r)) (hr : '.' ∉ r) :
    back = l.decimal :: r ∨ (l.decimal ≠ '.' ∧ l.group ≠ some '.') ∧
      ∃ behind, back = '.' :: behind ∧ l.plainFrom true false behind = .ok r := by
  obtain ⟨d, rest, rfl, hd, hrest⟩ := exists_cons_of_beyond hback h
  by_cases hmark : d = l.decimal
  · subst hmark
    rw [bne_self_eq_false, Bool.and_false, Bool.false_and, Bool.false_and] at hrest
    exact .inl (by rw [eq_of_plainFrom_false hrest hr])
  · rw [plainChar, if_neg hmark] at hd
    subst hd
    rw [bne_iff_ne.2 hmark] at hrest
    exact .inr ⟨⟨Ne.symm hmark, Ne.symm (hback '.' rfl).2⟩, rest, rfl, hrest⟩

/-- An exponent has been there before. -/
theorem eq_exponent_of_plainFrom {e : Option (Bool × List Char)} (hback : l.Beyond back)
    (h : l.plainFrom whole afterDigit back = .ok tail) (htail : ExponentText e tail) :
    back = tail := by
  have hbehind : ∀ {mark : Char} {r : List Char}, mark = 'e' ∨ mark = 'E' → '.' ∉ r →
      l.plainFrom whole afterDigit back = .ok (mark :: r) → back = mark :: r := by
    intro mark r hmark hr h
    obtain ⟨d, rest, rfl, hd, hrest⟩ := exists_cons_of_beyond hback h
    obtain rfl : mark = d := by
      rw [plainChar] at hd
      split at hd
      next =>
        subst hd
        rcases hmark with hmark | hmark <;> cases hmark
      next => exact hd
    have hbehind : (whole && mark != l.decimal && mark != 'e' && mark != 'E') = false := by
      rcases hmark with rfl | rfl <;> simp
    rw [hbehind] at hrest
    rw [eq_of_plainFrom_false hrest hr]
  have hpoint : '.' ∉ tail := fun hc => (htail.numeric hc).1 rfl
  cases htail with
  | absent => exact (hback.of_plainFrom h).2 rfl
  | unsigned hmark => exact hbehind hmark (fun hc => hpoint (List.mem_cons_of_mem _ hc)) h
  | signed _ hmark => exact hbehind hmark (fun hc => hpoint (List.mem_cons_of_mem _ hc)) h

/-- What is made a literal of is the text of a number in the marks of the locale, or one with a
point that the locale does not know. -/
theorem texts_of_plainFrom (hl : l.Separated) (h : l.plainFrom true false cs = .ok out)
    (hout : FloatText '.' none out) : FloatText l.decimal l.group cs ∨
      (l.decimal ≠ '.' ∧ l.group ≠ some '.') ∧ PointText l.group cs := by
  obtain @⟨_, sign, mantissa, e, tail, hsign, hmantissa, htail⟩ := hout
  obtain ⟨cs, rfl, hcs⟩ := exists_of_plainFrom_sign hsign h
  obtain ⟨whole, ds, back, rest, before, rfl, hsplit, hwhole, hback, hrest⟩ :=
    exists_whole_of_plainFrom hl.keepsDigits hcs
  have hds : AllDigits ds := Side.allDigits hwhole
  have hnone : NoDigit rest := (hback.of_plainFrom hrest).1
  -- the literal and what was made of the text end their whole parts at the same place
  have hpointed : ∀ {fraction : List Char}, AllDigits fraction → ds ++ fraction ≠ [] →
      rest = '.' :: (fraction ++ tail) → FloatText l.decimal l.group (sign ++ (whole ++ back)) ∨
        (l.decimal ≠ '.' ∧ l.group ≠ some '.') ∧ PointText l.group (sign ++ (whole ++ back)) := by
    rintro fraction hfraction hne rfl
    have hbehind : '.' ∉ fraction ++ tail := fun hc => (htail.numeric_append hfraction hc).1 rfl
    rcases mark_of_plainFrom hback hrest hbehind with rfl | ⟨hforeign, b, rfl, hb⟩
    · refine .inl ?_
      have hmantissa : Mantissa l.decimal l.group (whole ++ l.decimal :: fraction) := by
        rcases hwhole with ⟨rfl, rfl⟩ | hwhole
        · exact .fraction hne hfraction
        · exact .pointed hwhole hfraction
      have htext := FloatText.mk hsign hmantissa htail
      rwa [List.append_assoc, List.cons_append] at htext
    · -- behind the point the text goes on as if it began there
      obtain ⟨whole', es, back', rest', before', rfl, hsplit', hwhole', hback', hrest'⟩ :=
        exists_whole_of_plainFrom hl.keepsDigits hb
      obtain ⟨rfl, rfl⟩ := digits_append_inj hfraction htail.noDigit (Side.allDigits hwhole')
        (hback'.of_plainFrom hrest').1 hsplit'
      obtain rfl := eq_exponent_of_plainFrom hback' hrest' htail
      exact .inr ⟨hforeign, .mk hsign hwhole hwhole' hne htail⟩
  cases hmantissa with
  | whole hdigits =>
    obtain rfl := hdigits.eq_digits
    obtain ⟨rfl, rfl⟩ := digits_append_inj hdigits.allDigits htail.noDigit hds hnone hsplit
    obtain rfl := eq_exponent_of_plainFrom hback hrest htail
    exact .inl (.mk hsign (.whole (hwhole.resolve_left fun hnil => hdigits.digits_ne hnil.2)) htail)
  | @pointed _ _ fraction hdigits hfraction =>
    obtain rfl := hdigits.eq_digits
    rw [List.append_assoc, List.cons_append] at hsplit
    obtain ⟨rfl, rfl⟩ :=
      digits_append_inj hdigits.allDigits (noDigit_cons rfl _) hds hnone hsplit
    exact hpointed hfraction (List.append_ne_nil_of_left_ne_nil hdigits.digits_ne _) rfl
  | @fraction fraction hne hfraction =>
    obtain ⟨rfl, rfl⟩ :=
      digits_append_inj allDigits_nil (noDigit_cons rfl _) hds hnone hsplit
    exact hpointed hfraction hne rfl

/-- Where one of the separators is a point, what is accepted and makes a number was a grouped
number. -/
theorem floatText_of_plainFrom (hl : l.Separated) (hpoint : l.decimal = '.' ∨ l.group = some '.')
    (h : l.plainFrom true false cs = .ok out) (hout : FloatText '.' none out) :
    FloatText l.decimal l.group cs :=
  (texts_of_plainFrom hl h hout).resolve_right fun hforeign => hpoint.elim hforeign.1.1 hforeign.1.2

/-! ### Names -/

/-- The names of what is not a finite number, in any case. -/
def IsName (cs : List Char) : Prop :=
  cs.map Char.toLower ∈ ["nan".toList, "inf".toList, "infinity".toList]

theorem toLower_of_digit {c : Char} (hc : c.isDigit = true) : c.toLower = c := by
  have hrange : 48 ≤ c.toNat ∧ c.toNat ≤ 57 := Char.isDigit_iff_toNat.1 hc
  have hupper : ¬(c.val ≥ 'A'.val ∧ c.val ≤ 'Z'.val) := by
    intro h
    have hfirst : 65 ≤ c.toNat := UInt32.le_iff_toNat_le.1 h.1
    omega
  exact dif_neg hupper

theorem isDigit_of_name (h : IsName cs) {c : Char} (hc : c ∈ cs) : c.isDigit = false := by
  have hnames : ∀ name ∈ ["nan".toList, "inf".toList, "infinity".toList],
      name.any Char.isDigit = false := by decide
  cases hdigit : c.isDigit with
  | false => rfl
  | true =>
    refine absurd ?_ (List.any_eq_false.1 (hnames _ h) c.toLower (List.mem_map_of_mem hc))
    rw [toLower_of_digit hdigit, hdigit]

/-- What has a sign and digits is no name behind a sign. -/
theorem not_floatText_of_name {mark : Char} {separator : Option Char} {negative : Bool}
    {sign : List Char} (hsign : SignText negative sign) (hname : IsName cs) :
    ¬FloatText mark separator (sign ++ cs) := by
  intro h
  obtain ⟨c, hc, hdigit⟩ := h.exists_digit
  rcases List.mem_append.1 hc with hc | hc
  · cases hsign with
    | absent => cases hc
    | plus | minus =>
      obtain rfl := List.mem_singleton.1 hc
      cases hdigit
  · cases hdigit.symm.trans (isDigit_of_name hname hc)

theorem ofText?_of_floatText (h : FloatText '.' none cs) :
    Binary64.ofText? cs = Binary64.ofLiteral? cs := by
  obtain ⟨sign, hsign, hcs⟩ := exists_sign cs
  have hname : ¬IsName (Literal.sign cs).2 := fun hname =>
    not_floatText_of_name hsign hname (hcs ▸ h)
  simp only [IsName, List.mem_cons, List.not_mem_nil, or_false, not_or] at hname
  obtain ⟨hnan, hinf, hinfinity⟩ := hname
  simp only [Binary64.ofText?, if_neg hnan, hinf, hinfinity, or_self, if_false]

/-! ### Reading a number -/

/-- Behind the whole part a separator of groups is an error. -/
theorem not_plainFrom_of_late (hl : l.Separated) {mark : Char} {b : List Char}
    (hmark : mark = l.decimal ∨ mark = 'e' ∨ mark = 'E') (hlate : ∃ c ∈ b, some c = l.group) :
    l.plainFrom whole afterDigit (mark :: b) ≠ .ok out := by
  intro h
  obtain ⟨c, hc, hg⟩ := hlate
  rcases plainFrom_cons_eq_ok_iff.1 h with ⟨hgroup, -⟩ | ⟨-, rest, -, hrest⟩
  · rcases hmark with rfl | rfl | rfl
    · exact hl.differ hgroup.symm
    · exact hl.ne_group (fun h => h.2.2.2.1 rfl) hgroup
    · exact hl.ne_group (fun h => h.2.2.2.2 rfl) hgroup
  · have hbehind : (whole && mark != l.decimal && mark != 'e' && mark != 'E') = false := by
      rcases hmark with rfl | rfl | rfl <;> simp
    rw [hbehind] at hrest
    exact (plainFrom_false_eq_ok_iff.1 hrest).1 c hc hg

/-- A separator of groups after the mark or the exponent is refused. -/
theorem exists_error_of_late (hl : l.Separated) {s : String} {a b : List Char} {mark : Char}
    (htrim : trim s.toList = a ++ mark :: b) (hmark : mark = l.decimal ∨ mark = 'e' ∨ mark = 'E')
    (hlate : ∃ c ∈ b, some c = l.group) : ∃ f, l.float s = .error f := by
  refine exists_error_of_ne_ok fun x hx => ?_
  obtain ⟨out, hplain, -⟩ := float_eq_ok_iff.1 hx
  rw [plain, htrim] at hplain
  obtain ⟨_, _, _, rest, -, hrest⟩ := exists_of_plainFrom_append hplain
  exact not_plainFrom_of_late hl hmark hlate hrest

/-- **A number is read just when** it is written with the marks of the locale, provided one of them
is the point, and its value is that of the text with points for decimal marks and without groups.
So no name is read behind any sign, and no group in a fraction or an exponent. -/
theorem float_grouped (hl : l.Separated) (hpoint : l.decimal = '.' ∨ l.group = some '.')
    (s : String) :
    ((∃ x, l.float s = .ok x) ↔ FloatText l.decimal l.group (trim s.toList)) ∧
    (∀ x, l.float s = .ok x → Binary64.ofText? (l.plainText (trim s.toList)) = some x) ∧
    (∀ negative sign name, SignText negative sign → IsName name → trim s.toList = sign ++ name →
      ∃ f, l.float s = .error f) ∧
    ∀ a mark b, trim s.toList = a ++ mark :: b → mark = l.decimal ∨ mark = 'e' ∨ mark = 'E' →
      (∃ c ∈ b, some c = l.group) → ∃ f, l.float s = .error f := by
  have hread : (∃ x, l.float s = .ok x) ↔ FloatText l.decimal l.group (trim s.toList) := by
    constructor
    · intro h
      obtain ⟨x, hx⟩ := h
      obtain ⟨out, hplain, hliteral⟩ := float_eq_ok_iff.1 hx
      exact floatText_of_plainFrom hl hpoint hplain (exists_ofLiteral?_iff.1 ⟨x, hliteral⟩)
    · intro h
      obtain ⟨out, hplain, hout⟩ := exists_plainFrom_floatText hl h
      obtain ⟨x, hx⟩ := exists_ofLiteral?_iff.2 hout
      exact ⟨x, float_eq_ok_iff.2 ⟨out, hplain, hx⟩⟩
  refine ⟨hread, ?_, ?_, ?_⟩
  · intro x hx
    obtain ⟨out, hplain, hliteral⟩ := float_eq_ok_iff.1 hx
    rw [← plainText_of_plainFrom hplain,
      ofText?_of_floatText (exists_ofLiteral?_iff.1 ⟨x, hliteral⟩), hliteral]
  · intro negative sign name hsign hname htrim
    refine exists_error_of_ne_ok fun x hx => ?_
    have htext := hread.1 ⟨x, hx⟩
    rw [htrim] at htext
    exact not_floatText_of_name hsign hname htext
  · exact fun a mark b htrim hmark hlate => exists_error_of_late hl htrim hmark hlate

/-- Points between groups, a comma before the fraction, and an exponent. -/
theorem float_grouped_points :
    let l : Locale := ⟨',', some '.', [], []⟩
    l.Separated ∧ (l.decimal = '.' ∨ l.group = some '.') ∧ ∃ x,
      l.float " -1.234.567,50e-3" = .ok x ∧ Binary64.ofText? "-1234567.50e-3".toList = some x := by
  intro l
  have hl : l.Separated := ⟨by decide, by unfold Neutral; decide, by
    intro c hc
    cases hc
    unfold Neutral
    decide⟩
  have hpoint : l.decimal = '.' ∨ l.group = some '.' := .inr rfl
  obtain ⟨hread, hvalue, -⟩ := float_grouped hl hpoint " -1.234.567,50e-3"
  have htext : FloatText l.decimal l.group (trim " -1.234.567,50e-3".toList) := by
    have hgroup : ∀ {a b c : Char} {r ds : List Char}, [a, b, c].all Char.isDigit = true →
        Groups l.group r ds → Groups l.group ('.' :: a :: b :: c :: r) (a :: b :: c :: ds) :=
      fun hdigits hr => .cons rfl (List.all_eq_true.1 hdigits) rfl hr
    have hwhole : WholePart l.group ['1', '.', '2', '3', '4', '.', '5', '6', '7']
        ['1', '2', '3', '4', '5', '6', '7'] :=
      .mk (List.cons_ne_nil '1' []) (List.all_eq_true.1 rfl) (hgroup rfl (hgroup rfl .nil))
    have hmantissa : Mantissa l.decimal l.group
        ['1', '.', '2', '3', '4', '.', '5', '6', '7', ',', '5', '0'] :=
      .pointed hwhole (List.all_eq_true.1 rfl)
    exact .mk .minus hmantissa
      (.signed true (.inl rfl) (List.cons_ne_nil '3' []) (List.all_eq_true.1 rfl))
  obtain ⟨x, hx⟩ := hread.2 htext
  exact ⟨hl, hpoint, x, hx, hvalue x hx⟩

end Locale
end Criteria
