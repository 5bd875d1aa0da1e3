import Criteria.Proofs.Wire.WellFormed

/-! Limits are exact.

A text is refused for the first of five reasons that applies (`Refused`), and read when none does
(`ofJson_exact`). The limits enter only by what they are compared with, the bytes of the text and
the depth and leaves of the tree, each of which the limit itself still meets. So wider limits read
what narrower ones read, and refuse for the same reason whatever was not refused for its size. -/
namespace Criteria

open Criteria.Tree

variable {l l' : Limits} {text : String} {f : Filter} {e : Error}

/-- Why a text is refused, the first reason that applies. -/
inductive Refused (l : Limits) (text : String) : Error → Prop
  | tooLarge : l.maxJsonBytes < text.utf8ByteSize → Refused l text (.jsonTooLarge l.maxJsonBytes)
  | notJson {p : Json.Problem} : text.utf8ByteSize ≤ l.maxJsonBytes →
    Descriptor.ofJson text = .error p → Refused l text (.invalidJson p)
  | notFilter {d : Descriptor} {e : Error} : text.utf8ByteSize ≤ l.maxJsonBytes →
    Descriptor.ofJson text = .ok d → d.tree l.strictNodes = .error e → Refused l text e
  | tooDeep {d : Descriptor} {f : Filter} : text.utf8ByteSize ≤ l.maxJsonBytes →
    Descriptor.ofJson text = .ok d → d.tree l.strictNodes = .ok f → l.maxDepth < f.depth →
    Refused l text (.tooDeep l.maxDepth)
  | tooManyLeaves {d : Descriptor} {f : Filter} : text.utf8ByteSize ≤ l.maxJsonBytes →
    Descriptor.ofJson text = .ok d → d.tree l.strictNodes = .ok f → f.depth ≤ l.maxDepth →
    l.maxLeaves < f.leaves.length → Refused l text (.tooManyLeaves l.maxLeaves)

theorem ofJson_of_refused (h : Refused l text e) : Filter.ofJson l text = .error e := by
  cases h with
  | tooLarge hsize => simp only [Filter.ofJson, if_pos hsize]
  | notJson hsize hp => simp only [Filter.ofJson, if_neg (Nat.not_lt_of_le hsize), hp]
  | notFilter hsize hd he => simp only [Filter.ofJson, if_neg (Nat.not_lt_of_le hsize), hd, he]
  | tooDeep hsize hd hf hdepth =>
    simp only [Filter.ofJson, if_neg (Nat.not_lt_of_le hsize), hd, hf, Limits.check, if_pos hdepth]
  | tooManyLeaves hsize hd hf hdepth hleaves =>
    simp only [Filter.ofJson, if_neg (Nat.not_lt_of_le hsize), hd, hf, Limits.check,
      if_neg (Nat.not_lt_of_le hdepth), if_pos hleaves]

theorem refused_of_ofJson (h : Filter.ofJson l text = .error e) : Refused l text e := by
  by_cases hsize : l.maxJsonBytes < text.utf8ByteSize
  · cases h.symm.trans (ofJson_of_refused (.tooLarge hsize))
    exact .tooLarge hsize
  have hsize := Nat.le_of_not_lt hsize
  cases hd : Descriptor.ofJson text with
  | error p =>
    cases h.symm.trans (ofJson_of_refused (.notJson hsize hd))
    exact .notJson hsize hd
  | ok d =>
    cases hf : d.tree l.strictNodes with
    | error e' =>
      cases h.symm.trans (ofJson_of_refused (.notFilter hsize hd hf))
      exact .notFilter hsize hd hf
    | ok f =>
      by_cases hdepth : l.maxDepth < f.depth
      · cases h.symm.trans (ofJson_of_refused (.tooDeep hsize hd hf hdepth))
        exact .tooDeep hsize hd hf hdepth
      have hdepth := Nat.le_of_not_lt hdepth
      by_cases hleaves : l.maxLeaves < f.leaves.length
      · cases h.symm.trans (ofJson_of_refused (.tooManyLeaves hsize hd hf hdepth hleaves))
        exact .tooManyLeaves hsize hd hf hdepth hleaves
      · have hok := ofJson_eq_ok_iff.2 ⟨hsize, ⟨d, hd, hf⟩, hdepth, Nat.le_of_not_lt hleaves⟩
        cases h.symm.trans hok

/-- A text is refused for the reasons there are, and for no others. -/
theorem ofJson_eq_error_iff : Filter.ofJson l text = .error e ↔ Refused l text e :=
  ⟨refused_of_ofJson, ofJson_of_refused⟩

/-! ### Wider limits -/

/-- No limit of `l` is above that of `l'`, and both treat nodes alike. -/
structure Limits.Within (l l' : Limits) : Prop where
  bytes : l.maxJsonBytes ≤ l'.maxJsonBytes
  depth : l.maxDepth ≤ l'.maxDepth
  leaves : l.maxLeaves ≤ l'.maxLeaves
  strict : l.strictNodes = l'.strictNodes

/-- The errors that are about a limit. -/
inductive Error.OfLimit : Error → Prop
  | jsonTooLarge (n : Nat) : OfLimit (.jsonTooLarge n)
  | tooDeep (n : Nat) : OfLimit (.tooDeep n)
  | tooManyLeaves (n : Nat) : OfLimit (.tooManyLeaves n)

/-- Wider limits accept what narrower ones do. -/
theorem ofJson_ok_within (h : l.Within l') (hf : Filter.ofJson l text = .ok f) :
    Filter.ofJson l' text = .ok f := by
  obtain ⟨hsize, ⟨d, hd, hf⟩, hdepth, hleaves⟩ := ofJson_eq_ok_iff.1 hf
  rw [h.strict] at hf
  exact ofJson_eq_ok_iff.2 ⟨Nat.le_trans hsize h.bytes, ⟨d, hd, hf⟩, Nat.le_trans hdepth h.depth,
    Nat.le_trans hleaves h.leaves⟩

/-- Wider limits do not mend what was not a matter of limits. -/
theorem ofJson_error_within (h : l.Within l') (he : Filter.ofJson l text = .error e)
    (hlimit : ¬e.OfLimit) : Filter.ofJson l' text = .error e := by
  cases refused_of_ofJson he with
  | tooLarge => exact absurd (.jsonTooLarge _) hlimit
  | notJson hsize hp => exact ofJson_of_refused (.notJson (Nat.le_trans hsize h.bytes) hp)
  | notFilter hsize hd hf =>
    rw [h.strict] at hf
    exact ofJson_of_refused (.notFilter (Nat.le_trans hsize h.bytes) hd hf)
  | tooDeep => exact absurd (.tooDeep _) hlimit
  | tooManyLeaves => exact absurd (.tooManyLeaves _) hlimit

/-- **Limits are exact.** A text is read just when it has no more bytes than are allowed, it
describes a filter, and the filter is no deeper and has no more leaves than are allowed. A text
that is too large is refused for that, whatever it says, and a filter that is too deep for that,
however many leaves it has. Every other refusal has its reason in the order of `Refused`. Under
wider limits, what has been read is read again, and a refusal that was not about a limit
stays the same. -/
theorem ofJson_exact (l : Limits) (text : String) :
    (∀ f, Filter.ofJson l text = .ok f ↔
      text.utf8ByteSize ≤ l.maxJsonBytes ∧
      (∃ d, Descriptor.ofJson text = .ok d ∧ d.tree l.strictNodes = .ok f) ∧
      f.depth ≤ l.maxDepth ∧ f.leaves.length ≤ l.maxLeaves) ∧
    (∀ e, Filter.ofJson l text = .error e ↔ Refused l text e) ∧
    (l.maxJsonBytes < text.utf8ByteSize →
      Filter.ofJson l text = .error (.jsonTooLarge l.maxJsonBytes)) ∧
    (∀ d f, text.utf8ByteSize ≤ l.maxJsonBytes → Descriptor.ofJson text = .ok d →
      d.tree l.strictNodes = .ok f → l.maxDepth < f.depth →
        Filter.ofJson l text = .error (.tooDeep l.maxDepth)) ∧
    ∀ l', l.Within l' →
      (∀ f, Filter.ofJson l text = .ok f → Filter.ofJson l' text = .ok f) ∧
      ∀ e, Filter.ofJson l text = .error e → ¬e.OfLimit → Filter.ofJson l' text = .error e :=
  ⟨fun _ => ofJson_eq_ok_iff, fun _ => ofJson_eq_error_iff,
    fun hsize => ofJson_of_refused (.tooLarge hsize),
    fun _ _ hsize hd hf hdepth => ofJson_of_refused (.tooDeep hsize hd hf hdepth),
    fun _ h => ⟨fun _ => ofJson_ok_within h, fun _ => ofJson_error_within h⟩⟩

/-- A limit counts bytes and is met exactly: a text of fewer characters than bytes. -/
theorem ofJson_exact_bytes :
    let text := "\x7b\"field\":\"é\",\"operator\":\"isnull\"\x7d"
    let limit := fun n => ({ maxJsonBytes := n, maxDepth := 1, maxLeaves := 1 } : Limits)
    text.length = 33 ∧ text.utf8ByteSize = 34 ∧
      Filter.ofJson (limit 33) text = .error (.jsonTooLarge 33) ∧
      ∃ f, Filter.ofJson (limit 34) text = .ok f ∧ Filter.ofJson {} text = .ok f := by
  intro text limit
  have hread : (Filter.ofJson (limit 34) text).isOk = true := by decide +kernel
  cases hf : Filter.ofJson (limit 34) text with
  | error e =>
    rw [hf] at hread
    cases hread
  | ok f =>
    obtain ⟨-, -, hlarge, -, -⟩ := ofJson_exact (limit 33) text
    obtain ⟨-, -, -, -, hwider⟩ := ofJson_exact (limit 34) text
    exact ⟨by decide +kernel, by decide +kernel, hlarge (by decide +kernel), f, rfl,
      (hwider {} ⟨by decide, by decide, by decide, rfl⟩).1 f hf⟩

end Criteria
