import Criteria.Proofs.Json.Taken
import Criteria.Settings.Reader

/-! Counts in a settings file.

A natural number of a JSON text is kept only while its digits fit 64 bits (`lt_of_value`); any other
number is read as a floating-point number, and that is no count. So every limit that a file gives is
below 2 ^ 64 (`sized_of_ofJson`), in either spelling of its section. -/
namespace Criteria

open Json Json.Reader Text

variable {s r : List Char} {n : Nat}

/-! ### Numbers -/

namespace Json

theorem lt_of_foldl_whole {ds : List Char} {p : Significand} (h : p.value < 2 ^ 64) :
    (ds.foldl Significand.whole p).value < 2 ^ 64 := by
  induction ds generalizing p with
  | nil => exact h
  | cons c ds ih =>
    refine ih ?_
    simp only [Significand.whole, Bool.or_eq_true, decide_eq_true_eq]
    split
    · exact h
    next hfits =>
      rw [not_or, Nat.not_le] at hfits
      exact hfits.2

theorem lt_of_value {m : Numeral} (h : m.value = some (.natural n)) : n < 2 ^ 64 := by
  have hfloat : ∀ o : Option Binary64, o.map Number.float ≠ some (.natural n) := by
    intro o
    cases o <;> nofun
  unfold Numeral.value at h
  dsimp only at h
  split at h
  · exact absurd h (hfloat _)
  split at h
  · cases h
    exact lt_of_foldl_whole (Nat.two_pow_pos 64)
  split at h
  · exact absurd h (hfloat _)
  · cases h

namespace Reader

theorem lt_of_number {negative : Bool} (h : Takes (number negative) s (.natural n) r) :
    n < 2 ^ 64 := by
  obtain ⟨m, t, -, h⟩ := takes_bind_iff.1 h
  split at h
  next v hv =>
    obtain ⟨rfl, -⟩ := takes_pure_iff.1 h
    exact lt_of_value hv
  · exact absurd h not_takes_fail

theorem lt_of_startAfter {c : Char} (h : Takes (startAfter c) s (.number (.natural n)) r) :
    n < 2 ^ 64 := by
  unfold startAfter at h
  split at h
  case h_4 =>
    obtain ⟨m, t, hnumber, h⟩ := takes_bind_iff.1 h
    obtain ⟨hm, -⟩ := takes_pure_iff.1 h
    cases hm
    exact lt_of_number hnumber
  case h_6 | h_7 => cases (takes_pure_iff.1 h).1
  case h_8 => exact absurd h not_takes_fail
  all_goals
    obtain ⟨_, _, -, h⟩ := takes_bind_iff.1 h
    cases (takes_pure_iff.1 h).1

theorem lt_of_start (h : Takes start s (.number (.natural n)) r) : n < 2 ^ 64 := by
  obtain ⟨_, _, -, h⟩ := takes_bind_iff.1 h
  obtain ⟨c, _, -, h⟩ := takes_bind_iff.1 h
  split at h
  · exact absurd h not_takes_fail
  split at h
  · obtain ⟨m, _, hnumber, h⟩ := takes_bind_iff.1 h
    obtain ⟨hm, -⟩ := takes_pure_iff.1 h
    cases hm
    exact lt_of_number hnumber
  · obtain ⟨_, _, -, h⟩ := takes_bind_iff.1 h
    exact lt_of_startAfter h

theorem lt_of_count (h : Takes count s n r) : n < 2 ^ 64 := by
  obtain ⟨st, t, hstart, h⟩ := takes_bind_iff.1 h
  split at h
  · obtain ⟨rfl, -⟩ := takes_pure_iff.1 h
    exact lt_of_start hstart
  · exact absurd h not_takes_fail
  · exact absurd h not_takes_fail

end Reader
end Json

/-! ### Limits -/

namespace Settings

/-- A count, if it is given, fits 64 bits. -/
def Fits (o : Option Nat) : Prop := ∀ n, o = some n → n < 2 ^ 64

theorem fits_of_optional {o : Option Nat} (h : Takes (optional count) s o r) : Fits o := by
  intro n hn
  rcases optional_cases h with ⟨rfl, -⟩ | ⟨m, rfl, hm⟩
  · cases hn
  · cases hn
    exact lt_of_count hm

namespace LimitsSection

/-- Every limit of a section fits. -/
structure Sized (l : LimitsSection) : Prop where
  maxJsonBytes : Fits l.maxJsonBytes
  maxDepth : Fits l.maxDepth
  maxLeaves : Fits l.maxLeaves

/-- The counts that the members so far have given. -/
structure Draft.Sized (d : Draft) : Prop where
  maxJsonBytes : Fits d.maxJsonBytes.join
  maxDepth : Fits d.maxDepth.join
  maxLeaves : Fits d.maxLeaves.join

theorem fits_of_once {name : String} {seen o : Option (Option Nat)}
    (h : Takes (once name seen (optional count)) s o r) : Fits o.join := by
  obtain ⟨-, a, t, rfl, -, ha⟩ := given_of_once h
  exact fits_of_optional ha

theorem sized_of_member {d d' : Draft} {key : String} (h : Takes (member d key) s d' r)
    (hd : d.Sized) : d'.Sized := by
  obtain ⟨hbytes, hdepth, hleaves⟩ := hd
  unfold member at h
  split at h
  all_goals
    obtain ⟨o, _, ho, h⟩ := takes_bind_iff.1 h
    obtain ⟨rfl, -⟩ := takes_pure_iff.1 h
  · exact ⟨fits_of_once ho, hdepth, hleaves⟩
  · exact ⟨hbytes, fits_of_once ho, hleaves⟩
  · exact ⟨hbytes, hdepth, fits_of_once ho⟩
  · exact ⟨hbytes, hdepth, hleaves⟩
  · exact ⟨hbytes, hdepth, hleaves⟩

theorem sized_of_keyed {l : LimitsSection} (h : Takes keyed s l r) : l.Sized := by
  obtain ⟨d, _, hmembers, h⟩ := takes_bind_iff.1 h
  obtain ⟨rfl, -⟩ := takes_pure_iff.1 h
  obtain ⟨hbytes, hdepth, hleaves⟩ : d.Sized :=
    (membersTaken_of_takes hmembers).preserves (fun _ _ _ _ _ => sized_of_member)
      ⟨nofun, nofun, nofun⟩
  exact ⟨hbytes, hdepth, hleaves⟩

theorem sized_of_positional {l : LimitsSection} (h : Takes positional s l r) : l.Sized := by
  obtain ⟨bytes, _, hbytes, h⟩ := takes_bind_iff.1 h
  obtain ⟨depth, _, hdepth, h⟩ := takes_bind_iff.1 h
  obtain ⟨leaves, _, hleaves, h⟩ := takes_bind_iff.1 h
  obtain ⟨_, _, -, h⟩ := takes_bind_iff.1 h
  obtain ⟨_, _, -, h⟩ := takes_bind_iff.1 h
  obtain ⟨rfl, -⟩ := takes_pure_iff.1 h
  obtain ⟨_, -, hbytes⟩ := element_of_place hbytes
  obtain ⟨_, -, hdepth⟩ := element_of_place hdepth
  obtain ⟨_, -, hleaves⟩ := element_of_place hleaves
  exact ⟨fits_of_optional hbytes, fits_of_optional hdepth, fits_of_optional hleaves⟩

theorem sized_of_reader {l : LimitsSection} (h : Takes reader s l r) : l.Sized := by
  rcases spelling_of_record h with ⟨_, -, h⟩ | ⟨_, -, h⟩
  · exact sized_of_positional h
  · exact sized_of_keyed h

end LimitsSection

/-! ### Files -/

namespace File

/-- All the limits that it gives are counts, of 64 bits. -/
def Sized (file : File) : Prop := ∀ l, file.limits = some l → l.Sized

theorem limits_of_member {d d' : Draft} {key : String} (h : Takes (member d key) s d' r) :
    d'.limits = d.limits ∨
      ∃ o t u, d'.limits = some o ∧ Takes (optional LimitsSection.reader) t o u := by
  unfold member at h
  split at h
  · obtain ⟨o, _, ho, h⟩ := takes_bind_iff.1 h
    obtain ⟨rfl, -⟩ := takes_pure_iff.1 h
    obtain ⟨-, a, t, rfl, -, ha⟩ := given_of_once ho
    exact .inr ⟨a, t, _, rfl, ha⟩
  · obtain ⟨o, _, -, h⟩ := takes_bind_iff.1 h
    obtain ⟨rfl, -⟩ := takes_pure_iff.1 h
    exact .inl rfl
  · obtain ⟨_, _, -, h⟩ := takes_bind_iff.1 h
    obtain ⟨_, _, -, h⟩ := takes_bind_iff.1 h
    obtain ⟨rfl, -⟩ := takes_pure_iff.1 h
    exact .inl rfl

theorem sized_of_reader {file : File} (h : Takes reader s file r) : file.Sized := by
  obtain ⟨st, t, -, h⟩ := takes_bind_iff.1 h
  split at h
  · obtain ⟨d, _, hmembers, h⟩ := takes_bind_iff.1 h
    obtain ⟨rfl, -⟩ := takes_pure_iff.1 h
    refine (membersTaken_of_takes hmembers).preserves
      (P := fun d => ∀ l, d.limits.join = some l → l.Sized) ?_ nofun
    intro d key s d' r h hd l hl
    rcases limits_of_member h with he | ⟨o, t, u, he, ho⟩
    · exact hd l (he ▸ hl)
    · rw [he] at hl
      rcases optional_cases ho with ⟨rfl, -⟩ | ⟨m, rfl, hm⟩
      · cases hl
      · cases hl
        exact LimitsSection.sized_of_reader hm
  · exact absurd h not_takes_fail

/-- The limits of a file that is read fit 64 bits. -/
theorem sized_of_ofJson {text : String} {file : File} (h : ofJson text = .ok file) :
    file.Sized := by
  obtain ⟨r, h⟩ := takes_of_run h
  exact sized_of_reader h

end File
end Settings
end Criteria
