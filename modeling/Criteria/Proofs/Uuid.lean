import Criteria.Proofs.Number.Localized
import Criteria.Uuid
import Mathlib.Data.List.Basic

/-! Identifiers as they are written.

The text of an identifier is one of the spellings that are read, that in five groups, and
gives the identifier back (`Uuid.read_chars`). -/
namespace Criteria.Uuid

open Text

variable {u : Uuid} {a b c d e : List Char}

/-! ### Digits -/

theorem digit?_hexChar (d : Fin 16) : digit? (hexChar d.val) = some d := by
  rw [digit?, hexValue?_hexChar d.val d.isLt]
  exact dif_pos d.isLt

theorem mapM_digitChars (ds : List (Fin 16)) : (digitChars ds).mapM digit? = some ds := by
  induction ds with
  | nil => rfl
  | cons d ds ih =>
    rw [digitChars, List.map_cons, List.mapM_cons, digit?_hexChar]
    rw [digitChars] at ih
    rw [ih]
    rfl

theorem ofDigits?_digitChars (u : Uuid) : ofDigits? (digitChars u.digits) = some u := by
  rw [ofDigits?, mapM_digitChars]
  exact dif_pos u.length_eq

theorem length_digitChars (u : Uuid) : (digitChars u.digits).length = 32 := by
  rw [digitChars, List.length_map, u.length_eq]

/-- A hyphen is no digit. -/
theorem ofDigits?_hyphen (a b : List Char) : ofDigits? (a ++ '-' :: b) = none := by
  have hnone : (a ++ '-' :: b).mapM digit? = none := by
    induction a with
    | nil => rfl
    | cons c a ih =>
      rw [List.cons_append, List.mapM_cons, ih]
      cases digit? c <;> rfl
  rw [ofDigits?, hnone]
  rfl

/-! ### Groups -/

/-- Groups of the right lengths are read as their digits. -/
theorem ofGroups?_groups (ha : a.length = 8) (hb : b.length = 4) (hc : c.length = 4)
    (hd : d.length = 4) : ofGroups? (a ++ '-' :: b ++ '-' :: c ++ '-' :: d ++ '-' :: e) =
      ofDigits? (a ++ b ++ c ++ d ++ e) := by
  simp [ofGroups?, hyphens, List.getElem?_append, List.drop_append, List.drop_eq_nil_of_le,
    ha, hb, hc, hd]

/-- A UUID is read back from its text. -/
theorem ofGroups?_chars (u : Uuid) : ofGroups? u.chars = some u := by
  have hlength := length_digitChars u
  have hrest : ∀ (cs : List Char) n k, (cs.drop n).take k ++ cs.drop (n + k) = cs.drop n := by
    intro cs n k
    rw [← List.drop_drop, List.take_append_drop]
  rw [chars, ofGroups?_groups, List.append_assoc, List.append_assoc, List.append_assoc,
    hrest _ 16 4, hrest _ 12 4, hrest _ 8 4, List.take_append_drop, ofDigits?_digitChars]
  all_goals
    simp only [List.length_take, List.length_drop, hlength]
    decide

/-- **The text of an identifier is read as that identifier.** -/
theorem read_chars (u : Uuid) : read u.chars = .ok u := by
  have hbare : ofDigits? u.chars = none := by
    simp only [chars, List.append_assoc, List.cons_append]
    exact ofDigits?_hyphen _ _
  rw [read, read?, hbare, ofGroups?_chars]
  rfl

theorem isBlank_hexChar : ∀ n < 16, isBlank (hexChar n) = false := by decide

theorem chars_no_blank (u : Uuid) : ∀ c ∈ u.chars, isBlank c = false := by
  have hdigits : ∀ c ∈ digitChars u.digits, isBlank c = false := by
    intro c hc
    obtain ⟨d, -, rfl⟩ := List.mem_map.1 hc
    exact isBlank_hexChar d.val d.isLt
  have htake : ∀ n k, ∀ c ∈ ((digitChars u.digits).drop n).take k, isBlank c = false :=
    fun n k c hc => hdigits c (List.mem_of_mem_drop (List.mem_of_mem_take hc))
  simp only [chars, List.forall_mem_append, List.forall_mem_cons]
  exact ⟨⟨⟨⟨fun c hc => hdigits c (List.mem_of_mem_take hc), by decide, htake 8 4⟩, by decide,
    htake 12 4⟩, by decide, htake 16 4⟩, by decide, fun c hc => hdigits c (List.mem_of_mem_drop hc)⟩

end Criteria.Uuid
