import Criteria.Text.Blank
import Mathlib.Data.List.DropRight

/-! Text without the white space around it.

A text is its trimmed part between two stretches of white space (`exists_around_trim`), and that
part keeps its ends when it is trimmed again (`trim_trim`). More white space around a text makes no
difference (`trim_around`). Only blank characters are lost (`mem_trim_iff`). -/
namespace Criteria.Text

variable {before behind cs : List Char} {c : Char}

theorem trimLeft_trimLeft (cs : List Char) : trimLeft (trimLeft cs) = trimLeft cs :=
  List.dropWhile_idempotent isBlank cs

theorem trimRight_trimRight (cs : List Char) : trimRight (trimRight cs) = trimRight cs :=
  List.rdropWhile_idempotent isBlank cs

/-- White space in front, and no other. -/
theorem exists_before_trimLeft (cs : List Char) :
    ∃ before, allBlank before = true ∧ cs = before ++ trimLeft cs :=
  ⟨cs.takeWhile isBlank, List.all_eq_true.2 fun _ hc => List.mem_takeWhile_imp hc,
    List.takeWhile_append_dropWhile.symm⟩

theorem exists_behind_trimRight (cs : List Char) :
    ∃ behind, allBlank behind = true ∧ cs = trimRight cs ++ behind := by
  obtain ⟨before, hblank, hcs⟩ := exists_before_trimLeft cs.reverse
  refine ⟨before.reverse, by rwa [allBlank, List.all_reverse], ?_⟩
  rw [trimRight, ← List.reverse_append, ← hcs, List.reverse_reverse]

/-- A text that starts with no white space does not when some is taken away behind. -/
theorem trimLeft_trimRight (h : trimLeft cs = cs) : trimLeft (trimRight cs) = trimRight cs := by
  obtain ⟨behind, -, hcs⟩ := exists_behind_trimRight cs
  cases hr : trimRight cs with
  | nil => rfl
  | cons c r =>
    rw [hr, List.cons_append] at hcs
    rw [hcs] at h
    have hc : isBlank c = false := by
      cases hblank : isBlank c with
      | false => rfl
      | true =>
        have hlength := length_trimLeft_le (r ++ behind)
        rw [← trimLeft_cons_blank hblank, h, List.length_cons] at hlength
        omega
    exact trimLeft_cons hc r

/-- Nor does a text that ends in no white space when some is taken away in front. -/
theorem trimRight_trimLeft (h : trimRight cs = cs) : trimRight (trimLeft cs) = trimLeft cs := by
  have hreverse : trimLeft cs.reverse = cs.reverse := by
    rw [← List.reverse_eq_iff]
    exact h
  have hfront := trimLeft_trimRight hreverse
  rw [trimRight, List.reverse_reverse] at hfront
  exact List.reverse_eq_iff.2 hfront

theorem trim_of_allBlank (h : allBlank cs = true) : trim cs = [] := by
  have hleft : trimLeft cs = [] := List.dropWhile_eq_nil_iff.2 (List.all_eq_true.1 h)
  rw [trim, hleft]
  rfl

/-- What is trimmed has nothing left to trim. -/
theorem trim_trim (cs : List Char) : trim (trim cs) = trim cs := by
  rw [trim, trim, trimLeft_trimRight (trimLeft_trimLeft cs), trimRight_trimRight]

/-- A text is its trimmed part with white space around it. -/
theorem exists_around_trim (cs : List Char) : ∃ before behind, allBlank before = true ∧
    allBlank behind = true ∧ cs = before ++ (trim cs ++ behind) := by
  obtain ⟨before, hbefore, hcs⟩ := exists_before_trimLeft cs
  obtain ⟨behind, hbehind, hrest⟩ := exists_behind_trimRight (trimLeft cs)
  exact ⟨before, behind, hbefore, hbehind, by rw [trim, ← hrest, ← hcs]⟩

theorem trimLeft_append (h : allBlank before = true) (cs : List Char) :
    trimLeft (before ++ cs) = trimLeft cs :=
  List.dropWhile_append_of_pos (List.all_eq_true.1 h)

theorem trimRight_append_blank (h : allBlank behind = true) (cs : List Char) :
    trimRight (cs ++ behind) = trimRight cs := by
  have hreverse : allBlank behind.reverse = true := by rwa [allBlank, List.all_reverse]
  rw [trimRight, List.reverse_append, trimLeft_append hreverse, trimRight]

/-- White space around a text does not matter to what is trimmed. -/
theorem trim_around (hbefore : allBlank before = true) (hbehind : allBlank behind = true)
    (cs : List Char) : trim (before ++ (cs ++ behind)) = trim cs := by
  rw [trim, trimLeft_append hbefore]
  cases hcs : trimLeft cs with
  | nil =>
    have hblank : allBlank (cs ++ behind) = true := by
      rw [allBlank, List.all_append, Bool.and_eq_true]
      exact ⟨List.all_eq_true.2 (List.dropWhile_eq_nil_iff.1 hcs), hbehind⟩
    rw [trim, hcs]
    exact trim_of_allBlank hblank
  | cons c r =>
    have hleft : trimLeft (cs ++ behind) = trimLeft cs ++ behind := by
      rw [trimLeft, List.dropWhile_append, if_neg]
      · rfl
      · rw [← trimLeft, hcs]
        exact Bool.false_ne_true
    rw [hleft, trimRight_append_blank hbehind, trim]

theorem allBlank_trim (cs : List Char) : allBlank (trim cs) = allBlank cs := by
  obtain ⟨before, behind, hbefore, hbehind, hcs⟩ := exists_around_trim cs
  conv => rhs; rw [hcs]
  rw [allBlank] at hbefore hbehind
  simp only [allBlank, List.all_append, hbefore, hbehind, Bool.true_and, Bool.and_true]

/-- What is not white space is not lost. -/
theorem mem_trim_iff (hc : isBlank c = false) : c ∈ trim cs ↔ c ∈ cs := by
  obtain ⟨before, behind, hbefore, hbehind, hcs⟩ := exists_around_trim cs
  have hnot : ∀ {ds : List Char}, allBlank ds = true → c ∉ ds := by
    intro ds hds hmem
    exact absurd (List.all_eq_true.1 hds c hmem) (by rw [hc]; exact Bool.false_ne_true)
  conv => rhs; rw [hcs]
  simp only [List.mem_append, hnot hbefore, hnot hbehind, false_or, or_false]

end Criteria.Text
