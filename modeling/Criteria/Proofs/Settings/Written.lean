import Criteria.Proofs.Settings.Counts
import Criteria.Proofs.Settings.Layers
import Criteria.Proofs.Text.Trimming

/-! Settings written back.

What has been resolved can be written as a file that gives every setting (`written`), and such a
file resolves to the settings that it was written from: nothing is left to the defaults, and what
comes out of a resolution is valid already. An environment that repeats the two limits on trees in
base ten changes nothing (`resolve_written`). Their numbers can be read since no source gives a
number beyond 64 bits (`fits_of_layered`). -/
namespace Criteria.Settings

open Text

variable {file : File} {env : String → Option String} {s : Settings} {text : String} {n : Nat}

/-- A file that gives all there is, and says by an empty text that there are no groups. -/
def written (s : Settings) : File where
  limits := some
    { maxJsonBytes := some s.limits.maxJsonBytes
      maxDepth := some s.limits.maxDepth
      maxLeaves := some s.limits.maxLeaves
      strictNodes := some s.limits.strictNodes }
  locale := some
    { decimal := some s.locale.decimal
      group := some (s.locale.group.elim "" Char.toString)
      datetimeLayouts := some s.locale.datetimeLayouts
      dateLayouts := some s.locale.dateLayouts }

theorem groupText_written (group : Option Char) :
    GroupText (some (group.elim "" Char.toString)) group := by
  cases group with
  | none => exact .empty
  | some c => exact .single c

/-- The settings are what the file adds up to, with an environment that repeats what it gives. -/
theorem layered_written {depth leaves : Option Nat} (hdepth : Overrides env depthVariable depth)
    (hleaves : Overrides env leavesVariable leaves)
    (hdepth' : depth.getD s.limits.maxDepth = s.limits.maxDepth)
    (hleaves' : leaves.getD s.limits.maxLeaves = s.limits.maxLeaves) :
    Layered s.written env s where
  maxJsonBytes := rfl
  maxDepth := by
    refine ⟨depth, hdepth, hdepth'.symm.trans ?_⟩
    cases depth <;> rfl
  maxLeaves := by
    refine ⟨leaves, hleaves, hleaves'.symm.trans ?_⟩
    cases leaves <;> rfl
  strictNodes := rfl
  decimal := rfl
  group := groupText_written s.locale.group
  datetimeLayouts := rfl
  dateLayouts := rfl

/-! ### Limits as texts -/

/-- The number in base ten, with any white space around it. -/
def Shows (text : String) (n : Nat) : Prop :=
  ∃ before behind, allBlank before = true ∧ allBlank behind = true ∧
    text.toList = before ++ (digits n ++ behind)

theorem Shows.count (h : Shows text n) (hn : n < 2 ^ 64) : IsCount (trim text.toList) n := by
  obtain ⟨before, behind, hbefore, hbehind, htext⟩ := h
  have hdigits : trim (digits n) = digits n :=
    Locale.trim_numeric fun c hc => .inl (isDigit_of_mem_digits hc)
  rw [htext, trim_around hbefore hbehind, hdigits]
  exact ⟨digits n, .inl rfl, digits_ne_nil n, allDigits_digits n, ofDigits_digits n, hn⟩

/-- An environment that says nothing of a limit, or `n` itself. -/
theorem exists_overrides {name : String} (hn : n < 2 ^ 64)
    (h : ∀ text, env name = some text → Shows text n) :
    ∃ o : Option Nat, Overrides env name o ∧ o.getD n = n := by
  cases htext : env name with
  | none => exact ⟨none, .unset htext, rfl⟩
  | some text => exact ⟨some n, .set htext ((h text htext).count hn), rfl⟩

/-! ### Limits that fit -/

theorem Overrides.lt {name : String} {o : Option Nat} (h : Overrides env name o) : Fits o := by
  intro n hn
  cases h with
  | unset => cases hn
  | set _ hcount =>
    cases hn
    obtain ⟨-, -, -, -, -, hlt⟩ := hcount
    exact hlt

theorem lt_firstGiven {fallback : Nat} {sources : List (Option Nat)} (h : ∀ o ∈ sources, Fits o)
    (hfallback : fallback < 2 ^ 64) : firstGiven fallback sources < 2 ^ 64 := by
  induction sources with
  | nil => exact hfallback
  | cons o sources ih =>
    cases o with
    | none => exact ih fun o ho => h o (List.mem_cons_of_mem _ ho)
    | some n => exact h (some n) List.mem_cons_self n rfl

theorem File.Sized.fits (h : file.Sized) {f : LimitsSection → Option Nat}
    (hf : ∀ l : LimitsSection, l.Sized → Fits (f l)) : Fits (file.limits.bind f) := by
  intro n hn
  obtain ⟨l, hl, hn⟩ := Option.bind_eq_some_iff.1 hn
  exact hf l (h l hl) n hn

/-- The limits on trees of what has been resolved. -/
theorem fits_of_layered (h : Layered file env s) (hfile : file.Sized) :
    s.limits.maxDepth < 2 ^ 64 ∧ s.limits.maxLeaves < 2 ^ 64 := by
  obtain ⟨depth, hdepth, hmaxDepth⟩ := h.maxDepth
  obtain ⟨leaves, hleaves, hmaxLeaves⟩ := h.maxLeaves
  have hsources : ∀ {o o' : Option Nat}, Fits o → Fits o' → ∀ p ∈ [o, o'], Fits p := by
    intro o o' ho ho' p hp
    rcases List.mem_pair.1 hp with rfl | rfl
    · exact ho
    · exact ho'
  rw [hmaxDepth, hmaxLeaves]
  exact ⟨lt_firstGiven (hsources hdepth.lt (hfile.fits fun l hl => hl.maxDepth)) (by decide),
    lt_firstGiven (hsources hleaves.lt (hfile.fits fun l hl => hl.maxLeaves)) (by decide)⟩

/-- **What has been resolved resolves to itself.** Settings that come out of a resolution come out
again when they are written as a file, whatever the file and the environment were, as long as the
new environment says nothing of the two limits. It may also repeat them, each or both, in base ten
and with any white space around, when no limit of the file was beyond 64 bits; and in a file that
has been read none is. -/
theorem resolve_written (hs : resolve file env = .ok s) :
    (∀ env' : String → Option String, env' depthVariable = none → env' leavesVariable = none →
      resolve s.written env' = .ok s) ∧
    (file.Sized → ∀ env' : String → Option String,
      (∀ text, env' depthVariable = some text → Shows text s.limits.maxDepth) →
      (∀ text, env' leavesVariable = some text → Shows text s.limits.maxLeaves) →
      resolve s.written env' = .ok s) ∧
    ∀ text, File.ofJson text = .ok file → file.Sized := by
  obtain ⟨hlayered, hvalid⟩ := resolve_eq_ok_iff.1 hs
  refine ⟨fun env' hdepth hleaves => ?_, fun hfile env' hdepth hleaves => ?_,
    fun text => File.sized_of_ofJson⟩
  · have hagain := layered_written (s := s) (.unset hdepth) (.unset hleaves) rfl rfl
    exact resolve_eq_ok_iff.2 ⟨hagain, hvalid⟩
  · obtain ⟨hmaxDepth, hmaxLeaves⟩ := fits_of_layered hlayered hfile
    obtain ⟨depth, hdepth, hdepth'⟩ := exists_overrides hmaxDepth hdepth
    obtain ⟨leaves, hleaves, hleaves'⟩ := exists_overrides hmaxLeaves hleaves
    exact resolve_eq_ok_iff.2 ⟨layered_written hdepth hleaves hdepth' hleaves', hvalid⟩

/-- The largest depth there is, no groups, and other spellings of both limits. -/
theorem resolve_written_largest :
    let text := "\x7b\"limits\":\x7b\"max_depth\":18446744073709551615\x7d," ++
      "\"locale\":[\",\",\"\",null,[]]\x7d"
    let env := fun name => if name = leavesVariable then some "+07" else none
    let env' := fun name =>
      if name = depthVariable then some "\t18446744073709551615\n"
      else if name = leavesVariable then some "\u30007" else none
    ∃ file s, File.ofJson text = .ok file ∧ resolve file env = .ok s ∧
      s.limits.maxDepth = 2 ^ 64 - 1 ∧ s.limits.maxLeaves = 7 ∧ s.locale.group = none ∧
      resolve s.written (fun _ => none) = .ok s ∧ resolve s.written env' = .ok s := by
  intro text env env'
  let limits : Limits := { maxDepth := 2 ^ 64 - 1, maxLeaves := 7 }
  let s : Settings := ⟨limits, ⟨',', none, Locale.invariant.datetimeLayouts, []⟩⟩
  have hread : (File.ofJson text).toOption.map (fun file => (resolve file env).toOption) =
      some (some s) := by decide +kernel
  obtain ⟨file, hfile, hs⟩ := Option.map_eq_some_iff.1 hread
  have hfile := toOption_eq_some_iff.1 hfile
  have hs := toOption_eq_some_iff.1 hs
  obtain ⟨hunset, hrepeated, hsized⟩ := resolve_written hs
  refine ⟨file, s, hfile, hs, rfl, rfl, rfl, hunset _ rfl rfl,
    hrepeated (hsized text hfile) env' (fun given hgiven => ?_) fun given hgiven => ?_⟩
  · cases hgiven
    exact ⟨['\t'], ['\n'], by decide, by decide, by decide +kernel⟩
  · cases hgiven
    exact ⟨['\u3000'], [], by decide, by decide, by decide +kernel⟩

end Criteria.Settings
