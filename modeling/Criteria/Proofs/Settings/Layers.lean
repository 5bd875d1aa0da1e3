import Criteria.Proofs.Number.Integers
import Criteria.Settings

/-! Settings in layers.

A setting comes from the first source that gives it: for the two limits on trees the
environment, then the file, then the defaults (`Layered`). What comes out is judged as a
whole, wherever its parts come from (`Valid`). Settings are resolved just when every source
can be read and the result is valid, and then to that result; of the environment no more
counts than the two variables (`resolve_layered`). -/
namespace Criteria.Settings

open Text

variable {file : File} {env env' : String → Option String} {s t : Settings}

/-! ### What the sources say -/

/-- What the environment gives for a limit, if anything. White space around it does not count. -/
inductive Overrides (env : String → Option String) (name : String) : Option Nat → Prop
  | unset : env name = none → Overrides env name none
  | set {text : String} {n : Nat} : env name = some text → IsCount (trim text.toList) n →
      Overrides env name (some n)

/-- What a file gives as the separator of groups. -/
inductive GroupText : Option String → Option Char → Prop
  | absent : GroupText none default.locale.group
  | empty : GroupText (some "") none
  | single (c : Char) : GroupText (some c.toString) (some c)

/-- From the first source that gives something. -/
def firstGiven {α : Type} (fallback : α) : List (Option α) → α
  | [] => fallback
  | some a :: _ => a
  | none :: sources => firstGiven fallback sources

/-- The settings that the sources add up to. -/
structure Layered (file : File) (env : String → Option String) (s : Settings) : Prop where
  maxJsonBytes : s.limits.maxJsonBytes =
    firstGiven default.limits.maxJsonBytes [file.limits.bind (·.maxJsonBytes)]
  maxDepth : ∃ o, Overrides env depthVariable o ∧ s.limits.maxDepth =
    firstGiven default.limits.maxDepth [o, file.limits.bind (·.maxDepth)]
  maxLeaves : ∃ o, Overrides env leavesVariable o ∧ s.limits.maxLeaves =
    firstGiven default.limits.maxLeaves [o, file.limits.bind (·.maxLeaves)]
  strictNodes : s.limits.strictNodes =
    firstGiven default.limits.strictNodes [file.limits.bind (·.strictNodes)]
  decimal : s.locale.decimal =
    firstGiven default.locale.decimal [file.locale.bind (·.decimal)]
  group : GroupText (file.locale.bind (·.group)) s.locale.group
  datetimeLayouts : s.locale.datetimeLayouts =
    firstGiven default.locale.datetimeLayouts [file.locale.bind (·.datetimeLayouts)]
  dateLayouts : s.locale.dateLayouts =
    firstGiven default.locale.dateLayouts [file.locale.bind (·.dateLayouts)]

/-- Settings that can be worked with. -/
structure Valid (s : Settings) : Prop where
  maxJsonBytes : 0 < s.limits.maxJsonBytes
  maxDepth : 0 < s.limits.maxDepth
  maxLeaves : 0 < s.limits.maxLeaves
  separators : s.locale.group ≠ some s.locale.decimal

/-! ### How they are read -/

/-- A variable overrides when its text is a number, and does not when it is not set. -/
theorem limitFrom_eq_ok_iff {name : String} {o : Option Nat} :
    limitFrom env name = .ok o ↔ Overrides env name o := by
  unfold limitFrom
  cases henv : env name with
  | none =>
    constructor
    · intro h
      cases h
      exact .unset henv
    · intro h
      cases h with
      | unset => rfl
      | set htext => cases henv.symm.trans htext
  | some text =>
    constructor
    · intro h
      dsimp only at h
      split at h
      next n hn =>
        cases h
        exact .set henv (readUnsigned_eq_ok_iff.1 hn)
      next => cases h
    · intro h
      cases h with
      | unset hnone => cases henv.symm.trans hnone
      | set htext hn =>
        cases henv.symm.trans htext
        simp only [readUnsigned_eq_ok_iff.2 hn]

theorem groupOf_eq_ok_iff {text : Option String} {group : Option Char} :
    groupOf text = .ok group ↔ GroupText text group := by
  constructor
  · intro h
    unfold groupOf at h
    split at h
    next =>
      cases h
      exact .absent
    next text =>
      split at h
      next htext =>
        cases h
        rw [String.toList_eq_nil_iff.1 htext]
        exact .empty
      next c htext =>
        cases h
        rw [← String.ofList_toList (s := text), htext]
        exact .single c
      next => cases h
  · intro h
    cases h with
    | absent => rfl
    | empty => rfl
    | single c => simp [groupOf]

/-- Settings pass just when they are valid, and pass unchanged. -/
theorem check_eq_ok_iff : check s = .ok t ↔ s = t ∧ t.Valid := by
  unfold check
  constructor
  · intro h
    split at h
    · cases h
    next hbytes =>
      split at h
      · cases h
      next hdepth =>
        split at h
        · cases h
        next hleaves =>
          split at h
          · cases h
          next hseparators =>
            cases h
            exact ⟨rfl, Nat.pos_of_ne_zero hbytes, Nat.pos_of_ne_zero hdepth,
              Nat.pos_of_ne_zero hleaves, hseparators⟩
  · intro h
    obtain ⟨rfl, hbytes, hdepth, hleaves, hseparators⟩ := h
    rw [if_neg (Nat.ne_of_gt hbytes), if_neg (Nat.ne_of_gt hdepth), if_neg (Nat.ne_of_gt hleaves),
      if_neg hseparators]

/-! ### Resolution -/

theorem firstGiven_one {α : Type} (fallback : α) (o : Option α) :
    firstGiven fallback [o] = o.getD fallback := by
  cases o <;> rfl

theorem firstGiven_two {α : Type} (fallback : α) (o o' : Option α) :
    firstGiven fallback [o, o'] = (o.or o').getD fallback := by
  cases o with
  | none => exact firstGiven_one fallback o'
  | some a => rfl

/-- A section that is not there gives nothing. -/
theorem bind_section {α σ : Type} {f : σ → Option α} {empty : σ} (h : f empty = none)
    (given : Option σ) : given.bind f = f (given.getD empty) := by
  cases given with
  | none => exact h.symm
  | some section? => rfl

/-- The settings before they are judged, when the texts among the sources have been read. -/
def merged (file : File) (depth leaves : Option Nat) (group : Option Char) : Settings where
  limits :=
    { maxJsonBytes := (file.limits.getD {}).maxJsonBytes.getD default.limits.maxJsonBytes
      maxDepth := (depth.or (file.limits.getD {}).maxDepth).getD default.limits.maxDepth
      maxLeaves := (leaves.or (file.limits.getD {}).maxLeaves).getD default.limits.maxLeaves
      strictNodes := (file.limits.getD {}).strictNodes.getD default.limits.strictNodes }
  locale :=
    { decimal := (file.locale.getD {}).decimal.getD default.locale.decimal
      group
      datetimeLayouts := (file.locale.getD {}).datetimeLayouts.getD default.locale.datetimeLayouts
      dateLayouts := (file.locale.getD {}).dateLayouts.getD default.locale.dateLayouts }

theorem resolve_eq (file : File) (env : String → Option String) : resolve file env = (do
    let depth ← limitFrom env depthVariable
    let leaves ← limitFrom env leavesVariable
    let group ← groupOf (file.locale.getD {}).group
    check (merged file depth leaves group)) := rfl

/-- Settings that are layered are what is merged from the parts. -/
theorem layered_iff : Layered file env s ↔ ∃ depth leaves,
    Overrides env depthVariable depth ∧ Overrides env leavesVariable leaves ∧
      GroupText (file.locale.getD {}).group s.locale.group ∧
        s = merged file depth leaves s.locale.group := by
  have hlimits : ∀ {α : Type} {f : LimitsSection → Option α}, f {} = none →
      file.limits.bind f = f (file.limits.getD {}) := fun h => bind_section h _
  have hlocale : ∀ {α : Type} {f : LocaleSection → Option α}, f {} = none →
      file.locale.bind f = f (file.locale.getD {}) := fun h => bind_section h _
  constructor
  · intro h
    obtain ⟨hbytes, ⟨depth, hdepth, hmaxDepth⟩, ⟨leaves, hleaves, hmaxLeaves⟩, hstrict, hdecimal,
      hgroup, hdatetime, hdate⟩ := h
    rw [firstGiven_one, hlimits rfl] at hbytes hstrict
    rw [firstGiven_two, hlimits rfl] at hmaxDepth hmaxLeaves
    rw [firstGiven_one, hlocale rfl] at hdecimal hdatetime hdate
    rw [hlocale rfl] at hgroup
    refine ⟨depth, leaves, hdepth, hleaves, hgroup, ?_⟩
    rw [merged, ← hbytes, ← hmaxDepth, ← hmaxLeaves, ← hstrict, ← hdecimal, ← hdatetime, ← hdate]
  · intro h
    obtain ⟨depth, leaves, hdepth, hleaves, hgroup, hs⟩ := h
    rw [← hlocale (f := (·.group)) rfl] at hgroup
    rw [hs]
    refine ⟨?_, ⟨depth, hdepth, ?_⟩, ⟨leaves, hleaves, ?_⟩, ?_, ?_, hgroup, ?_, ?_⟩
    · rw [firstGiven_one, hlimits rfl, merged]
    · rw [firstGiven_two, hlimits rfl, merged]
    · rw [firstGiven_two, hlimits rfl, merged]
    · rw [firstGiven_one, hlimits rfl, merged]
    · rw [firstGiven_one, hlocale rfl, merged]
    · rw [firstGiven_one, hlocale rfl, merged]
    · rw [firstGiven_one, hlocale rfl, merged]

/-- What is resolved is layered and valid, and everything layered and valid is resolved. -/
theorem resolve_eq_ok_iff : resolve file env = .ok s ↔ Layered file env s ∧ s.Valid := by
  simp only [resolve_eq, bind_eq_ok_iff, limitFrom_eq_ok_iff, groupOf_eq_ok_iff, check_eq_ok_iff,
    layered_iff]
  constructor
  · intro h
    obtain ⟨depth, hdepth, leaves, hleaves, group, hgroup, rfl, hvalid⟩ := h
    exact ⟨⟨depth, leaves, hdepth, hleaves, hgroup, rfl⟩, hvalid⟩
  · intro h
    obtain ⟨⟨depth, leaves, hdepth, hleaves, hgroup, hs⟩, hvalid⟩ := h
    exact ⟨depth, hdepth, leaves, hleaves, s.locale.group, hgroup, hs.symm, hvalid⟩

theorem limitFrom_congr {name : String} (h : env' name = env name) :
    limitFrom env' name = limitFrom env name := by
  rw [limitFrom, limitFrom, h]

/-- The file with something else for a limit. -/
def File.withDepth (file : File) (depth : Option Nat) : File :=
  { file with limits := some { file.limits.getD {} with maxDepth := depth } }

/-- The file with another limit on the number of leaves. -/
def File.withLeaves (file : File) (leaves : Option Nat) : File :=
  { file with limits := some { file.limits.getD {} with maxLeaves := leaves } }

/-- **Settings come in layers, and what they add up to is judged.** A file and an environment
resolve to `s` just when `s` is what the sources add up to, the first of them that gives a setting
deciding, and `s` is valid. Nothing of the environment but the two variables matters. A limit that
the environment gives hides that of the file, a zero too. A file that makes the usual separator of
groups the decimal one, and says nothing of groups, resolves to nothing. -/
theorem resolve_layered (file : File) (env : String → Option String) :
    (∀ s, resolve file env = .ok s ↔ Layered file env s ∧ s.Valid) ∧
    (∀ env' : String → Option String, env' depthVariable = env depthVariable →
      env' leavesVariable = env leavesVariable → resolve file env' = resolve file env) ∧
    (∀ n given, Overrides env depthVariable (some n) →
      resolve (file.withDepth given) env = resolve file env) ∧
    (∀ n given, Overrides env leavesVariable (some n) →
      resolve (file.withLeaves given) env = resolve file env) ∧
    ∀ c, default.locale.group = some c → file.locale.bind (·.decimal) = some c →
      file.locale.bind (·.group) = none → ∀ s, resolve file env ≠ .ok s := by
  refine ⟨fun s => resolve_eq_ok_iff, fun env' hdepth hleaves => ?_, fun n given h => ?_,
    fun n given h => ?_, fun c hc hdecimal hgroup s h => ?_⟩
  · rw [resolve_eq, resolve_eq, limitFrom_congr hdepth, limitFrom_congr hleaves]
  · rw [resolve_eq, resolve_eq, limitFrom_eq_ok_iff.2 h]
    rfl
  · rw [resolve_eq, resolve_eq, limitFrom_eq_ok_iff.2 h]
    rfl
  · obtain ⟨hlayered, hvalid⟩ := resolve_eq_ok_iff.1 h
    have hsame := hlayered.group
    rw [hgroup] at hsame
    refine hvalid.separators ?_
    rw [hlayered.decimal, hdecimal]
    generalize hg : s.locale.group = g at hsame
    cases hsame
    exact hc

/-- The environment hides a zero of the file. -/
example : resolve { limits := some { maxDepth := some 0 } }
    (fun name => if name = depthVariable then some " +8 " else none) =
      .ok { default with limits := { maxDepth := 8 } } := rfl

end Criteria.Settings
