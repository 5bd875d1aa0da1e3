import Criteria.Proofs.Settings.Layers
import Criteria.Settings.Source

/-! One source of settings.

Which file is read is decided before anything is read: the caller's, else that of the environment,
else the usual one if it is there, else none (`Chosen`). What the settings are then depends on the
content of this file alone (`Holds`) and on the two variables for limits. If the file is not there,
or is no settings file (`Unusable`), that is the end of it: no other file and no default takes its
place (`load_one_source`). -/
namespace Criteria.Settings

variable {files files' : String → Option Entry} {env env' : String → Option String}
  {path path' choice : Option String} {file : File} {e : Error}

/-! ### The choice -/

/-- The path of the file to read, if there is any to read. -/
inductive Chosen (files : String → Option Entry) (env : String → Option String) :
    Option String → Option String → Prop
  | caller (p : String) : Chosen files env (some p) (some p)
  | environment {p : String} : env fileVariable = some p → Chosen files env none (some p)
  | usual : env fileVariable = none → files usualFile ≠ none →
      Chosen files env none (some usualFile)
  | nothing : env fileVariable = none → files usualFile = none → Chosen files env none none

/-- The relation says what the function does. -/
theorem chosen_iff : Chosen files env path choice ↔ choose files env path = choice := by
  constructor
  · intro h
    cases h with
    | caller p => rfl
    | environment hp => simp only [choose, Option.none_or, hp]
    | usual hnone hfile =>
      have hsome := Option.isSome_iff_ne_none.2 hfile
      simp only [choose, Option.none_or, hnone, hsome, if_true]
    | nothing hnone hfile => simp [choose, hnone, hfile]
  · intro h
    cases path with
    | some p =>
      cases h
      exact .caller p
    | none =>
      simp only [choose, Option.none_or] at h
      split at h
      next p hp =>
        cases h
        exact .environment hp
      next hnone =>
        split at h
        next hfile =>
          cases h
          exact .usual hnone (Option.isSome_iff_ne_none.1 hfile)
        next hfile =>
          cases h
          exact .nothing hnone (Option.not_isSome_iff_eq_none.1 hfile)

/-! ### What it leads to -/

/-- What is to be resolved: the content of the file, or nothing but defaults without a file. -/
inductive Holds (files : String → Option Entry) : Option String → File → Prop
  | nothing : Holds files none {}
  | file {p text : String} {file : File} : files p = some (.file text) →
      File.ofJson text = .ok file → Holds files (some p) file

/-- Why there is nothing to resolve. -/
inductive Unusable (files : String → Option Entry) : Option String → Error → Prop
  | missing {p : String} : files p = none → Unusable files (some p) (.notFound p)
  | directory {p : String} : files p = some .directory → Unusable files (some p) (.directory p)
  | unparsed {p text : String} {problem : Json.Problem} : files p = some (.file text) →
      File.ofJson text = .error problem → Unusable files (some p) (.unparsed p problem)

/-- A choice gives a file to resolve, or an error. -/
theorem holds_or_unusable (files : String → Option Entry) (choice : Option String) :
    (∃ file, Holds files choice file) ∨ ∃ e, Unusable files choice e := by
  cases choice with
  | none => exact .inl ⟨{}, .nothing⟩
  | some p =>
    match hp : files p with
    | none => exact .inr ⟨_, .missing hp⟩
    | some .directory => exact .inr ⟨_, .directory hp⟩
    | some (.file text) =>
      cases htext : File.ofJson text with
      | ok file => exact .inl ⟨file, .file hp htext⟩
      | error problem => exact .inr ⟨_, .unparsed hp htext⟩

theorem load_of_holds (hchoice : Chosen files env path choice) (h : Holds files choice file) :
    load files env path = resolve file env := by
  rw [load, chosen_iff.1 hchoice]
  cases h with
  | nothing => rfl
  | file hp htext => simp only [fileAt, hp, htext]

theorem load_of_unusable (hchoice : Chosen files env path choice) (h : Unusable files choice e) :
    load files env path = .error e := by
  rw [load, chosen_iff.1 hchoice]
  cases h with
  | missing hp => simp only [fileAt, hp]
  | directory hp => simp only [fileAt, hp]
  | unparsed hp htext => simp only [fileAt, hp, htext]

/-! ### Where nothing else matters -/

theorem Holds.congr (hfiles : ∀ p, choice = some p → files' p = files p)
    (h : Holds files choice file) : Holds files' choice file := by
  cases h with
  | nothing => exact .nothing
  | file hp htext => exact .file ((hfiles _ rfl).trans hp) htext

theorem Unusable.congr (hfiles : ∀ p, choice = some p → files' p = files p)
    (h : Unusable files choice e) : Unusable files' choice e := by
  cases h with
  | missing hp => exact .missing ((hfiles _ rfl).trans hp)
  | directory hp => exact .directory ((hfiles _ rfl).trans hp)
  | unparsed hp htext => exact .unparsed ((hfiles _ rfl).trans hp) htext

/-- Only two variables matter once the file is known. -/
theorem resolve_congr (hdepth : env' depthVariable = env depthVariable)
    (hleaves : env' leavesVariable = env leavesVariable) (file : File) :
    resolve file env' = resolve file env := by
  rw [resolve_eq, resolve_eq, limitFrom_congr hdepth, limitFrom_congr hleaves]

/-- Equal choices of equal files make equal settings. -/
theorem load_congr (hchoice : Chosen files env path choice)
    (hchoice' : Chosen files' env' path' choice)
    (hfiles : ∀ p, choice = some p → files' p = files p)
    (hdepth : env' depthVariable = env depthVariable)
    (hleaves : env' leavesVariable = env leavesVariable) :
    load files' env' path' = load files env path := by
  rcases holds_or_unusable files choice with ⟨file, h⟩ | ⟨e, h⟩
  · rw [load_of_holds hchoice h, load_of_holds hchoice' (h.congr hfiles),
      resolve_congr hdepth hleaves]
  · rw [load_of_unusable hchoice h, load_of_unusable hchoice' (h.congr hfiles)]

/-- **Settings come from one file or from none.** For all files and every environment there is
exactly one choice. If it holds settings, loading is resolving these and nothing else; if it is not
there or is no settings file, loading fails and says so of this path. One of the two is the case.
Other files and variables do not matter: two loads that choose the same path, find the same there
and see the same two limits in the environment give the same result. -/
theorem load_one_source (files : String → Option Entry) (env : String → Option String)
    (path : Option String) :
    (∃! choice, Chosen files env path choice) ∧
    ∀ choice, Chosen files env path choice →
      (∀ file, Holds files choice file → load files env path = resolve file env) ∧
      (∀ e, Unusable files choice e → load files env path = .error e) ∧
      ((∃ file, Holds files choice file) ∨ ∃ e, Unusable files choice e) ∧
      ∀ files' env' path', Chosen files' env' path' choice →
        (∀ p, choice = some p → files' p = files p) →
        env' depthVariable = env depthVariable → env' leavesVariable = env leavesVariable →
        load files' env' path' = load files env path := by
  refine ⟨⟨choose files env path, chosen_iff.2 rfl, fun choice h => (chosen_iff.1 h).symm⟩,
    fun choice hchoice => ⟨fun file => ?_, fun e => ?_, holds_or_unusable files choice,
      fun files' env' path' hchoice' => ?_⟩⟩
  · exact load_of_holds hchoice
  · exact load_of_unusable hchoice
  · exact load_congr hchoice hchoice'

/-- The environment names a file that is not there while the usual one is; with its path from the
caller and nothing else in the environment the answer is the same. The usual file is read when
nothing else is named. -/
theorem load_one_source_missing :
    let text := "\x7b\"limits\":\x7b\"max_depth\":4\x7d\x7d"
    let files := fun path => if path = usualFile then some (Entry.file text) else none
    let named := fun name => if name = fileVariable then some "mine.json" else none
    let bare := fun name => if name = leavesVariable then some "9" else none
    load files named none = .error (.notFound "mine.json") ∧
      load (fun _ => none) (fun _ => none) (some "mine.json") = load files named none ∧
      ∃ file, File.ofJson text = .ok file ∧ load files bare none = resolve file bare ∧
        resolve file bare = .ok { default with limits := { maxDepth := 4, maxLeaves := 9 } } := by
  intro text files named bare
  have hnamed : Chosen files named none (some "mine.json") := .environment rfl
  have husual : Chosen files bare none (some usualFile) := .usual rfl nofun
  obtain ⟨-, hload⟩ := load_one_source files named none
  obtain ⟨-, hfails, -, hsame⟩ := hload _ hnamed
  have hread : (File.ofJson text).toOption.map (fun file => (resolve file bare).toOption) =
      some (some { default with limits := { maxDepth := 4, maxLeaves := 9 } }) := by decide +kernel
  obtain ⟨file, hfile, hs⟩ := Option.map_eq_some_iff.1 hread
  have hfile := toOption_eq_some_iff.1 hfile
  refine ⟨hfails _ (.missing rfl), hsame _ _ _ (.caller "mine.json") (fun p hp => ?_) rfl rfl,
    file, hfile, ?_, toOption_eq_some_iff.1 hs⟩
  · cases hp
    rfl
  · obtain ⟨-, hload⟩ := load_one_source files bare none
    exact (hload _ husual).1 file (.file rfl hfile)

end Criteria.Settings
