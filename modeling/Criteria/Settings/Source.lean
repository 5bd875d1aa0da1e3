import Criteria.Settings.Reader

/-! Where settings come from.

One file at most is read: the one that the caller names, else the one that the
environment names, else the usual one in the working directory if it is there. A file
that has been named must be there and must be good; no other takes its place.

As in `Settings.resolve`, a variable of the environment whose value is not Unicode counts as
not set. Such a value names no file, not even one that is missing, and the usual file is
read as if the variable were not there. -/
namespace Criteria

/-- What stands at a path. -/
inductive Entry
  | file (text : String)
  | directory

/-- The files and directories below a working directory, by their paths from it. -/
structure Directory where
  entries : List (String × Entry)

namespace Directory

/-- Where a path has led so far. -/
inductive Place
  | outside
  | inside (names : List String)

/-- A directory need not be listed when something in it is. -/
def at? (d : Directory) (names : List String) : Option Entry :=
  let path := "/".intercalate names
  if names = [] ∨ d.entries.any (fun e => e.1.startsWith (path ++ "/")) then some .directory
  else (d.entries.find? (·.1 == path)).map (·.2)

/-- What stands at a place. Outside there are only directories. -/
def Place.entry? (d : Directory) : Place → Option Entry
  | .outside => some .directory
  | .inside names => d.at? names

/-- One step of a path from a place that is a directory. Of what lies outside no name
is known. -/
def Place.step? : Place → String → Option Place
  | p, "" => some p
  | p, "." => some p
  | .inside (name :: names), ".." => some (.inside (name :: names).dropLast)
  | _, ".." => some .outside
  | .inside names, name => some (.inside (names ++ [name]))
  | .outside, _ => none

/-- What the rest of a path leads to. Only directories lead on. -/
def follow (d : Directory) (p : Place) : List String → Option Entry
  | [] => p.entry? d
  | name :: rest => match p.entry? d with
    | some .directory => (p.step? name).bind fun q => d.follow q rest
    | _ => none

/-- What a path leads to. The empty path leads nowhere. -/
def entry? (d : Directory) (path : String) : Option Entry :=
  if path = "" then none
  else d.follow (if path.toList.head? = some '/' then .outside else .inside []) (path.splitOn "/")

end Directory

namespace Settings

def fileVariable : String := "GRIDFILTER_CONFIG"
def usualFile : String := "gridfilter.json"

/-- The file at a path, which must be there and must be one. -/
def fileAt (files : String → Option Entry) (path : String) : Except Error File :=
  match files path with
  | none => .error (.notFound path)
  | some .directory => .error (.directory path)
  | some (.file text) => match File.ofJson text with
    | .ok f => .ok f
    | .error p => .error (.unparsed path p)

/-- The path of the file to read, if any. -/
def choose (files : String → Option Entry) (env : String → Option String) (path : Option String) :
    Option String :=
  match path.or (env fileVariable) with
  | some p => some p
  | none => if (files usualFile).isSome then some usualFile else none

/-- The settings of the file that is chosen, under the environment; when there is none, those of
the environment and the defaults. Of a variable that is not set and of one whose value is not
Unicode the environment says the same, `none`. -/
def load (files : String → Option Entry) (env : String → Option String) (path : Option String) :
    Except Error Settings :=
  match choose files env path with
  | none => resolve {} env
  | some p => match fileAt files p with
    | .error e => .error e
    | .ok file => resolve file env

end Settings
end Criteria
