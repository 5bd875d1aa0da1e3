import Criteria.Json.Problem
import Criteria.Limits
import Criteria.Locale

/-! Settings: the limits and the locale to work with.

A `Settings.File` gives any part of them. `resolve` lays it over the defaults, the
environment over that for the two limits on trees, and accepts the result only when
every limit is positive and the separators of the locale differ.

An environment gives the text of each variable that is set. A variable whose value is not
Unicode has no text, and counts as not set. -/
namespace Criteria

/-- The limits and the locale to work with. -/
structure Settings where
  limits : Limits
  locale : Locale
deriving DecidableEq

namespace Settings

/-- What holds where nobody says otherwise. -/
def default : Settings := ⟨{}, .invariant⟩

/-! ### What a file gives -/

/-- The limits that a file gives. -/
structure LimitsSection where
  maxJsonBytes : Option Nat := none
  maxDepth : Option Nat := none
  maxLeaves : Option Nat := none
  strictNodes : Option Bool := none

/-- What a file gives of the locale. An empty text stands for no group separator. -/
structure LocaleSection where
  decimal : Option Char := none
  group : Option String := none
  datetimeLayouts : Option (List String) := none
  dateLayouts : Option (List String) := none

/-- The two sections, and what else the file holds. -/
structure File where
  limits : Option LimitsSection := none
  locale : Option LocaleSection := none
  extra : List (String × Json) := []

/-! ### What can be wrong -/

/-- Why there are no settings. -/
inductive Error
  | notFound (path : String)
  | directory (path : String)
  | unparsed (path : String) (problem : Json.Problem)
  | badVariable (name text : String) (fault : Text.IntegerFault)
  | notPositive (limit : String)
  | longGroup
  | sameSeparators (c : Char)

namespace Error

def message : Error → String
  | notFound path => "Config file not found: " ++ path
  | directory path => "Failed to read config file: " ++ path
  | unparsed path _ => "Failed to parse config file: " ++ path
  | badVariable name text _ => "Invalid value for " ++ name ++ ": " ++ text
  | notPositive limit => "limits." ++ limit ++ " must be greater than 0"
  | longGroup => "locale.group_separator must be a single character"
  | sameSeparators c =>
    "locale.decimal_separator and locale.group_separator must differ (both '" ++ c.toString ++ "')"

/-- What lies behind it, the nearest first. -/
def causes : Error → List String
  | directory _ => ["Is a directory (os error 21)"]
  | unparsed _ problem => [problem.message]
  | badVariable _ _ fault => [fault.message]
  | _ => []

end Error

/-! ### Resolution -/

def depthVariable : String := "GRIDFILTER_MAX_DEPTH"
def leavesVariable : String := "GRIDFILTER_MAX_LEAVES"

/-- A limit given by the environment, none when the variable is not set or has no text. -/
def limitFrom (env : String → Option String) (name : String) : Except Error (Option Nat) :=
  match env name with
  | none => .ok none
  | some s => match Text.readUnsigned (Text.trim s.toList) with
    | .ok n => .ok (some n)
    | .error f => .error (.badVariable name s f)

/-- No group separator at all when the text is empty. -/
def groupOf : Option String → Except Error (Option Char)
  | none => .ok Locale.invariant.group
  | some s => match s.toList with
    | [] => .ok none
    | [c] => .ok (some c)
    | _ => .error .longGroup

/-- Settings that can be worked with, or the first thing that is wrong with them. -/
def check (s : Settings) : Except Error Settings :=
  if s.limits.maxJsonBytes = 0 then .error (.notPositive "max_json_bytes")
  else if s.limits.maxDepth = 0 then .error (.notPositive "max_depth")
  else if s.limits.maxLeaves = 0 then .error (.notPositive "max_leaves")
  else if s.locale.group = some s.locale.decimal then .error (.sameSeparators s.locale.decimal)
  else .ok s

/-- The settings that a file and the environment make together. The environment overrides the
two limits on trees, and the defaults fill what is left. A variable that is no number is
reported before a group separator that is too long, and both before what `check` finds. -/
def resolve (file : File) (env : String → Option String) : Except Error Settings := do
  let limits := file.limits.getD {}
  let locale := file.locale.getD {}
  let depth ← limitFrom env depthVariable
  let leaves ← limitFrom env leavesVariable
  let group ← groupOf locale.group
  check
    { limits :=
        { maxJsonBytes := limits.maxJsonBytes.getD default.limits.maxJsonBytes
          maxDepth := (depth.or limits.maxDepth).getD default.limits.maxDepth
          maxLeaves := (leaves.or limits.maxLeaves).getD default.limits.maxLeaves
          strictNodes := limits.strictNodes.getD default.limits.strictNodes }
      locale :=
        { decimal := locale.decimal.getD default.locale.decimal
          group
          datetimeLayouts := locale.datetimeLayouts.getD default.locale.datetimeLayouts
          dateLayouts := locale.dateLayouts.getD default.locale.dateLayouts } }

end Settings
end Criteria
