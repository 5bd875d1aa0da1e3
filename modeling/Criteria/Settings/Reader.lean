import Criteria.Json.Typed
import Criteria.Settings

/-! Settings in JSON.

The file is an object. Its sections may also be arrays of all their fields in order,
and unknown keys inside them are passed over; unknown keys of the file itself are kept
with their values. -/
namespace Criteria.Settings

open Json Json.Reader

/-! ### Limits -/

namespace LimitsSection

/-- The limits while their object is read. -/
structure Draft where
  maxJsonBytes : Option (Option Nat) := none
  maxDepth : Option (Option Nat) := none
  maxLeaves : Option (Option Nat) := none
  strictNodes : Option (Option Bool) := none

/-- What a member of the object adds; members of other names are passed over. -/
def member (d : Draft) (key : String) : Json.Reader Draft :=
  match key with
  | "max_json_bytes" => do
    pure { d with maxJsonBytes := ← once "max_json_bytes" d.maxJsonBytes (optional count) }
  | "max_depth" => do pure { d with maxDepth := ← once "max_depth" d.maxDepth (optional count) }
  | "max_leaves" => do pure { d with maxLeaves := ← once "max_leaves" d.maxLeaves (optional count) }
  | "strict_nodes" => do
    pure { d with strictNodes := ← once "strict_nodes" d.strictNodes (optional flag) }
  | _ => do
    ignored
    pure d

def keyed : Json.Reader LimitsSection := do
  let d ← members member {}
  pure ⟨d.maxJsonBytes.join, d.maxDepth.join, d.maxLeaves.join, d.strictNodes.join⟩

/-- The limits as a list of all of them in order. -/
def positional : Json.Reader LimitsSection := do
  let maxJsonBytes ← place 0 "LimitsFileConfig" 4 (optional count)
  let maxDepth ← place 1 "LimitsFileConfig" 4 (optional count)
  let maxLeaves ← place 2 "LimitsFileConfig" 4 (optional count)
  let strictNodes ← place 3 "LimitsFileConfig" 4 (optional flag)
  closeList
  pure ⟨maxJsonBytes, maxDepth, maxLeaves, strictNodes⟩

def reader : Json.Reader LimitsSection := record "LimitsFileConfig" positional keyed

end LimitsSection

/-! ### Locale -/

namespace LocaleSection

/-- What is said of the locale while its object is read. -/
structure Draft where
  decimal : Option (Option Char) := none
  group : Option (Option String) := none
  datetimeLayouts : Option (Option (List String)) := none
  dateLayouts : Option (Option (List String)) := none

def member (d : Draft) (key : String) : Json.Reader Draft :=
  match key with
  | "decimal_separator" => do
    pure { d with decimal := ← once "decimal_separator" d.decimal (optional character) }
  | "group_separator" => do
    pure { d with group := ← once "group_separator" d.group (optional text) }
  | "datetime_formats" => do
    pure { d with
      datetimeLayouts := ← once "datetime_formats" d.datetimeLayouts (optional (list text)) }
  | "date_formats" => do
    pure { d with dateLayouts := ← once "date_formats" d.dateLayouts (optional (list text)) }
  | _ => do
    ignored
    pure d

def keyed : Json.Reader LocaleSection := do
  let d ← members member {}
  pure ⟨d.decimal.join, d.group.join, d.datetimeLayouts.join, d.dateLayouts.join⟩

/-- The parts of the locale as a list of all of them in order. -/
def positional : Json.Reader LocaleSection := do
  let decimal ← place 0 "LocaleFileConfig" 4 (optional character)
  let group ← place 1 "LocaleFileConfig" 4 (optional text)
  let datetimeLayouts ← place 2 "LocaleFileConfig" 4 (optional (list text))
  let dateLayouts ← place 3 "LocaleFileConfig" 4 (optional (list text))
  closeList
  pure ⟨decimal, group, datetimeLayouts, dateLayouts⟩

def reader : Json.Reader LocaleSection := record "LocaleFileConfig" positional keyed

end LocaleSection

/-! ### The file -/

namespace File

/-- A file while it is read. -/
structure Draft where
  limits : Option (Option LimitsSection) := none
  locale : Option (Option LocaleSection) := none
  extra : List (String × Json) := []

/-- What a member of the file adds. Members of other names are kept as they are. -/
def member (d : Draft) (key : String) : Json.Reader Draft :=
  match key with
  | "limits" => do pure { d with limits := ← once "limits" d.limits (optional LimitsSection.reader) }
  | "locale" => do pure { d with locale := ← once "locale" d.locale (optional LocaleSection.reader) }
  | _ => do
    colon
    pure { d with extra := put d.extra key (← value (maxDepth - 1)) }

/-- A file, which has to be an object. -/
def reader : Json.Reader File := do
  match ← start with
  | .object => do
    let d ← members member {}
    pure ⟨d.limits.join, d.locale.join, d.extra⟩
  | other => mismatch other "struct FileConfig"

def ofJson (text : String) : Except Problem File := reader.run text

end File
end Criteria.Settings
