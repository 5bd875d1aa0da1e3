import Criteria.Predicate.Compiler
import Criteria.Settings

/-! A session: the locale in force for everybody who does not bring one.

The locale is invariant until another is installed. A compilation takes the locale in
force when it starts. -/
namespace Criteria

/-- What is shared by everybody who does not bring a locale. -/
structure Session where
  locale : Locale := .invariant

namespace Session

/-- Another locale is in force from now on. -/
def install (_ : Session) (l : Locale) : Session := ⟨l⟩

/-- The locale of the settings is in force from now on; their limits are not shared. -/
def installSettings (s : Session) (settings : Settings) : Session := s.install settings.locale

/-- Compiles under the locale in force. -/
def compile (s : Session) (schema : Schema) (f : Filter) : Except Error Compiled :=
  Criteria.compile schema s.locale f

end Session
end Criteria
