import Criteria.Proofs.Predicate.Alignment
import Criteria.Proofs.Predicate.Atom
import Criteria.Proofs.Predicate.Noninterference
import Criteria.Session
import Criteria.Settings.Source
import Criteria.Proofs.Predicate.Reading
import Criteria.Proofs.Predicate.Readability
import Criteria.Proofs.Predicate.Typing
import Criteria.Proofs.Predicate.Faults
import Criteria.Proofs.Wire.WellFormed
import Criteria.Proofs.Json.Containers
import Criteria.Proofs.Wire.RoundTrip
import Criteria.Proofs.Number.Localized
import Criteria.Proofs.Json.Numbers
import Criteria.Proofs.Wire.Numbers
import Criteria.Proofs.Number.Integers
import Criteria.Proofs.Predicate.Folding
import Criteria.Proofs.Predicate.Placeholders
import Criteria.Proofs.Json.Integers
import Criteria.Proofs.Wire.Integers
import Criteria.Proofs.Calendar.Scanning
import Criteria.Proofs.Calendar.Texts
import Criteria.Proofs.Uuid
import Criteria.Proofs.Wire.Values
import Criteria.Proofs.Predicate.History
import Criteria.Proofs.Wire.Limits
import Criteria.Proofs.Wire.Nesting
import Criteria.Proofs.Predicate.Locales
import Criteria.Proofs.Settings.Layers
import Criteria.Proofs.Number.Grouped
import Criteria.Proofs.Number.Floats
import Criteria.Proofs.Session.Interleaving
import Criteria.Proofs.Text.Trimming
import Criteria.Proofs.Number.Points
import Criteria.Proofs.Number.Overflow
import Criteria.Proofs.Predicate.Finiteness
import Criteria.Proofs.Calendar.Consumed
import Criteria.Proofs.Predicate.Days
import Criteria.Proofs.Predicate.Whitespace
import Criteria.Proofs.Wire.Strictness
import Criteria.Proofs.Predicate.Growth
import Criteria.Proofs.Settings.Counts
import Criteria.Proofs.Settings.Written
import Criteria.Proofs.Settings.Choice
import Criteria.Proofs.Predicate.Fallback
import Criteria.Proofs.Predicate.Filling
