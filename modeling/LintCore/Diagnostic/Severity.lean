/-!
How serious a diagnostic is. A note is less than a warning, and a warning less than an error.
-/

set_option autoImplicit false
set_option relaxedAutoImplicit false

namespace LintCore

inductive Severity where
  | note
  | warning
  | error
deriving DecidableEq

namespace Severity

def all : List Severity := [note, warning, error]

/-- The word for it in every output. -/
def word : Severity → String
  | note => "note"
  | warning => "warning"
  | error => "error"

def rank : Severity → Nat
  | note => 0
  | warning => 1
  | error => 2

instance : LE Severity := ⟨fun severity other ↦ severity.rank ≤ other.rank⟩

instance (severity other : Severity) : Decidable (severity ≤ other) :=
  inferInstanceAs (Decidable (severity.rank ≤ other.rank))

instance : Max Severity := ⟨fun severity other ↦ if severity ≤ other then other else severity⟩

instance : Min Severity := ⟨fun severity other ↦ if severity ≤ other then severity else other⟩

instance : Ord Severity := ⟨fun severity other ↦ compare severity.rank other.rank⟩

end Severity

end LintCore
