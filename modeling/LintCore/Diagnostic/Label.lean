import LintCore.Source.Span

/-!
A label marks a span that a diagnostic is about: the primary one is where the fault is, the
secondary ones are what its notes talk about.
-/

set_option autoImplicit false
set_option relaxedAutoImplicit false

namespace LintCore

inductive LabelStyle where
  | primary
  | secondary
deriving DecidableEq

namespace LabelStyle

def all : List LabelStyle := [primary, secondary]

/-- The name of the style in data. -/
def name : LabelStyle → String
  | primary => "Primary"
  | secondary => "Secondary"

end LabelStyle

structure Label where
  span : Span
  style : LabelStyle
deriving DecidableEq

namespace Label

def primary (span : Span) : Label := ⟨span, .primary⟩

def secondary (span : Span) : Label := ⟨span, .secondary⟩

end Label

end LintCore
