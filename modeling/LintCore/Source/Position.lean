/-!
Places in a text as a reader counts them: lines and byte columns, both from one, and the location of
a span in a named file.
-/

set_option autoImplicit false
set_option relaxedAutoImplicit false

namespace LintCore

structure Position where
  line : UInt32
  column : UInt32
deriving DecidableEq

/-- The first and the last place of a span, in the file `path`. -/
structure Location where
  path : String
  first : Position
  last : Position
deriving DecidableEq

/-- Only the first place is written. -/
def Location.render (location : Location) : String :=
  location.path ++ ":" ++ toString location.first.line.toNat ++ ":"
    ++ toString location.first.column.toNat

end LintCore
