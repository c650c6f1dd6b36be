/-!
What a configuration document can set.
-/

set_option autoImplicit false
set_option relaxedAutoImplicit false

namespace LintCore

/-- Codes as they are written in the document; they need not be codes of the catalogue. -/
structure LintConfig where
  deny : List String := []
  allow : List String := []
deriving DecidableEq

structure EventLoopConfig where
  /-- The number of bytes that one read asks for. -/
  readBufferSize : Nat := 1024
deriving DecidableEq

structure Config where
  lint : LintConfig := {}
  eventLoop : EventLoopConfig := {}
deriving DecidableEq

end LintCore
