import LintCore.Source.Span

/-!
A name as it occurs in the analysed text. Escape sequences are decoded in `name`, so the text under
`span` may spell the name differently.
-/

set_option autoImplicit false
set_option relaxedAutoImplicit false

namespace LintCore

structure Identifier where
  span : Span
  name : String
deriving DecidableEq

end LintCore
