import LintCore.Diagnostic.Catalogue
import LintCore.Text.Spelling

/-!
No two entries of the catalogue share a code or a name.
-/

set_option autoImplicit false
set_option relaxedAutoImplicit false

namespace LintCore.Catalogue

open Text

theorem nodup_codes : codes.Nodup := by
  apply nodup_of_spelled
  apply Exists.intro
  apply And.intro
  · repeat' first | exact Spelled.nil | apply Spelled.cons
  · decide +kernel

theorem nodup_names : names.Nodup := by
  apply nodup_of_spelled
  apply Exists.intro
  apply And.intro
  · repeat' first | exact Spelled.nil | apply Spelled.cons
  · decide +kernel

end LintCore.Catalogue
