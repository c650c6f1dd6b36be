import LintCore.Diagnostic.Basic

/-!
Diagnostics as lines of text, one for the fault and one for each note:
`app.js:3:1: warning: use of undeclared variable: foo [E057]`.
-/

set_option autoImplicit false
set_option relaxedAutoImplicit false

namespace LintCore

namespace Line

/-- The line for one message. -/
def ofMessage (source : Source) (code : Code) (severity : Severity) (message : Message) : String :=
  (source.locate message.anchor).render ++ ": " ++ severity.word ++ ": " ++ message.format source
    ++ " [" ++ code.text ++ "]\n"

/-- The lines for a diagnostic at a severity. -/
def render (source : Source) (diagnostic : Diagnostic) (severity : Severity) : String :=
  let note := ofMessage source diagnostic.code .note
  ofMessage source diagnostic.code severity diagnostic.primary
    ++ String.join (diagnostic.notes.map note)

end Line

end LintCore
