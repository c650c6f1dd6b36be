import LintCore.Diagnostic.Json
import LintCore.Json.Printer

/-!
Diagnostics as JSON objects for other programs, with the messages written out. Offsets are those of
the anchors, also where they lie outside the text. Keys are sorted.
-/

set_option autoImplicit false
set_option relaxedAutoImplicit false

namespace LintCore

namespace Object

def ofNote (source : Source) (note : Message) : Json :=
  .obj [("begin", .int note.anchor.start.toNat), ("end", .int note.anchor.stop.toNat),
    ("message", .str (note.format source))]

/-- The object for a diagnostic at a severity. -/
def ofDiagnostic (source : Source) (diagnostic : Diagnostic) (severity : Severity) : Json :=
  let primary := diagnostic.primary
  .obj [("begin", .int primary.anchor.start.toNat), ("code", .str diagnostic.code.text),
    ("end", .int primary.anchor.stop.toNat), ("message", .str (primary.format source)),
    ("notes", .arr (diagnostic.notes.map (ofNote source))), ("severity", severity.toJson)]

def render (source : Source) (diagnostic : Diagnostic) (severity : Severity) : String :=
  (ofDiagnostic source diagnostic severity).render

/-- The array of the objects for diagnostics with their severities. -/
def renderAll (source : Source) (reported : List (Diagnostic × Severity)) : String :=
  Json.render (.arr (reported.map fun (diagnostic, severity) ↦
    ofDiagnostic source diagnostic severity))

end Object

end LintCore
