import LintCore.Json.Decode
import LintCore.Source.Identifier

/-!
Spans and identifiers as JSON, with their entries in the order of the fields. Offsets are numbers of
32 bits and are never altered.
-/

set_option autoImplicit false
set_option relaxedAutoImplicit false

namespace LintCore

def Span.toJson (span : Span) : Json :=
  .obj [("start", .int span.start.toNat), ("end", .int span.stop.toNat)]

def Span.ofJson : Json.Decoder Span := fun value ↦ do
  let (start, stop, ()) ←
    Json.members "Span" [⟨"start", UInt32, Json.offset⟩, ⟨"end", UInt32, Json.offset⟩] value
  return ⟨start, stop⟩

def Identifier.toJson (identifier : Identifier) : Json :=
  .obj [("span", identifier.span.toJson), ("normalized_name", .str identifier.name)]

def Identifier.ofJson : Json.Decoder Identifier := fun value ↦ do
  let (span, name, ()) ← Json.members "Identifier"
    [⟨"span", Span, Span.ofJson⟩, ⟨"normalized_name", String, Json.text⟩] value
  return ⟨span, name⟩

end LintCore
