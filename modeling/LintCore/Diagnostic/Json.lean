import LintCore.Diagnostic.Basic
import LintCore.Json.Decode
import LintCore.Source.Json

/-!
Diagnostics as JSON. A diagnostic is an object whose only key is the name of its kind; the value of
that key is a record of the kind's fields.
-/

set_option autoImplicit false
set_option relaxedAutoImplicit false

namespace LintCore

/-! ### Choices and labels -/

def Severity.toJson (severity : Severity) : Json := .str severity.word

def Severity.ofJson : Json.Decoder Severity := Json.oneOf Severity.all Severity.word

def StatementKind.toJson (kind : StatementKind) : Json := .str kind.name

def StatementKind.ofJson : Json.Decoder StatementKind :=
  Json.oneOf StatementKind.all StatementKind.name

def VariableKind.toJson (kind : VariableKind) : Json := .str kind.name

def VariableKind.ofJson : Json.Decoder VariableKind :=
  Json.oneOf VariableKind.all VariableKind.name

def LabelStyle.ofJson : Json.Decoder LabelStyle := Json.oneOf LabelStyle.all LabelStyle.name

def Label.toJson (label : Label) : Json :=
  .obj [("span", label.span.toJson), ("style", .str label.style.name)]

def Label.ofJson : Json.Decoder Label := fun value ↦ do
  let (span, style, ()) ← Json.members "Label"
    [⟨"span", Span, Span.ofJson⟩, ⟨"style", LabelStyle, LabelStyle.ofJson⟩] value
  return ⟨span, style⟩

/-! ### Rows of fields -/

namespace FieldType

def toJson : (type : FieldType) → type.Value → Json
  | span => Span.toJson
  | identifier => Identifier.toJson
  | statementKind => StatementKind.toJson
  | variableKind => VariableKind.toJson
  | char => fun c : Char ↦ .str (String.singleton c)

def ofJson : (type : FieldType) → Json.Decoder type.Value
  | span => Span.ofJson
  | identifier => Identifier.ofJson
  | statementKind => StatementKind.ofJson
  | variableKind => VariableKind.ofJson
  | char => Json.character

end FieldType

namespace FieldRow

/-- The entries of the fields. -/
def toEntries {fields : List Field} (row : FieldRow fields) : List (String × Json) :=
  Shape.Row.toList (fun (field : Field) value ↦ (field.name, field.type.toJson value)) row

/-- The values alone, in the order of the fields. -/
def toItems {fields : List Field} (row : FieldRow fields) : List Json :=
  Shape.Row.toList (fun (field : Field) value ↦ field.type.toJson value) row

def ofJson (name : String) (fields : List Field) : Json.Decoder (FieldRow fields) :=
  Json.record Field.name (fun field ↦ field.type.ofJson) name fields

end FieldRow

/-! ### Diagnostics -/

namespace Diagnostic

/-- The fields of the diagnostic, without the name of its kind. -/
def fieldsToJson (diagnostic : Diagnostic) : Json := .obj diagnostic.row.toEntries

/-- Reads the fields of a diagnostic of a known kind. -/
def ofFields (kind : Kind) : Json.Decoder Diagnostic := fun value ↦
  (FieldRow.ofJson kind.name kind.fields value).map (Diagnostic.mk kind)

def toJson (diagnostic : Diagnostic) : Json :=
  .obj [(diagnostic.kind.name, diagnostic.fieldsToJson)]

def ofJson : Json.Decoder Diagnostic := fun value ↦ do
  let (name, fields?) ← Json.nameAndValue value
  match Kind.ofName? name, fields? with
  | none, _ => .error (.unknownVariant name Catalogue.names)
  | some _, none => .error (.wrongType .bareName .namedValue)
  | some kind, some fields => ofFields kind fields

end Diagnostic

end LintCore
