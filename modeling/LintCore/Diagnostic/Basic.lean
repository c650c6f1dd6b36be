import LintCore.Diagnostic.Kind

/-!
A diagnostic is a kind with a value for each of the kind's fields. Its messages are the wordings of
the catalogue with arguments taken from these values.
-/

set_option autoImplicit false
set_option relaxedAutoImplicit false

namespace LintCore

open Catalogue

/-! ### Taking arguments from fields -/

/-- The value as an argument of a message. How a variable was declared is not said in messages. -/
def FieldType.argument? : (type : FieldType) → type.Value → Option Argument
  | span, value => some (.span value)
  | identifier, value => some (.identifier value)
  | statementKind, value => some (.statementKind value)
  | variableKind, _ => none
  | char, value => some (.char value)

namespace FieldRow

/-- The value of a field, as an argument. -/
def argument? (name : String) : {fields : List Field} → FieldRow fields → Option Argument
  | [], _ => none
  | field :: _, (value, rest) =>
    if field.name = name then field.type.argument? value else argument? name rest

/-- The place of a field. -/
def span? {fields : List Field} (row : FieldRow fields) (name : String) : Option Span :=
  (argument? name row).bind Argument.span?

def resolve? {fields : List Field} (row : FieldRow fields) : Reference → Option Argument
  | .field name => argument? name row
  | .between first last => do
    let first ← row.span? first
    let last ← row.span? last
    return .span (.between first last)
  | .merge first second => do
    let first ← row.span? first
    let second ← row.span? second
    return .span (first.merge second)

def message {fields : List Field} (row : FieldRow fields) (wording : Wording) : Message :=
  ⟨wording.template, wording.references.filterMap row.resolve?⟩

end FieldRow

/-! ### Diagnostics -/

structure Diagnostic where
  kind : Kind
  row : FieldRow kind.fields
deriving DecidableEq

/-- The messages of a diagnostic, with the code and severity that its kind has. -/
structure Report where
  code : Code
  severity : Severity
  primary : Message
  notes : List Message
deriving DecidableEq

/-- The places that a report is about, the primary one first. -/
def Report.labels (report : Report) : List Label :=
  .primary report.primary.anchor :: report.notes.map fun note ↦ .secondary note.anchor

namespace Diagnostic

def code (diagnostic : Diagnostic) : Code := diagnostic.kind.code

def severity (diagnostic : Diagnostic) : Severity := diagnostic.kind.severity

def primary (diagnostic : Diagnostic) : Message :=
  diagnostic.row.message diagnostic.kind.entry.primary

def notes (diagnostic : Diagnostic) : List Message :=
  diagnostic.kind.entry.notes.map diagnostic.row.message

def report (diagnostic : Diagnostic) : Report :=
  ⟨diagnostic.code, diagnostic.severity, diagnostic.primary, diagnostic.notes⟩

end Diagnostic

end LintCore
