import LintCore.Language.StatementKind
import LintCore.Language.VariableKind
import LintCore.Source.Identifier
import LintCore.Shape.Row

/-!
The fields of diagnostics: their types, and the values that belong to each type.
-/

set_option autoImplicit false
set_option relaxedAutoImplicit false

namespace LintCore

inductive FieldType where
  | span
  | identifier
  | statementKind
  | variableKind
  | char
deriving DecidableEq

/-- The values of a type. -/
def FieldType.Value : FieldType → Type
  | span => Span
  | identifier => Identifier
  | statementKind => StatementKind
  | variableKind => VariableKind
  | char => Char

instance FieldType.decEqValue : (type : FieldType) → DecidableEq type.Value
  | span => inferInstanceAs (DecidableEq Span)
  | identifier => inferInstanceAs (DecidableEq Identifier)
  | statementKind => inferInstanceAs (DecidableEq StatementKind)
  | variableKind => inferInstanceAs (DecidableEq VariableKind)
  | char => inferInstanceAs (DecidableEq Char)

structure Field where
  name : String
  type : FieldType
deriving DecidableEq

abbrev Field.Value (field : Field) : Type := field.type.Value

/-- The values of a list of fields. -/
abbrev FieldRow (fields : List Field) : Type := Shape.Row Field.Value fields

instance (fields : List Field) : DecidableEq (FieldRow fields) :=
  Shape.Row.decEq fun field : Field ↦ FieldType.decEqValue field.type

end LintCore
