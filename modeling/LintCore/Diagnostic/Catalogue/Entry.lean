import LintCore.Diagnostic.Field
import LintCore.Diagnostic.Message
import LintCore.Diagnostic.Severity

/-!
Entries of the catalogue of diagnostics. An entry gives a kind of diagnostic its name, its code, its
severity, its fields, and the wording of its messages: one where the fault is, and notes.
-/

set_option autoImplicit false
set_option relaxedAutoImplicit false

namespace LintCore

namespace Catalogue

/-- Where an argument of a message comes from. -/
inductive Reference where
  /-- A field, as it is. -/
  | field (name : String)
  /-- From the start of one span to the end of another. -/
  | between (first last : String)
  /-- The least span around two. -/
  | merge (first second : String)
deriving DecidableEq

/-- A message whose arguments are still to be taken from a diagnostic's fields. -/
structure Wording where
  template : String
  references : List Reference
deriving DecidableEq

structure Entry where
  name : String
  code : String
  severity : Severity
  fields : List Field
  primary : Wording
  notes : List Wording
deriving DecidableEq

/-- A message on the first of the given fields. -/
def on (fields : List String) (template : String) : Wording :=
  { template, references := fields.map .field }

/-- A message on a place made of two fields. -/
def onPlace (place : Reference) (fields : List String) (template : String) : Wording :=
  { template, references := place :: fields.map .field }

def error (code name : String) (fields : List Field) (primary : Wording)
    (notes : List Wording) : Entry :=
  { name, code, severity := .error, fields, primary, notes }

def warning (code name : String) (fields : List Field) (primary : Wording)
    (notes : List Wording) : Entry :=
  { name, code, severity := .warning, fields, primary, notes }

def span (name : String) : Field := ⟨name, .span⟩

def identifier (name : String) : Field := ⟨name, .identifier⟩

def statementKind (name : String) : Field := ⟨name, .statementKind⟩

def variableKind (name : String) : Field := ⟨name, .variableKind⟩

def char (name : String) : Field := ⟨name, .char⟩

end Catalogue

end LintCore
