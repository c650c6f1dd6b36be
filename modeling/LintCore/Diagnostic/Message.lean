import LintCore.Diagnostic.Label
import LintCore.Diagnostic.Template
import LintCore.Language.StatementKind
import LintCore.Source.Identifier
import LintCore.Source.Text

/-!
A message is a template with arguments. Argument 0 is its anchor, the place that the message is
about. An argument's text goes into the message as it is: it is not searched for holes.
-/

set_option autoImplicit false
set_option relaxedAutoImplicit false

namespace LintCore

/-- What can fill a hole of a template. -/
inductive Argument where
  | span (place : Span)
  | identifier (ident : Identifier)
  | statementKind (kind : StatementKind)
  | char (c : Char)
deriving DecidableEq

namespace Argument

/-- The place that the argument is at, if it is at any. -/
def span? : Argument → Option Span
  | .span place => some place
  | .identifier ident => some ident.span
  | .statementKind _ => none
  | .char _ => none

/-- The argument in a message. Only a statement kind depends on the style. -/
def text (source : Source) (style : Template.Style) : Argument → String
  | .span place => source.snippet place
  | .identifier ident => ident.name
  | .statementKind kind =>
    match style with
    | .singular => kind.singular
    | .plain | .headlinese => kind.headlinese
  | .char c => String.singleton c

end Argument

structure Message where
  template : String
  arguments : List Argument
deriving DecidableEq

namespace Message

/-- The place that the message is about. -/
def anchor (message : Message) : Span :=
  (message.arguments.head?.bind Argument.span?).getD default

/-- What a piece of a template stands for. A hole without an argument is left as it was written. -/
def fill (source : Source) (arguments : List Argument) : Template.Piece → List Char
  | .literal c => [c]
  | .hole index style written =>
    match arguments[index]? with
    | some argument => (argument.text source style).toList
    | none => written

def format (source : Source) (message : Message) : String :=
  String.ofList ((Template.tokenize message.template).flatMap (fill source message.arguments))

end Message

end LintCore
