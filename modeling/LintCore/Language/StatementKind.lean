/-!
The statements whose bodies diagnostics talk about, and the two ways in which a message names them.
-/

set_option autoImplicit false
set_option relaxedAutoImplicit false

namespace LintCore

inductive StatementKind where
  | doWhileLoop
  | forLoop
  | ifStatement
  | whileLoop
  | withStatement
  | labelledStatement
deriving DecidableEq

namespace StatementKind

def all : List StatementKind :=
  [doWhileLoop, forLoop, ifStatement, whileLoop, withStatement, labelledStatement]

theorem mem_all (kind : StatementKind) : kind ∈ all := by
  cases kind <;> decide

/-- The name of the kind in data. -/
def name : StatementKind → String
  | doWhileLoop => "DoWhileLoop"
  | forLoop => "ForLoop"
  | ifStatement => "IfStatement"
  | whileLoop => "WhileLoop"
  | withStatement => "WithStatement"
  | labelledStatement => "LabelledStatement"

/-- Without an article, for headlines. -/
def headlinese : StatementKind → String
  | doWhileLoop => "'do-while' loop"
  | forLoop => "'for' loop"
  | ifStatement => "'if' statement"
  | whileLoop => "'while' loop"
  | withStatement => "'with' statement"
  | labelledStatement => "labelled statement"

/-- With its article, for the middle of a sentence. -/
def singular : StatementKind → String
  | doWhileLoop => "a 'do-while' loop"
  | forLoop => "a 'for' loop"
  | ifStatement => "an 'if' statement"
  | whileLoop => "a 'while' loop"
  | withStatement => "a 'with' statement"
  | labelledStatement => "a labelled statement"

end StatementKind

end LintCore
