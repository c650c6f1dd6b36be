/-!
The ways in which a variable can be declared.
-/

set_option autoImplicit false
set_option relaxedAutoImplicit false

namespace LintCore

inductive VariableKind where
  | catchClause
  | classDeclaration
  | constDeclaration
  | functionDeclaration
  | importDeclaration
  | letDeclaration
  | parameter
  | varDeclaration
deriving DecidableEq

namespace VariableKind

def all : List VariableKind :=
  [catchClause, classDeclaration, constDeclaration, functionDeclaration, importDeclaration,
    letDeclaration, parameter, varDeclaration]

theorem mem_all (kind : VariableKind) : kind ∈ all := by
  cases kind <;> decide

/-- The name of the kind in data. -/
def name : VariableKind → String
  | catchClause => "Catch"
  | classDeclaration => "Class"
  | constDeclaration => "Const"
  | functionDeclaration => "Function"
  | importDeclaration => "Import"
  | letDeclaration => "Let"
  | parameter => "Parameter"
  | varDeclaration => "Var"

/-- The keyword that declares the variable, or its role. -/
def keyword : VariableKind → String
  | catchClause => "catch"
  | classDeclaration => "class"
  | constDeclaration => "const"
  | functionDeclaration => "function"
  | importDeclaration => "import"
  | letDeclaration => "let"
  | parameter => "parameter"
  | varDeclaration => "var"

end VariableKind

end LintCore
