import LintCore.Diagnostic.Catalogue.Entry

/-!
The section of the catalogue from `AssignmentBeforeVariableDeclaration` to
`CommaNotAllowedAfterSpreadParameter`.
-/

set_option autoImplicit false
set_option relaxedAutoImplicit false

namespace LintCore.Catalogue

/-- The entries of the section, in the order of the catalogue. -/
def assignmentSection : List Entry := [
  error "E001" "AssignmentBeforeVariableDeclaration"
    [identifier "assignment", identifier "declaration"]
    (on ["assignment"] "variable assigned before its declaration")
    [on ["declaration"] "variable declared here"],
  error "E002" "AssignmentToConstGlobalVariable"
    [identifier "assignment"]
    (on ["assignment"] "assignment to const global variable") [],
  error "E003" "AssignmentToConstVariable"
    [identifier "declaration", identifier "assignment", variableKind "var_kind"]
    (on ["assignment"] "assignment to const variable")
    [on ["declaration"] "const variable declared here"],
  error "E004" "AssignmentToConstVariableBeforeItsDeclaration"
    [identifier "declaration", identifier "assignment", variableKind "var_kind"]
    (on ["assignment"] "assignment to const variable before its declaration")
    [on ["declaration"] "const variable declared here"],
  warning "E059" "AssignmentToUndeclaredVariable"
    [identifier "assignment"]
    (on ["assignment"] "assignment to undeclared variable") [],
  error "E162" "AwaitOperatorOutsideAsync"
    [span "await_operator"]
    (on ["await_operator"] "'await' is only allowed in async functions") [],
  error "E005" "BigIntLiteralContainsDecimalPoint"
    [span "location"]
    (on ["location"] "BigInt literal contains decimal point") [],
  error "E006" "BigIntLiteralContainsExponent"
    [span "location"]
    (on ["location"] "BigInt literal contains exponent") [],
  error "E093" "CStyleForLoopIsMissingThirdComponent"
    [span "expected_last_component", span "existing_semicolon"]
    (on ["expected_last_component"] "C-style for loop is missing its third component") [],
  error "E082" "CannotAssignToVariableNamedAsyncInForOfLoop"
    [identifier "async_identifier"]
    (on ["async_identifier"] "assigning to 'async' in a for-of loop requires parentheses") [],
  error "E069" "CannotDeclareAwaitInAsyncFunction"
    [identifier "name"]
    (on ["name"] "cannot declare 'await' inside async function") [],
  error "E007" "CannotDeclareClassNamedLet"
    [span "name"]
    (on ["name"] "classes cannot be named 'let'") [],
  error "E008" "CannotDeclareVariableNamedLetWithLet"
    [span "name"]
    (on ["name"] "let statement cannot declare variables named 'let'") [],
  error "E124" "CannotDeclareVariableWithKeywordName"
    [span "keyword"]
    (on ["keyword"] "cannot declare variable named keyword '{0}'") [],
  error "E071" "CannotDeclareYieldInGeneratorFunction"
    [identifier "name"]
    (on ["name"] "cannot declare 'yield' inside generator function") [],
  error "E076" "CannotExportDefaultVariable"
    [span "declaring_token"]
    (on ["declaring_token"] "cannot declare and export variable with 'export default'") [],
  error "E009" "CannotExportLet"
    [span "export_name"]
    (on ["export_name"] "cannot export variable named 'let'") [],
  error "E144" "CannotExportVariableNamedKeyword"
    [identifier "export_name"]
    (on ["export_name"] "cannot export variable named keyword '{0}'") [],
  error "E010" "CannotImportLet"
    [span "import_name"]
    (on ["import_name"] "cannot import 'let'") [],
  error "E145" "CannotImportVariableNamedKeyword"
    [identifier "import_name"]
    (on ["import_name"] "cannot import variable named keyword '{0}'") [],
  error "E155" "CannotReferToPrivateVariableWithoutObject"
    [identifier "private_identifier"]
    (on ["private_identifier"] "cannot reference private variables without object; use 'this.'") [],
  error "E136" "CannotUpdateVariableDuringDeclaration"
    [span "declaring_token", span "updating_operator"]
    (on ["updating_operator"] "cannot update variable with '{0}' while declaring it")
    [on ["declaring_token"] "remove '{0}' to update an existing variable"],
  error "E117" "CatchWithoutTry"
    [span "catch_token"]
    (on ["catch_token"] "unexpected 'catch' without 'try'") [],
  error "E149" "ClassStatementNotAllowedInBody"
    [statementKind "kind_of_statement", span "expected_body", span "class_keyword"]
    (on ["expected_body", "kind_of_statement"] "missing body for {1:headlinese}")
    [on ["class_keyword", "kind_of_statement"]
      "a class statement is not allowed as the body of {1:singular}"],
  error "E011" "CharacterDisallowedInIdentifiers"
    [span "character"]
    (on ["character"] "character is not allowed in identifiers") [],
  error "E070" "CommaNotAllowedAfterSpreadParameter"
    [span "comma", span "spread"]
    (on ["comma"] "commas are not allowed after spread parameter") []]

end LintCore.Catalogue
