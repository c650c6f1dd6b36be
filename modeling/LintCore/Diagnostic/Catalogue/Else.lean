import LintCore.Diagnostic.Catalogue.Entry

/-!
The section of the catalogue from `ElseHasNoIf` to `FunctionStatementNotAllowedInBody`.
-/

set_option autoImplicit false
set_option relaxedAutoImplicit false

namespace LintCore.Catalogue

/-- The entries of the section, in the order of the catalogue. -/
def elseSection : List Entry := [
  error "E065" "ElseHasNoIf"
    [span "else_token"]
    (on ["else_token"] "'else' has no corresponding 'if'") [],
  error "E012" "EscapedCharacterDisallowedInIdentifiers"
    [span "escape_sequence"]
    (on ["escape_sequence"] "escaped character is not allowed in identifiers") [],
  error "E013" "EscapedCodePointInIdentifierOutOfRange"
    [span "escape_sequence"]
    (on ["escape_sequence"] "code point out of range") [],
  error "E068" "ExtraCommaNotAllowedBetweenArguments"
    [span "comma"]
    (on ["comma"] "extra ',' is not allowed between function call arguments") [],
  error "E126" "ExpectedAsBeforeImportedNamespaceAlias"
    [span "alias", span "star_token"]
    (onPlace (.between "star_token" "alias") ["star_token", "alias"]
      "expected 'as' between '{1}' and '{2}'") [],
  error "E131" "ExpectedCommaToSeparateObjectLiteralEntries"
    [span "unexpected_token"]
    (on ["unexpected_token"] "expected ',' between object literal entries") [],
  error "E014" "ExpectedExpressionBeforeNewline"
    [span "location"]
    (on ["location"] "expected expression before newline") [],
  error "E140" "ExpectedExpressionForSwitchCase"
    [span "case_token"]
    (on ["case_token"] "expected expression after 'case'") [],
  error "E015" "ExpectedExpressionBeforeSemicolon"
    [span "location"]
    (on ["location"] "expected expression before semicolon") [],
  error "E129" "ExpectedFromAndModuleSpecifier"
    [span "location"]
    (on ["location"] "expected 'from \"name_of_module.mjs\"'") [],
  error "E128" "ExpectedFromBeforeModuleSpecifier"
    [span "module_specifier"]
    (on ["module_specifier"] "expected 'from' before module specifier") [],
  error "E016" "ExpectedHexDigitsInUnicodeEscape"
    [span "escape_sequence"]
    (on ["escape_sequence"] "expected hexadecimal digits in Unicode escape sequence") [],
  error "E107" "ExpectedLeftCurly"
    [span "expected_left_curly"]
    (on ["expected_left_curly"] "expected '\x7b\x7b'") [],
  error "E141" "ExpectedRightParenForFunctionCall"
    [span "expected_right_paren", span "left_paren"]
    (on ["expected_right_paren"] "expected ')' to close function call")
    [on ["left_paren"] "function call started here"],
  error "E084" "ExpectedParenthesesAroundDoWhileCondition"
    [span "condition"]
    (on ["condition"] "do-while loop needs parentheses around condition") [],
  error "E085" "ExpectedParenthesisAroundDoWhileCondition"
    [span "location", char "token"]
    (on ["location", "token"] "do-while loop is missing '{1}' around condition") [],
  error "E017" "ExpectedParenthesesAroundIfCondition"
    [span "condition"]
    (on ["condition"] "if statement needs parentheses around condition") [],
  error "E018" "ExpectedParenthesisAroundIfCondition"
    [span "location", char "token"]
    (on ["location", "token"] "if statement is missing '{1}' around condition") [],
  error "E091" "ExpectedParenthesesAroundSwitchCondition"
    [span "condition"]
    (on ["condition"] "switch statement needs parentheses around condition") [],
  error "E092" "ExpectedParenthesisAroundSwitchCondition"
    [span "location", char "token"]
    (on ["location", "token"] "switch statement is missing '{1}' around condition") [],
  error "E087" "ExpectedParenthesesAroundWhileCondition"
    [span "condition"]
    (on ["condition"] "while loop needs parentheses around condition") [],
  error "E088" "ExpectedParenthesisAroundWhileCondition"
    [span "location", char "token"]
    (on ["location", "token"] "while loop is missing '{1}' around condition") [],
  error "E089" "ExpectedParenthesesAroundWithExpression"
    [span "expression"]
    (on ["expression"] "with statement needs parentheses around expression") [],
  error "E090" "ExpectedParenthesisAroundWithExpression"
    [span "location", char "token"]
    (on ["location", "token"] "with statement is missing '{1}' around expression") [],
  error "E135" "ExpectedVariableNameForCatch"
    [span "unexpected_token"]
    (on ["unexpected_token"] "expected variable name for 'catch'") [],
  error "E067" "ExportingRequiresDefault"
    [span "expression"]
    (on ["expression"] "exporting requires 'default'") [],
  error "E066" "ExportingRequiresCurlies"
    [span "names"]
    (on ["names"] "exporting requires '\x7b\x7b' and '\x7d'") [],
  error "E153" "ExportingStringNameOnlyAllowedForExportFrom"
    [span "export_name"]
    (on ["export_name"] "forwarding exports are only allowed in export-from") [],
  error "E118" "FinallyWithoutTry"
    [span "finally_token"]
    (on ["finally_token"] "unexpected 'finally' without 'try'") [],
  error "E148" "FunctionStatementNotAllowedInBody"
    [statementKind "kind_of_statement", span "expected_body", span "function_keywords"]
    (on ["expected_body", "kind_of_statement"] "missing body for {1:headlinese}")
    [on ["function_keywords", "kind_of_statement"]
      "a function statement is not allowed as the body of {1:singular}"]]

end LintCore.Catalogue
