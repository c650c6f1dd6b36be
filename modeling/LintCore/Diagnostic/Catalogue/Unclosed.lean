import LintCore.Diagnostic.Catalogue.Entry

/-!
The section of the catalogue from `UnclosedBlockComment` to `InvalidContinue`.
-/

set_option autoImplicit false
set_option relaxedAutoImplicit false

namespace LintCore.Catalogue

/-- The entries of the section, in the order of the catalogue. -/
def unclosedSection : List Entry := [
  error "E037" "UnclosedBlockComment"
    [span "comment_open"]
    (on ["comment_open"] "unclosed block comment") [],
  error "E134" "UnclosedCodeBlock"
    [span "block_open"]
    (on ["block_open"] "unclosed code block; expected '\x7d' by end of file") [],
  error "E038" "UnclosedIdentifierEscapeSequence"
    [span "escape_sequence"]
    (on ["escape_sequence"] "unclosed identifier escape sequence") [],
  error "E161" "UnclosedObjectLiteral"
    [span "object_open", span "expected_object_close"]
    (on ["expected_object_close"] "unclosed object literal; expected '\x7d'")
    [on ["object_open"] "object literal started here"],
  error "E039" "UnclosedRegexpLiteral"
    [span "regexp_literal"]
    (on ["regexp_literal"] "unclosed regexp literal") [],
  error "E040" "UnclosedStringLiteral"
    [span "string_literal"]
    (on ["string_literal"] "unclosed string literal") [],
  error "E041" "UnclosedTemplate"
    [span "incomplete_template"]
    (on ["incomplete_template"] "unclosed template") [],
  error "E042" "UnexpectedAtCharacter"
    [span "character"]
    (on ["character"] "unexpected '@'") [],
  error "E160" "UnexpectedArrowAfterExpression"
    [span "arrow", span "expression"]
    (on ["arrow"] "unexpected '{0}'")
    [on ["expression"] "expected parameter for arrow function, but got an expression instead"],
  error "E158" "UnexpectedArrowAfterLiteral"
    [span "arrow", span "literal_parameter"]
    (on ["arrow"] "unexpected '{0}'")
    [on ["literal_parameter"] "expected parameter for arrow function, but got a literal instead"],
  error "E043" "UnexpectedBackslashInIdentifier"
    [span "backslash"]
    (on ["backslash"] "unexpected '\\' in identifier") [],
  error "E115" "UnexpectedCaseOutsideSwitchStatement"
    [span "case_token"]
    (on ["case_token"] "unexpected 'case' outside switch statement") [],
  error "E044" "UnexpectedCharactersInNumber"
    [span "characters"]
    (on ["characters"] "unexpected characters in number literal") [],
  error "E045" "UnexpectedControlCharacter"
    [span "character"]
    (on ["character"] "unexpected control character") [],
  error "E046" "UnexpectedCharactersInBinaryNumber"
    [span "characters"]
    (on ["characters"] "unexpected characters in binary literal") [],
  error "E047" "UnexpectedCharactersInOctalNumber"
    [span "characters"]
    (on ["characters"] "unexpected characters in octal literal") [],
  error "E048" "UnexpectedCharactersInHexNumber"
    [span "characters"]
    (on ["characters"] "unexpected characters in hex literal") [],
  error "E116" "UnexpectedDefaultOutsideSwitchStatement"
    [span "default_token"]
    (on ["default_token"] "unexpected 'default' outside switch statement") [],
  error "E159" "UnexpectedLiteralInParameterList"
    [span "literal"]
    (on ["literal"] "unexpected literal in parameter list; expected parameter name") [],
  error "E102" "UnexpectedSemicolonInCStyleForLoop"
    [span "semicolon"]
    (on ["semicolon"] "C-style for loops have only three semicolon-separated components") [],
  error "E110" "UnexpectedSemicolonInForInLoop"
    [span "semicolon"]
    (on ["semicolon"] "for-in loop expression cannot have semicolons") [],
  error "E109" "UnexpectedSemicolonInForOfLoop"
    [span "semicolon"]
    (on ["semicolon"] "for-of loop expression cannot have semicolons") [],
  error "E049" "NoDigitsInBinaryNumber"
    [span "characters"]
    (on ["characters"] "binary number literal has no digits") [],
  error "E050" "NoDigitsInHexNumber"
    [span "characters"]
    (on ["characters"] "hex number literal has no digits") [],
  error "E051" "NoDigitsInOctalNumber"
    [span "characters"]
    (on ["characters"] "octal number literal has no digits") [],
  error "E052" "UnexpectedHashCharacter"
    [span "location"]
    (on ["location"] "unexpected '#'") [],
  error "E053" "UnexpectedIdentifier"
    [span "location"]
    (on ["location"] "unexpected identifier") [],
  error "E147" "UnexpectedIdentifierInExpression"
    [identifier "unexpected"]
    (on ["unexpected"] "unexpected identifier in expression; missing operator before") [],
  error "E054" "UnexpectedToken"
    [span "token"]
    (on ["token"] "unexpected token") [],
  error "E112" "UnexpectedTokenAfterExport"
    [span "unexpected_token"]
    (on ["unexpected_token"]
      ("unexpected token in export; expected 'export default ...' or 'export "
        ++ "\x7b\x7bname\x7d' or 'export * from ...' or 'export class' or 'export function' "
        ++ "or 'export let'")) [],
  error "E114" "UnexpectedTokenInVariableDeclaration"
    [span "unexpected_token"]
    (on ["unexpected_token"] "unexpected token in variable declaration; expected variable name") [],
  error "E055" "UnmatchedIndexingBracket"
    [span "left_square"]
    (on ["left_square"] "unmatched indexing bracket") [],
  error "E056" "UnmatchedParenthesis"
    [span "location"]
    (on ["location"] "unmatched parenthesis") [],
  error "E143" "UnmatchedRightCurly"
    [span "right_curly"]
    (on ["right_curly"] "unmatched '\x7d'") [],
  warning "E057" "UseOfUndeclaredVariable"
    [identifier "name"]
    (on ["name"] "use of undeclared variable: {0}") [],
  error "E058" "VariableUsedBeforeDeclaration"
    [identifier "usage", identifier "declaration"]
    (on ["usage"] "variable used before declaration: {0}")
    [on ["declaration"] "variable declared here"],
  error "E200" "InvalidBreak"
    [span "break_statement"]
    (on ["break_statement"] "break can only be used inside of a loop or switch") [],
  error "E201" "InvalidContinue"
    [span "continue_statement"]
    (on ["continue_statement"] "continue can only be used inside of a loop") []]

end LintCore.Catalogue
