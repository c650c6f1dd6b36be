import LintCore.Diagnostic.Catalogue.Entry

/-!
The section of the catalogue from `GeneratorFunctionStarBelongsBeforeName` to
`LexicalDeclarationNotAllowedInBody`.
-/

set_option autoImplicit false
set_option relaxedAutoImplicit false

namespace LintCore.Catalogue

/-- The entries of the section, in the order of the catalogue. -/
def generatorSection : List Entry := [
  error "E133" "GeneratorFunctionStarBelongsBeforeName"
    [span "function_name", span "star"]
    (on ["star"] "generator function '*' belongs before function name") [],
  error "E108" "InDisallowedInCStyleForLoop"
    [span "in_token"]
    (on ["in_token"] "'in' disallowed in C-style for loop initializer") [],
  error "E075" "IndexingRequiresExpression"
    [span "squares"]
    (on ["squares"] "indexing requires an expression") [],
  error "E019" "InvalidBindingInLetStatement"
    [span "location"]
    (on ["location"] "invalid binding in let statement") [],
  error "E020" "InvalidExpressionLeftOfAssignment"
    [span "location"]
    (on ["location"] "invalid expression left of assignment") [],
  error "E060" "InvalidHexEscapeSequence"
    [span "escape_sequence"]
    (on ["escape_sequence"] "invalid hex escape sequence: {0}") [],
  error "E021" "InvalidLoneLiteralInObjectLiteral"
    [span "location"]
    (on ["location"] "invalid lone literal in object literal") [],
  error "E074" "InvalidRhsForDotOperator"
    [span "dot"]
    (on ["dot"]
      ("'.' operator needs a key name; use + to concatenate strings; use [] to access "
        ++ "with a dynamic key")) [],
  error "E022" "InvalidUtf8Sequence"
    [span "sequence"]
    (on ["sequence"] "invalid UTF-8 sequence") [],
  error "E023" "KeywordsCannotContainEscapeSequences"
    [span "escape_sequence"]
    (on ["escape_sequence"] "keywords cannot contain escape sequences") [],
  error "E032" "LegacyOctalLiteralMayNotBeBigInt"
    [span "characters"]
    (on ["characters"] "legacy octal literal may not be BigInt") [],
  error "E152" "LegacyOctalLiteralMayNotContainUnderscores"
    [span "underscores"]
    (on ["underscores"] "legacy octal literals may not contain underscores") [],
  error "E024" "LetWithNoBindings"
    [span "location"]
    (on ["location"] "let with no bindings") [],
  error "E150" "LexicalDeclarationNotAllowedInBody"
    [statementKind "kind_of_statement", span "expected_body", span "declaring_keyword"]
    (on ["expected_body", "kind_of_statement"] "missing body for {1:headlinese}")
    [on ["declaring_keyword", "kind_of_statement"]
      "a lexical declaration is not allowed as the body of {1:singular}"]]

end LintCore.Catalogue
