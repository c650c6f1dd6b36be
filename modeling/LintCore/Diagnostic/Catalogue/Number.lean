import LintCore.Diagnostic.Catalogue.Entry

/-!
The section of the catalogue from `NumberLiteralContainsConsecutiveUnderscores` to
`TypescriptEnumNotImplemented`.
-/

set_option autoImplicit false
set_option relaxedAutoImplicit false

namespace LintCore.Catalogue

/-- The entries of the section, in the order of the catalogue. -/
def numberSection : List Entry := [
  error "E028" "NumberLiteralContainsConsecutiveUnderscores"
    [span "underscores"]
    (on ["underscores"] "number literal contains consecutive underscores") [],
  error "E029" "NumberLiteralContainsTrailingUnderscores"
    [span "underscores"]
    (on ["underscores"] "number literal contains trailing underscore(s)") [],
  error "E030" "OctalLiteralMayNotHaveExponent"
    [span "characters"]
    (on ["characters"] "octal literal may not have exponent") [],
  error "E031" "OctalLiteralMayNotHaveDecimal"
    [span "characters"]
    (on ["characters"] "octal literal may not have decimal") [],
  error "E156" "PrivatePropertiesAreNotAllowedInObjectLiterals"
    [identifier "private_identifier"]
    (on ["private_identifier"] "private properties are not allowed in object literals") [],
  error "E033" "RedeclarationOfGlobalVariable"
    [identifier "redeclaration"]
    (on ["redeclaration"] "redeclaration of global variable") [],
  error "E034" "RedeclarationOfVariable"
    [identifier "redeclaration", identifier "original_declaration"]
    (on ["redeclaration"] "redeclaration of variable: {0}")
    [on ["original_declaration"] "variable already declared here"],
  error "E035" "RegexpLiteralFlagsCannotContainUnicodeEscapes"
    [span "escape_sequence"]
    (on ["escape_sequence"] "RegExp literal cannot contain Unicode escapes") [],
  error "E036" "StrayCommaInLetStatement"
    [span "location"]
    (on ["location"] "stray comma in let statement") [],
  error "E127" "TypescriptEnumNotImplemented"
    [span "enum_keyword"]
    (on ["enum_keyword"] "TypeScript's 'enum' feature is not yet implemented by quill") []]

end LintCore.Catalogue
