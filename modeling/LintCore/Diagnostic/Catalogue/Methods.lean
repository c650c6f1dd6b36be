import LintCore.Diagnostic.Catalogue.Entry

/-!
The section of the catalogue from `MethodsShouldNotUseFunctionKeyword` to
`MissingWhileAndConditionForDoWhileStatement`.
-/

set_option autoImplicit false
set_option relaxedAutoImplicit false

namespace LintCore.Catalogue

/-- The entries of the section, in the order of the catalogue. -/
def methodsSection : List Entry := [
  error "E072" "MethodsShouldNotUseFunctionKeyword"
    [span "function_token"]
    (on ["function_token"] "methods should not use the 'function' keyword") [],
  error "E157" "MissingArrayClose"
    [span "left_square", span "expected_right_square"]
    (on ["expected_right_square"] "missing end of array; expected ']'")
    [on ["left_square"] "array started here"],
  error "E105" "MissingArrowFunctionParameterList"
    [span "arrow"]
    (on ["arrow"] "missing parameters for arrow function") [],
  error "E119" "MissingBodyForCatchClause"
    [span "catch_token"]
    (on ["catch_token"] "missing body for catch clause") [],
  error "E111" "MissingBodyForClass"
    [span "class_keyword_and_name_and_heritage"]
    (on ["class_keyword_and_name_and_heritage"] "missing body for class") [],
  error "E101" "MissingBodyForDoWhileStatement"
    [span "do_token"]
    (on ["do_token"] "missing body for do-while loop") [],
  error "E121" "MissingBodyForFinallyClause"
    [span "finally_token"]
    (on ["finally_token"] "missing body for finally clause") [],
  error "E094" "MissingBodyForForStatement"
    [span "for_and_header"]
    (on ["for_and_header"] "missing body for 'for' loop") [],
  error "E064" "MissingBodyForIfStatement"
    [span "if_and_condition"]
    (on ["if_and_condition"] "missing body for 'if' statement") [],
  error "E106" "MissingBodyForSwitchStatement"
    [span "switch_and_condition"]
    (on ["switch_and_condition"] "missing body for 'switch' statement") [],
  error "E120" "MissingBodyForTryStatement"
    [span "try_token"]
    (on ["try_token"] "missing body for try statement") [],
  error "E104" "MissingBodyForWhileStatement"
    [span "while_and_condition"]
    (on ["while_and_condition"] "missing body for while loop") [],
  error "E122" "MissingCatchOrFinallyForTryStatement"
    [span "expected_catch_or_finally", span "try_token"]
    (on ["expected_catch_or_finally"] "missing catch or finally clause for try statement")
    [on ["try_token"] "try statement starts here"],
  error "E130" "MissingCatchVariableBetweenParentheses"
    [span "left_paren", span "right_paren"]
    (onPlace (.merge "left_paren" "right_paren") []
      "missing catch variable name between parentheses") [],
  error "E025" "MissingCommaBetweenObjectLiteralEntries"
    [span "location"]
    (on ["location"] "missing comma between object literal entries") [],
  error "E132" "MissingCommaBetweenVariableDeclarations"
    [span "expected_comma"]
    (on ["expected_comma"] "missing ',' between variable declarations") [],
  error "E146" "MissingColonInConditionalExpression"
    [span "expected_colon", span "question"]
    (on ["expected_colon"] "missing ':' in conditional expression")
    [on ["question"] "'?' creates a conditional expression"],
  error "E138" "MissingConditionForIfStatement"
    [span "if_keyword"]
    (on ["if_keyword"] "missing condition for if statement") [],
  error "E139" "MissingConditionForWhileStatement"
    [span "while_keyword"]
    (on ["while_keyword"] "missing condition for while statement") [],
  error "E137" "MissingConditionForSwitchStatement"
    [span "switch_keyword"]
    (on ["switch_keyword"] "missing condition for switch statement") [],
  error "E078" "MissingExpressionBetweenParentheses"
    [span "left_paren", span "right_paren"]
    (onPlace (.merge "left_paren" "right_paren") [] "missing expression between parentheses") [],
  error "E125" "MissingForLoopHeader"
    [span "for_token"]
    (on ["for_token"] "missing header and body for 'for' loop") [],
  error "E097" "MissingForLoopRhsOrComponentsAfterExpression"
    [span "header", span "for_token"]
    (on ["header"] "for loop needs an iterable, or condition and update clauses")
    [on ["for_token"] "use 'while' instead to loop until a condition is false"],
  error "E098" "MissingForLoopRhsOrComponentsAfterDeclaration"
    [span "header", span "for_token"]
    (on ["header"] "for loop needs an iterable, or condition and update clauses") [],
  error "E073" "MissingFunctionParameterList"
    [span "function_name"]
    (on ["function_name"] "missing function parameter list") [],
  error "E096" "MissingHeaderOfForLoop"
    [span "location"]
    (on ["location"] "missing for loop header") [],
  error "E154" "MissingKeyForObjectEntry"
    [span "expression"]
    (on ["expression"] "unexpected expression; missing key for object entry") [],
  error "E061" "MissingNameInFunctionStatement"
    [span "location"]
    (on ["location"] "missing name in function statement") [],
  error "E080" "MissingNameInClassStatement"
    [span "class_keyword"]
    (on ["class_keyword"] "missing name of class") [],
  error "E081" "MissingNameOfExportedClass"
    [span "class_keyword"]
    (on ["class_keyword"] "missing name of exported class") [],
  error "E079" "MissingNameOfExportedFunction"
    [span "function_keyword"]
    (on ["function_keyword"] "missing name of exported function") [],
  error "E062" "MissingNameOrParenthesesForFunction"
    [span "location", span "function"]
    (on ["location"] "missing name or parentheses for function") [],
  error "E026" "MissingOperandForOperator"
    [span "location"]
    (on ["location"] "missing operand for operator") [],
  error "E063" "MissingOperatorBetweenExpressionAndArrowFunction"
    [span "location"]
    (on ["location"] "missing operator between expression and arrow function") [],
  error "E142" "MissingPropertyNameForDotOperator"
    [span "dot"]
    (on ["dot"] "missing property name after '.' operator") [],
  error "E027" "MissingSemicolonAfterStatement"
    [span "location"]
    (on ["location"] "missing semicolon after statement") [],
  error "E100" "MissingSemicolonBetweenForLoopConditionAndUpdate"
    [span "expected_semicolon"]
    (on ["expected_semicolon"]
      "missing semicolon between condition and update parts of for loop") [],
  error "E099" "MissingSemicolonBetweenForLoopInitAndCondition"
    [span "expected_semicolon"]
    (on ["expected_semicolon"] "missing semicolon between init and condition parts of for loop") [],
  error "E113" "MissingTokenAfterExport"
    [span "export_token"]
    (on ["export_token"]
      ("incomplete export; expected 'export default ...' or 'export \x7b\x7bname\x7d' "
        ++ "or 'export * from ...' or 'export class' or 'export function' or 'export let'")) [],
  error "E083" "MissingValueForObjectLiteralEntry"
    [span "key"]
    (on ["key"] "missing value for object property") [],
  error "E123" "MissingVariableNameInDeclaration"
    [span "equal_token"]
    (on ["equal_token"] "missing variable name") [],
  error "E103" "MissingWhileAndConditionForDoWhileStatement"
    [span "do_token", span "expected_while"]
    (on ["expected_while"] "missing 'while (condition)' for do-while statement")
    [on ["do_token"] "do-while statement starts here"]]

end LintCore.Catalogue
