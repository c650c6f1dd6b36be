import LintCore.Text.Glyph

/-!
A text in double quotes, on one line, as error messages show it. Quotes, backslashes and the usual
controls have an escape of two characters; any other character without a glyph is written as its
code point in hexadecimal.
-/

set_option autoImplicit false
set_option relaxedAutoImplicit false

namespace LintCore.Text

/-- The code point of a character, without leading zeros. -/
def hexDigits (c : Char) : List Char := Nat.toDigits 16 c.toNat

/-- One character of a quoted text. -/
def quoteChar (c : Char) : List Char :=
  match c with
  | '\x00' => ['\\', '0']
  | '\t' => ['\\', 't']
  | '\n' => ['\\', 'n']
  | '\r' => ['\\', 'r']
  | '"' => ['\\', '"']
  | '\\' => ['\\', '\\']
  | c => if hasGlyph c then [c] else '\\' :: 'u' :: '\x7b' :: (hexDigits c ++ ['\x7d'])

def quote (text : String) : String :=
  String.ofList ('"' :: (text.toList.flatMap quoteChar ++ ['"']))

example : quote "a\"\u0301" = "\"a\\\"\\u\x7b301\x7d\"" := by decide +kernel

end LintCore.Text
