import LintCore.Json.Basic

/-!
The compact text of a JSON value: no blanks, and in a string only quotes, backslashes and the
characters below U+0020 are escaped. Five of these have a short escape; the others are written as
`\u` and four lower-case hexadecimal digits.
-/

set_option autoImplicit false
set_option relaxedAutoImplicit false

namespace LintCore.Json

/-- The lower-case hexadecimal digit of a number below sixteen. -/
def hexDigit (n : Nat) : Char := (Nat.digitChar (n % 16))

/-- One character of a string. -/
def escape (c : Char) : List Char :=
  match c with
  | '"' => ['\\', '"']
  | '\\' => ['\\', '\\']
  | '\x08' => ['\\', 'b']
  | '\x0c' => ['\\', 'f']
  | '\n' => ['\\', 'n']
  | '\r' => ['\\', 'r']
  | '\t' => ['\\', 't']
  | c => if c.toNat < 0x20 then ['\\', 'u', '0', '0', hexDigit (c.toNat / 16), hexDigit c.toNat]
    else [c]

def printString (text : List Char) : List Char := '"' :: (text.flatMap escape ++ ['"'])

def printInt (value : Int) : List Char :=
  if value < 0 then '-' :: Nat.toDigits 10 value.natAbs else Nat.toDigits 10 value.natAbs

mutual

def print : Json → List Char
  | null => "null".toList
  | bool true => "true".toList
  | bool false => "false".toList
  | int value => printInt value
  | float value => (value.render floatStyle).toList
  | str value => printString value.toList
  | arr items => '[' :: (printItems items ++ [']'])
  | obj entries => '\x7b' :: (printEntries entries ++ ['\x7d'])

/-- Items with commas between them. -/
def printItems : List Json → List Char
  | [] => []
  | [item] => print item
  | item :: rest => print item ++ ',' :: printItems rest

/-- Entries with commas between them. -/
def printEntries : List (String × Json) → List Char
  | [] => []
  | [(key, value)] => printString key.toList ++ ':' :: print value
  | (key, value) :: rest =>
    printString key.toList ++ ':' :: (print value ++ ',' :: printEntries rest)

end

def render (value : Json) : String := String.ofList (print value)

end LintCore.Json
