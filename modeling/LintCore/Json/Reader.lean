import LintCore.Json.Number

/-!
Reading JSON text. A string is first cut into units, characters and 16-bit escapes, and then the
escapes are joined to characters, two for one beyond the first plane. The reader of values takes
fuel for the depth of its calls; the length of the text is always enough of it.
-/

set_option autoImplicit false
set_option relaxedAutoImplicit false

namespace LintCore.Json

/-! ### Strings -/

/-- A piece of a string between quotes. -/
inductive StringUnit where
  | plain (c : Char)
  /-- Sixteen bits, as `\u` gives them. -/
  | word (value : Nat)

/-- The unit that four hexadecimal digits write. -/
def word? (a b c d : Char) : Option StringUnit := (Text.natIn? 16 [a, b, c, d]).map .word

/-- The character behind a backslash, where one letter says it. -/
def unescape? : Char → Option Char
  | '"' => some '"'
  | '\\' => some '\\'
  | '/' => some '/'
  | 'b' => some '\x08'
  | 'f' => some '\x0c'
  | 'n' => some '\n'
  | 'r' => some '\r'
  | 't' => some '\t'
  | _ => none

/-- The units up to the closing quote, and what follows it. -/
def units? : List Char → Option (List StringUnit × List Char)
  | [] => none
  | '"' :: rest => some ([], rest)
  | '\\' :: 'u' :: a :: b :: c :: d :: rest => do
    let unit ← word? a b c d
    let (units, rest) ← units? rest
    return (unit :: units, rest)
  | '\\' :: c :: rest => do
    let c ← unescape? c
    let (units, rest) ← units? rest
    return (.plain c :: units, rest)
  | c :: rest =>
    if c.toNat < 0x20 then none else
      (units? rest).map fun (units, rest) ↦ (.plain c :: units, rest)

def isHighSurrogate (value : Nat) : Bool := 0xd800 ≤ value && value < 0xdc00
def isLowSurrogate (value : Nat) : Bool := 0xdc00 ≤ value && value < 0xe000

/-- The characters that units stand for. Half a pair stands for none. -/
def join? : List StringUnit → Option (List Char)
  | [] => some []
  | .plain c :: rest => (join? rest).map (c :: ·)
  | .word high :: .word low :: rest =>
    if isHighSurrogate high && isLowSurrogate low then
      (join? rest).map (Char.ofNat (0x10000 + (high - 0xd800) * 0x400 + (low - 0xdc00)) :: ·)
    else if isHighSurrogate high || isLowSurrogate high then none
    else (join? (.word low :: rest)).map (Char.ofNat high :: ·)
  | .word value :: rest =>
    if isHighSurrogate value || isLowSurrogate value then none
    else (join? rest).map (Char.ofNat value :: ·)

/-- A string whose opening quote has been read. -/
def string? (text : List Char) : Option (String × List Char) := do
  let (units, rest) ← units? text
  let chars ← join? units
  return (String.ofList chars, rest)

/-! ### Values -/

def isSpace (c : Char) : Bool := c == ' ' || c == '\t' || c == '\n' || c == '\r'

def skipSpace (text : List Char) : List Char := text.dropWhile isSpace

def isNumberChar (c : Char) : Bool :=
  c.isDigit || c == '-' || c == '+' || c == '.' || c == 'e' || c == 'E'

mutual

/-- A value at the head of a text, and what follows it. -/
def value? : Nat → List Char → Option (Json × List Char)
  | 0, _ => none
  | fuel + 1, text =>
    match skipSpace text with
    | 'n' :: 'u' :: 'l' :: 'l' :: rest => some (null, rest)
    | 't' :: 'r' :: 'u' :: 'e' :: rest => some (bool true, rest)
    | 'f' :: 'a' :: 'l' :: 's' :: 'e' :: rest => some (bool false, rest)
    | '"' :: rest => (string? rest).map fun (text, rest) ↦ (str text, rest)
    | '[' :: rest =>
      match skipSpace rest with
      | ']' :: rest => some (arr [], rest)
      | rest => (items? fuel rest).map fun (items, rest) ↦ (arr items, rest)
    | '\x7b' :: rest =>
      match skipSpace rest with
      | '\x7d' :: rest => some (obj [], rest)
      | rest => (entries? fuel [] rest).map fun (entries, rest) ↦ (obj entries, rest)
    | text =>
      (number? (text.takeWhile isNumberChar)).map fun value ↦ (value, text.dropWhile isNumberChar)

/-- Items up to the closing bracket. -/
def items? : Nat → List Char → Option (List Json × List Char)
  | 0, _ => none
  | fuel + 1, text => do
    let (item, rest) ← value? fuel text
    match skipSpace rest with
    | ',' :: rest =>
      let (items, rest) ← items? fuel rest
      return (item :: items, rest)
    | ']' :: rest => return ([item], rest)
    | _ => none

/-- Entries up to the closing brace, sorted in among those read before. -/
def entries? : Nat → List (String × Json) → List Char → Option (List (String × Json) × List Char)
  | 0, _, _ => none
  | fuel + 1, before, text =>
    match skipSpace text with
    | '"' :: rest => do
      let (key, rest) ← string? rest
      match skipSpace rest with
      | ':' :: rest =>
        let (value, rest) ← value? fuel rest
        match skipSpace rest with
        | ',' :: rest => entries? fuel (insert key value before) rest
        | '\x7d' :: rest => return (insert key value before, rest)
        | _ => none
      | _ => none
    | _ => none

end

/-- The value that a text writes from end to end. -/
def parse? (text : String) : Option Json :=
  let chars := text.toList
  match value? (chars.length + 1) chars with
  | some (value, rest) => if (skipSpace rest).isEmpty then some value else none
  | none => none

end LintCore.Json
