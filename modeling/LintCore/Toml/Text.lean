import LintCore.Text.Digits

/-!
Texts in TOML: strings in one of four kinds of quotes, and bare words. A basic string has escapes, a
literal one has none. A string in three quotes may have line ends in it, which count as `\n` however
they are written, and a quote or two before the closing ones belong to it.

Each reader takes a text at the head of its input, and answers with what follows it.
-/

set_option autoImplicit false
set_option relaxedAutoImplicit false

namespace LintCore.Toml

/-- Space or tab. -/
def isSpace (c : Char) : Bool := c == ' ' || c == '\t'

def skipSpace (text : List Char) : List Char := text.dropWhile isSpace

/-- Characters that may stand in a line: the tab and everything that is no control. -/
def isPrintable (c : Char) : Bool := c == '\t' || (0x20 ≤ c.toNat && c.toNat ≠ 0x7f)

/-- The character of a code point, unless it is half of a pair. -/
def charOf? (code : Nat) : Option Char := if code.isValidChar then some (Char.ofNat code) else none

/-- The character behind a backslash, where one letter says it. -/
def unescape? : Char → Option Char
  | 'b' => some '\x08'
  | 't' => some '\t'
  | 'n' => some '\n'
  | 'f' => some '\x0c'
  | 'r' => some '\r'
  | '"' => some '"'
  | '\\' => some '\\'
  | _ => none

/-- The character that an escape stands for, and the number of characters behind the backslash. -/
def escape? : List Char → Option (Char × Nat)
  | 'u' :: rest =>
    if rest.length < 4 then none else
      (Text.natIn? 16 (rest.take 4)).bind fun code ↦ (charOf? code).map fun c ↦ (c, 5)
  | 'U' :: rest =>
    if rest.length < 8 then none else
      (Text.natIn? 16 (rest.take 8)).bind fun code ↦ (charOf? code).map fun c ↦ (c, 9)
  | c :: _ => (unescape? c).map fun c ↦ (c, 1)
  | [] => none

/-- A line end at the head of a text. -/
def newline? : List Char → Option (List Char)
  | '\n' :: rest => some rest
  | '\r' :: '\n' :: rest => some rest
  | _ => none

/-! ### Strings in one line -/

/-- A basic string behind its quote, of which the first `skipped` characters have been read. -/
def basicFrom : (skipped : Nat) → List Char → Option (List Char × List Char)
  | _, [] => none
  | skipped + 1, _ :: rest => basicFrom skipped rest
  | 0, c :: rest =>
    if c == '"' then some ([], rest)
    else if c == '\\' then do
      let (c, length) ← escape? rest
      let (content, rest) ← basicFrom length rest
      return (c :: content, rest)
    else if isPrintable c then
      (basicFrom 0 rest).map fun (content, rest) ↦ (c :: content, rest)
    else none

/-- A literal string behind its quote. -/
def literal : List Char → Option (List Char × List Char)
  | [] => none
  | c :: rest =>
    if c == '\'' then some ([], rest)
    else if isPrintable c then (literal rest).map fun (content, rest) ↦ (c :: content, rest)
    else none

/-! ### Strings in several lines -/

/-- The number of quotes at the head of a text, as far as they can end a string. -/
def quotes (quote : Char) (text : List Char) : Nat :=
  ((text.take 5).takeWhile (· == quote)).length

/-- Whether a backslash before this text ends the line and takes the blanks after it away. -/
def isContinued (text : List Char) : Bool := (newline? (skipSpace text)).isSome

/-- What has to be done with the characters to come. -/
inductive Pending where
  | nothing
  /-- So many have been read already. -/
  | skip (count : Nat)
  /-- Blanks and line ends are left out. -/
  | trim

/-- A basic string in three quotes, behind its opening ones. -/
def longBasic : Pending → List Char → Option (List Char × List Char)
  | _, [] => none
  | .skip (count + 2), _ :: rest => longBasic (.skip (count + 1)) rest
  | .skip 1, _ :: rest => longBasic .nothing rest
  | pending, c :: rest =>
    let trimming := match pending with
      | .trim => true
      | _ => false
    if trimming && (isSpace c || c == '\n') then longBasic .trim rest
    else if c == '\r' then
      if rest.head? == some '\n' then longBasic pending rest else none
    else if c == '\n' then
      (longBasic .nothing rest).map fun (content, rest) ↦ ('\n' :: content, rest)
    else if c == '"' then
      let count := quotes '"' (c :: rest)
      if 3 ≤ count then some (List.replicate (count - 3) '"', rest.drop (count - 1))
      else (longBasic .nothing rest).map fun (content, rest) ↦ (c :: content, rest)
    else if c == '\\' then
      if isContinued rest then longBasic .trim rest else do
        let (c, length) ← escape? rest
        let (content, rest) ← longBasic (.skip length) rest
        return (c :: content, rest)
    else if isPrintable c then
      (longBasic .nothing rest).map fun (content, rest) ↦ (c :: content, rest)
    else none

/-- A literal string in three quotes, behind its opening ones. -/
def longLiteral : List Char → Option (List Char × List Char)
  | [] => none
  | c :: rest =>
    if c == '\r' then
      if rest.head? == some '\n' then longLiteral rest else none
    else if c == '\'' then
      let count := quotes '\'' (c :: rest)
      if 3 ≤ count then some (List.replicate (count - 3) '\'', rest.drop (count - 1))
      else (longLiteral rest).map fun (content, rest) ↦ (c :: content, rest)
    else if c == '\n' || isPrintable c then
      (longLiteral rest).map fun (content, rest) ↦ (c :: content, rest)
    else none

/-- A line end right behind the opening quotes does not count. -/
def dropFirstNewline (text : List Char) : List Char := (newline? text).getD text

def string? : List Char → Option (String × List Char)
  | '"' :: '"' :: '"' :: rest => finish (longBasic .nothing (dropFirstNewline rest))
  | '"' :: rest => finish (basicFrom 0 rest)
  | '\'' :: '\'' :: '\'' :: rest => finish (longLiteral (dropFirstNewline rest))
  | '\'' :: rest => finish (literal rest)
  | _ => none
where
  finish (result : Option (List Char × List Char)) : Option (String × List Char) :=
    result.map fun (content, rest) ↦ (String.ofList content, rest)

/-! ### Keys -/

def isBare (c : Char) : Bool := c.isAlphanum || c == '_' || c == '-'

/-- One part of a key. -/
def simpleKey? : List Char → Option (String × List Char)
  | '"' :: rest => (basicFrom 0 rest).map fun (content, rest) ↦ (String.ofList content, rest)
  | '\'' :: rest => (literal rest).map fun (content, rest) ↦ (String.ofList content, rest)
  | text =>
    match text.takeWhile isBare with
    | [] => none
    | word => some (String.ofList word, text.dropWhile isBare)

/-- The parts of a key, with blanks around them or not. Each part takes one unit of fuel. -/
def keyParts? : (fuel : Nat) → List Char → Option (List String × List Char)
  | 0, _ => none
  | fuel + 1, text => do
    let (part, rest) ← simpleKey? (skipSpace text)
    match skipSpace rest with
    | '.' :: rest => do
      let (parts, rest) ← keyParts? fuel rest
      return (part :: parts, rest)
    | rest => return ([part], rest)

/-- How deep values and keys may be nested. -/
def depthLimit : Nat := 80

/-- A key: the parts before the last dot, and the last one. -/
def key? (text : List Char) : Option ((List String × String) × List Char) := do
  let (parts, rest) ← keyParts? depthLimit text
  let last ← parts.getLast?
  if parts.length < depthLimit then return ((parts.dropLast, last), rest) else none

end LintCore.Toml
