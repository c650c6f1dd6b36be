import LintCore.Text.Digits

/-!
Message templates. A template is text with holes: `{0}` stands for the first argument,
`{1:singular}` for the second one in a certain style, and `{{` for a brace. `tokenize` cuts a
template into pieces from left to right. A brace opens a hole only if the text up to the nearest
closing brace is an index, possibly with a style; any other brace stands for itself, and so does
everything else. Every template is therefore well formed.
-/

set_option autoImplicit false
set_option relaxedAutoImplicit false

namespace LintCore

namespace Template

/-- How a hole wants a statement kind to be named. -/
inductive Style where
  | plain
  | headlinese
  | singular
deriving DecidableEq

/-- A piece of a template. A hole remembers how it was written. -/
inductive Piece where
  | literal (c : Char)
  | hole (index : Nat) (style : Style) (written : List Char)
deriving DecidableEq

/-- The number that decimal digits write: at least one of them, and below `2 ^ 64`. -/
def number? (digits : List Char) : Option Nat :=
  if digits.isEmpty || !digits.all Char.isDigit then none else
    if Text.natOf digits < UInt64.size then some (Text.natOf digits) else none

/-- An index is a number, and may have a plus sign. -/
def index? : List Char → Option Nat
  | '+' :: digits => number? digits
  | digits => number? digits

/-- The style that is asked for behind the first colon. -/
def style? : List Char → Option Style
  | [] => some .plain
  | ':' :: word =>
    if word = "headlinese".toList then some .headlinese
    else if word = "singular".toList then some .singular
    else none
  | _ => none

/-- What the text between two braces asks for. -/
def holeBody? (body : List Char) : Option (Nat × Style) := do
  let style ← style? (body.dropWhile (· != ':'))
  let index ← index? (body.takeWhile (· != ':'))
  return (index, style)

/-- The text up to the nearest closing brace, if there is one. -/
def body? : List Char → Option (List Char)
  | [] => none
  | '\x7d' :: _ => some []
  | c :: rest => (body? rest).map (c :: ·)

/-- The pieces of a template of which the first `skipped` characters have been read already. -/
def tokenizeFrom : (skipped : Nat) → List Char → List Piece
  | _, [] => []
  | skipped + 1, _ :: rest => tokenizeFrom skipped rest
  | 0, '\x7b' :: '\x7b' :: rest => .literal '\x7b' :: tokenizeFrom 1 ('\x7b' :: rest)
  | 0, '\x7b' :: rest =>
    match (body? rest).bind fun body ↦ (holeBody? body).map fun hole ↦ (body, hole) with
    | some (body, index, style) =>
      .hole index style ('\x7b' :: body ++ ['\x7d']) :: tokenizeFrom (body.length + 1) rest
    | none => .literal '\x7b' :: tokenizeFrom 0 rest
  | 0, c :: rest => .literal c :: tokenizeFrom 0 rest

/-- The pieces of a template. -/
def tokenize (template : String) : List Piece := tokenizeFrom 0 template.toList

example : tokenize "a{1:singular}" =
    [.literal 'a', .hole 1 .singular "{1:singular}".toList] := by decide +kernel

end Template

end LintCore
