import LintCore.Toml.Node
import LintCore.Toml.Scalar

/-!
Reading TOML documents, version 1.0. A document is read line by line into a draft; values are read
by functions that call each other, with fuel for the length of the text and a limit to the depth.
-/

set_option autoImplicit false
set_option relaxedAutoImplicit false

namespace LintCore.Toml

/-! ### Between values -/

/-- What follows blanks, line ends and comments. A comment holds no control characters. -/
def skipTrivia : (inComment : Bool) → List Char → Option (List Char)
  | _, [] => some []
  | inComment, c :: rest =>
    if c == '\n' then skipTrivia false rest
    else if c == '\r' && rest.head? == some '\n' then skipTrivia inComment rest
    else if inComment then if isPrintable c then skipTrivia true rest else none
    else if isSpace c then skipTrivia false rest
    else if c == '#' then skipTrivia true rest
    else some (c :: rest)

/-- What follows the rest of a line that has nothing more than blanks and a comment in it. -/
def endLine? (text : List Char) : Option (List Char) :=
  let rest := skipSpace text
  let rest := if rest.head? == some '#' then rest.tail.dropWhile isPrintable else rest
  if rest.isEmpty then some [] else newline? rest

/-! ### Values -/

mutual

/-- A value inside `depth` others. -/
def value? : (fuel depth : Nat) → List Char → Option (Toml × List Char)
  | 0, _, _ => none
  | fuel + 1, depth, text =>
    match text with
    | [] => none
    | c :: rest =>
      if c == '"' || c == '\'' then
        (string? text).map fun (content, rest) ↦ (.string content, rest)
      else if c == '[' then
        if depth + 1 < depthLimit then
          (items? fuel (depth + 1) rest).map fun (items, rest) ↦ (.array items, rest)
        else none
      else if c == '\x7b' then
        if depth + 1 < depthLimit then
          (inlineTable? fuel (depth + 1) rest).map fun (entries, rest) ↦
            (.table (Node.toValues entries), rest)
        else none
      else scalar? text

/-- The items of an array behind its bracket. -/
def items? : (fuel depth : Nat) → List Char → Option (List Toml × List Char)
  | 0, _, _ => none
  | fuel + 1, depth, text => do
    match ← skipTrivia false text with
    | ']' :: rest => return ([], rest)
    | rest =>
      let (item, rest) ← value? fuel depth rest
      match ← skipTrivia false rest with
      | ',' :: rest =>
        let (items, rest) ← items? fuel depth rest
        return (item :: items, rest)
      | ']' :: rest => return ([item], rest)
      | _ => none

/-- The entries of an inline table behind its brace. -/
def inlineTable? : (fuel depth : Nat) → List Char → Option (Entries × List Char)
  | 0, _, _ => none
  | fuel + 1, depth, text =>
    match skipSpace text with
    | '\x7d' :: rest => some ([], rest)
    | rest => inlineEntries? fuel depth [] rest

/-- The entries of an inline table, of which there is at least one to come. -/
def inlineEntries? : (fuel depth : Nat) → Entries → List Char → Option (Entries × List Char)
  | 0, _, _, _ => none
  | fuel + 1, depth, entries, text => do
    let ((path, key), rest) ← key? text
    let (value, rest) ← value? fuel depth (skipSpace (← expect? '=' rest))
    let entries ← Node.assign path key value entries
    match skipSpace rest with
    | ',' :: rest => inlineEntries? fuel depth entries rest
    | '\x7d' :: rest => return (entries, rest)
    | _ => none

end

/-! ### Documents -/

/-- A header behind its first bracket, without the line end. -/
def header? (draft : Draft) (text : List Char) : Option (Draft × List Char) := do
  match text with
  | '[' :: rest =>
    let ((path, key), rest) ← key? rest
    return (← draft.openItem path key, ← expect? ']' (← expect? ']' rest))
  | rest =>
    let ((path, key), rest) ← key? rest
    return (← draft.openTable path key, ← expect? ']' rest)

/-- A line of a document: nothing, a header, or a key with its value. -/
def line? (draft : Draft) (text : List Char) : Option (Draft × List Char) := do
  match skipSpace text with
  | [] => return (draft, [])
  | '[' :: rest =>
    let (draft, rest) ← header? draft rest
    return (draft, ← endLine? rest)
  | c :: rest =>
    if c == '#' || c == '\n' || c == '\r' then return (draft, ← endLine? (c :: rest)) else
      let ((path, key), rest) ← key? (c :: rest)
      let rest := skipSpace (← expect? '=' rest)
      let (value, rest) ← value? (2 * rest.length + 2) 0 rest
      return (← draft.assign path key value, ← endLine? rest)

/-- The lines of a document, each of which takes one unit of fuel. -/
def lines? : (fuel : Nat) → Draft → List Char → Option Toml
  | _, draft, [] => draft.finish
  | 0, _, _ => none
  | fuel + 1, draft, text => do
    let (draft, rest) ← line? draft text
    lines? fuel draft rest

/-- The table of a document, if it is one. A byte order mark at its head does not count. -/
def parse? (document : String) : Option Toml :=
  let text := match document.toList with
    | '\ufeff' :: rest => rest
    | text => text
  lines? text.length {} text

end LintCore.Toml
