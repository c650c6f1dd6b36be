import LintCore.Diagnostic.Basic

/-!
Diagnostics for a terminal: the message, the line of the source with carets under the fault, and the
notes. Columns in locations count bytes; the carets are laid out in characters, so they stand under
the right text also behind characters of several bytes. Colour adds escape sequences around the
words for severities and changes nothing else.
-/

set_option autoImplicit false
set_option relaxedAutoImplicit false

namespace LintCore

namespace Terminal

/-- What a terminal shows a severity in. -/
def style : Severity → String
  | .error => "1;31"
  | .warning => "1;33"
  | .note => "1;36"

/-- The word for a severity, in colour or not. -/
def severityLabel (colored : Bool) (severity : Severity) : String :=
  if colored then "\x1b[" ++ style severity ++ "m" ++ severity.word ++ "\x1b[0m" else severity.word

/-- The number of characters between two byte columns of a line; of bytes, if a column falls inside
a character. -/
def width (line : List Char) (start stop : Nat) : Nat :=
  match Text.sliceBytes? start stop line with
  | some text => text.length
  | none => stop - start

/-- How far the carets are indented, and how many there are, for a fault that covers `length` bytes
from a byte column on. They end with the line, and there is at least one. -/
def underline (line : List Char) (column length : Nat) : Nat × Nat :=
  let start := min column (Text.byteLength line)
  let stop := min (start + length) (Text.byteLength line)
  (width line 0 start, max (width line start stop) 1)

def blanks (count : Nat) : String := String.ofList (List.replicate count ' ')

def carets (count : Nat) : String := String.ofList (List.replicate count '^')

/-- The line of the source that the fault is on, between its location and its carets. -/
def excerpt (source : Source) (span : Span) : List String :=
  let position := source.position span.start
  let number := toString position.line.toNat
  let gutter := blanks number.length
  let line := source.lineText span.start
  let (indent, count) :=
    underline line.toList (position.column.toNat - 1) span.length.toNat
  [gutter ++ "--> " ++ (source.locate span).render,
    gutter ++ " |",
    number ++ " | " ++ line,
    gutter ++ " | " ++ blanks indent ++ carets count]

/-- A note and its location, below an excerpt with the given gutter. -/
def noteLines (colored : Bool) (source : Source) (gutter : String) (note : Message) : List String :=
  [gutter ++ " = " ++ severityLabel colored .note ++ ": " ++ note.format source,
    gutter ++ "   --> " ++ (source.locate note.anchor).render]

/-- The output for a diagnostic at a severity, line by line. -/
def lines (colored : Bool) (source : Source) (diagnostic : Diagnostic) (severity : Severity) :
    List String :=
  let primary := diagnostic.primary
  let number := toString (source.position primary.anchor.start).line.toNat
  let header := severityLabel colored severity ++ "[" ++ diagnostic.code.text ++ "]: "
    ++ primary.format source
  header :: excerpt source primary.anchor
    ++ diagnostic.notes.flatMap (noteLines colored source (blanks number.length))

def render (colored : Bool) (source : Source) (diagnostic : Diagnostic) (severity : Severity) :
    String :=
  String.join ((lines colored source diagnostic severity).map (· ++ "\n"))

end Terminal

end LintCore
