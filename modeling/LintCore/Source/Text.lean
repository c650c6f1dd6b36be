import LintCore.Source.Position
import LintCore.Source.Span
import LintCore.Text.Offset

/-!
The analysed text, with the table of offsets at which its lines start. Lines end at `\n`, at `\r\n`
and at a `\r` that no `\n` follows. Offsets count bytes, and one past the end of the text stands for
the end.
-/

set_option autoImplicit false
set_option relaxedAutoImplicit false

namespace LintCore

open Text

/-! ### Where lines start -/

/-- Whether the character ends a line, given what follows it. -/
def endsLine (c : Char) (rest : List Char) : Bool :=
  c == '\n' || (c == '\r' && rest.head? != some '\n')

/-- The offset after each line terminator of a text that starts at `offset`. -/
def terminatorEnds (offset : Nat) : List Char → List Nat
  | [] => []
  | c :: rest =>
    let next := offset + c.utf8Size
    if endsLine c rest then next :: terminatorEnds next rest else terminatorEnds next rest

/-- The offset of each line, the first of which is zero. -/
def lineStarts (text : List Char) : Array UInt32 :=
  (0 :: (terminatorEnds 0 text).map UInt32.ofNat).toArray

theorem lineStarts_size_pos (text : List Char) : 0 < (lineStarts text).size := by
  simp [lineStarts]

/-- An analysed file. The table of line starts is made once, with the text. -/
structure Source where
  path : String
  content : String
  starts : Array UInt32 := lineStarts content.toList
  starts_eq : starts = lineStarts content.toList := by rfl

namespace Source

def ofContent (path content : String) : Source := { path, content }

def chars (source : Source) : List Char := source.content.toList

/-- The number of bytes, as far as an offset can tell. -/
def length (source : Source) : UInt32 :=
  UInt32.ofNat (min (byteLength source.chars) (UInt32.size - 1))

/-! ### Positions -/

/-- Bisection: of the lines `low` to `high - 1`, the last one that starts at or before `offset`, or
`low` if none does. -/
def searchLine (starts : Array UInt32) (offset : UInt32) (low high : Nat)
    (hhigh : high ≤ starts.size) : Nat :=
  if h : low + 1 < high then
    let middle := (low + high) / 2
    have hmiddle : middle < starts.size := by omega
    if starts[middle] ≤ offset then searchLine starts offset middle high hhigh
    else searchLine starts offset low middle (by omega)
  else low
termination_by high - low

theorem searchLine_lt (starts : Array UInt32) (offset : UInt32) (low high : Nat)
    (hhigh : high ≤ starts.size) (hlow : low < high) :
    searchLine starts offset low high hhigh < high := by
  fun_induction searchLine starts offset low high hhigh with
  | case1 low high hhigh h middle hmiddle hle ih => exact ih (by omega)
  | case2 low high hhigh h middle hmiddle hle ih => exact Nat.lt_trans (ih (by omega)) (by omega)
  | case3 low high hhigh h => exact hlow

/-- The line that starts at `offset`, or else the place in the table that this start would take. -/
def findStart (starts : Array UInt32) (offset : UInt32) : Except Nat Nat :=
  if h : 0 < starts.size then
    let line := searchLine starts offset 0 starts.size (Nat.le_refl _)
    have hline : line < starts.size := searchLine_lt starts offset 0 _ _ h
    if starts[line] = offset then .ok line
    else if starts[line] < offset then .error (line + 1)
    else .error line
  else .error 0

theorem findStart_cases (starts : Array UInt32) (offset : UInt32) (hsize : 0 < starts.size) :
    let line := searchLine starts offset 0 starts.size (Nat.le_refl _)
    ∃ hline : line < starts.size,
      starts[line] = offset ∧ findStart starts offset = .ok line ∨
        starts[line] < offset ∧ findStart starts offset = .error (line + 1) ∨
          offset < starts[line] ∧ findStart starts offset = .error line := by
  intro line
  have hline : line < starts.size := searchLine_lt starts offset 0 _ _ hsize
  refine ⟨hline, ?_⟩
  unfold findStart
  rw [dif_pos hsize]
  by_cases hstart : starts[line] = offset
  · exact .inl ⟨hstart, if_pos hstart⟩
  · by_cases hbefore : starts[line] < offset
    · exact .inr (.inl ⟨hbefore, (if_neg hstart).trans (if_pos hbefore)⟩)
    · exact .inr (.inr ⟨UInt32.lt_of_le_of_ne (UInt32.not_lt.mp hbefore) (Ne.symm hstart),
        (if_neg hstart).trans (if_neg hbefore)⟩)

/-- The line of an offset inside the text, counted from zero: the one that starts there, or the one
before the place that such a line would take. -/
def lineIndex (source : Source) (offset : UInt32) : Nat :=
  match findStart source.starts offset with
  | .ok line => line
  | .error place => place - 1

theorem starts_size_pos (source : Source) : 0 < source.starts.size := by
  rw [source.starts_eq]
  exact lineStarts_size_pos _

theorem lineIndex_lt (source : Source) (offset : UInt32) :
    source.lineIndex offset < source.starts.size := by
  obtain ⟨hline, ⟨-, hfound⟩ | ⟨-, hfound⟩ | ⟨-, hfound⟩⟩ :=
    findStart_cases source.starts offset source.starts_size_pos <;> rw [lineIndex, hfound]
  · exact hline
  · exact hline
  · exact Nat.lt_of_le_of_lt (Nat.sub_le _ _) hline

/-- Where the line of an offset inside the text starts. -/
def lineStart (source : Source) (offset : UInt32) : UInt32 :=
  have hline := source.lineIndex_lt offset
  source.starts[source.lineIndex offset]

/-- The line and byte column of an offset. -/
def position (source : Source) (offset : UInt32) : Position :=
  let inside := min offset source.length
  ⟨UInt32.ofNat (source.lineIndex inside) + 1, inside - source.lineStart inside + 1⟩

/-- The places of the first and of the last byte of a span. A span without bytes has its start as
both. -/
def locate (source : Source) (span : Span) : Location where
  path := source.path
  first := source.position span.start
  last := source.position (max (span.stop - min span.stop 1) span.start)

/-! ### Pieces of the text -/

/-- The text that a span covers, cut off at the end of the file. A span that splits a character
covers nothing. -/
def snippet (source : Source) (span : Span) : String :=
  let stop := min span.stop.toNat (byteLength source.chars)
  let start := min span.start.toNat stop
  String.ofList ((sliceBytes? start stop source.chars).getD [])

/-- Without the carriage returns and line feeds at its end. -/
def dropLineEnd (text : List Char) : List Char :=
  (text.reverse.dropWhile fun c ↦ c == '\n' || c == '\r').reverse

/-- The line that an offset is on, without its terminator. -/
def lineText (source : Source) (offset : UInt32) : String :=
  let line := source.lineIndex (min offset source.length)
  let start := (source.starts[line]?.getD 0).toNat
  let stop := (source.starts[line + 1]?.map UInt32.toNat).getD (byteLength source.chars)
  String.ofList (dropLineEnd ((sliceBytes? start stop source.chars).getD []))

end Source

end LintCore
