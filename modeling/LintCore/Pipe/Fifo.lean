import LintCore.Pipe.Basic

/-!
A pipe between a writer and a reader: what has been written and not yet read, in order, and whether
the writer has closed its end. The reader learns of new bytes, and of the end, by events: each write
and the close make one pending, and a wait takes it. Events are counted from the first wait on; at
that moment one is pending if there is something to read.

A step that would last until the other side does something has no result.
-/

set_option autoImplicit false
set_option relaxedAutoImplicit false

namespace LintCore

namespace Pipe

inductive Readiness where
  | unregistered
  | registered (pending : Bool)
deriving DecidableEq

/-- Something has happened that a reader may be waiting for. -/
def Readiness.notify : Readiness → Readiness
  | unregistered => unregistered
  | registered _ => registered true

structure Fifo where
  bytes : List UInt8 := []
  closed : Bool := false
  nonBlocking : Bool := true
  readiness : Readiness := .unregistered
deriving DecidableEq

namespace Fifo

def wouldBlock : Error := ⟨.wouldBlock, "Resource temporarily unavailable (os error 11)"⟩

/-- Whether a read has an answer: bytes, or the end. -/
def isReadable (fifo : Fifo) : Bool := !fifo.bytes.isEmpty || fifo.closed

/-- Writes bytes. Writing none of them is no event. -/
def write (bytes : List UInt8) (fifo : Fifo) : Fifo :=
  if bytes.isEmpty then fifo
  else { fifo with bytes := fifo.bytes ++ bytes, readiness := fifo.readiness.notify }

def close (fifo : Fifo) : Fifo :=
  { fifo with closed := true, readiness := fifo.readiness.notify }

/-- Reads at most a number of bytes. Asking for none gives none at once. -/
def read? (count : Nat) (fifo : Fifo) : Option (Except Error (List UInt8) × Fifo) :=
  if count = 0 ∨ fifo.isReadable then
    some (.ok (fifo.bytes.take count), { fifo with bytes := fifo.bytes.drop count })
  else if fifo.nonBlocking then some (.error wouldBlock, fifo)
  else none

/-- Waits for an event. In blocking mode there is nothing to wait for. -/
def wait? (fifo : Fifo) : Option Fifo :=
  if fifo.nonBlocking then
    let pending := match fifo.readiness with
      | .unregistered => fifo.isReadable
      | .registered pending => pending
    if pending then some { fifo with readiness := .registered false } else none
  else some fifo

/-- The reader's end as a pipe. A step without result is told as one that would block. -/
def pipe : Pipe Fifo where
  nonBlocking := nonBlocking
  read count fifo := (fifo.read? count).getD (.error wouldBlock, fifo)
  wait fifo :=
    match fifo.wait? with
    | some fifo => (.ok (), fifo)
    | none => (.error wouldBlock, fifo)

/-- A pipe into which everything has been written, and then closed. -/
def ofBytes (bytes : List UInt8) (nonBlocking : Bool) : Fifo where
  bytes := bytes
  closed := true
  nonBlocking := nonBlocking

/-- Enough turns for a loop to read all that has been written, and once more. -/
def turns (fifo : Fifo) : Nat := fifo.bytes.length + 1

end Fifo

/-! ### A writer that waits for its reader -/

/-- A pipe whose writer writes the next piece whenever the reader begins to wait, and closes its end
when there are no more. -/
structure Fed where
  fifo : Fifo
  pieces : List (List UInt8)

namespace Fed

/-- The writer's turn. -/
def feed (fed : Fed) : Fed :=
  match fed.pieces.dropWhile List.isEmpty with
  | [] => { fifo := fed.fifo.close, pieces := [] }
  | piece :: rest => { fifo := fed.fifo.write piece, pieces := rest }

def pipe : Pipe Fed where
  nonBlocking fed := fed.fifo.nonBlocking
  read count fed :=
    let (result, fifo) := Fifo.pipe.read count fed.fifo
    (result, { fed with fifo })
  wait fed :=
    let fed := fed.feed
    let (result, fifo) := Fifo.pipe.wait fed.fifo
    (result, { fed with fifo })

/-- Enough turns for a loop to read everything: as many as there are bytes, a failed read and a wait
for each piece and for the end, and one for the end itself. -/
def turns (fed : Fed) : Nat :=
  fed.fifo.turns + fed.pieces.foldr (fun piece total ↦ piece.length + 2 + total) 0 + 2

end Fed

end Pipe

end LintCore
