/-!
Pipes: sources of bytes that can be read piece by piece. A read of no bytes is the end of the
stream. A pipe that does not block tells by an error that there is nothing to read yet, and can then
be waited for.
-/

set_option autoImplicit false
set_option relaxedAutoImplicit false

namespace LintCore

namespace Pipe

/-- The kinds of failure that a reader can tell apart. -/
inductive ErrorKind where
  | wouldBlock
  | interrupted
  | brokenPipe
  | unexpectedEof
  | timedOut
  | other
deriving DecidableEq

structure Error where
  kind : ErrorKind
  text : String
deriving DecidableEq

end Pipe

/-- What can be done with a pipe whose condition is a `σ`. -/
structure Pipe (σ : Type) where
  nonBlocking : σ → Bool
  /-- Reads at most a number of bytes. -/
  read : Nat → σ → Except Pipe.Error (List UInt8) × σ
  /-- Waits until there is something to read. -/
  wait : σ → Except Pipe.Error Unit × σ

namespace Pipe

/-- A pipe around a reader that blocks. A read lasts until it has an answer, so there is nothing to
wait for. -/
def blocking {σ : Type} (read : Nat → σ → Except Error (List UInt8) × σ) : Pipe σ where
  nonBlocking _ := false
  read := read
  wait condition := (.ok (), condition)

/-- Reads bytes that are in memory: as many as are asked for, or else all that are left. -/
def readMemory (count : Nat) (bytes : List UInt8) : Except Error (List UInt8) × List UInt8 :=
  (.ok (bytes.take count), bytes.drop count)

end Pipe

end LintCore
