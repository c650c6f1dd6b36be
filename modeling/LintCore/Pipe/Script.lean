import LintCore.Pipe.Basic

/-!
A script says what the reads and waits of a pipe will come to. More data than a read asks for stays
for the next read. At the end of the script reads fail and waits succeed.
-/

set_option autoImplicit false
set_option relaxedAutoImplicit false

namespace LintCore

namespace Pipe

inductive Step where
  | data (bytes : List UInt8)
  | fail (error : Error)
deriving DecidableEq

structure Script where
  steps : List Step
  /-- The failures of the waits to come; none where a wait succeeds. -/
  waits : List (Option Error)
deriving DecidableEq

namespace Script

def endOfScript : Error := ⟨.other, "<other>"⟩

def read (count : Nat) (script : Script) : Except Error (List UInt8) × Script :=
  match script.steps with
  | [] => (.error endOfScript, script)
  | .fail error :: rest => (.error error, { script with steps := rest })
  | .data bytes :: rest =>
    if bytes.length ≤ count then (.ok bytes, { script with steps := rest })
    else (.ok (bytes.take count), { script with steps := .data (bytes.drop count) :: rest })

def wait (script : Script) : Except Error Unit × Script :=
  match script.waits with
  | [] => (.ok (), script)
  | failure? :: rest =>
    (match failure? with
      | none => .ok ()
      | some error => .error error,
      { script with waits := rest })

/-- The number of reads that it takes, at most, to come to the end of the steps. -/
def reads : List Step → Nat
  | [] => 0
  | .data bytes :: rest => bytes.length + 1 + reads rest
  | .fail _ :: rest => 1 + reads rest

/-- Enough turns for a loop to come to an end: a wait after each read, and the end of the script. -/
def turns (script : Script) : Nat := 2 * reads script.steps + 1

/-- A pipe that does what the script says. -/
def pipe (nonBlocking : Bool) : Pipe Script where
  nonBlocking _ := nonBlocking
  read := read
  wait := wait

/-- A pipe around a blocking reader that reads what the script says. -/
def reader : Pipe Script := blocking read

end Script

end Pipe

end LintCore
