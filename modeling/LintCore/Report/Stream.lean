import LintCore.Policy.Basic
import LintCore.Render.Line

/-!
A stream writes each diagnostic about its source as it is reported, one write for one diagnostic. A
write can fail, and then that diagnostic is lost and nothing else is; a diagnostic that the policy
holds back is not written at all.
-/

set_option autoImplicit false
set_option relaxedAutoImplicit false

namespace LintCore

structure Stream where
  source : Source
  policy : Policy
  /-- Whether the write of a given number, from zero, fails. -/
  fails : Nat → Bool := fun _ ↦ false
  /-- The number of writes so far. -/
  writes : Nat := 0
  /-- The text of each write that succeeded. -/
  written : List String := []

namespace Stream

def report (stream : Stream) (diagnostic : Diagnostic) : Stream :=
  match stream.policy.severityOf diagnostic.kind with
  | none => stream
  | some severity =>
    { stream with
      writes := stream.writes + 1
      written := if stream.fails stream.writes then stream.written
        else stream.written ++ [Line.render stream.source diagnostic severity] }

/-- The text written so far. -/
def output (stream : Stream) : String := String.join stream.written

end Stream

end LintCore
