import LintCore.Diagnostic.Basic
import LintCore.Policy.Basic

/-!
A sink collects diagnostics, each with the severity that its policy gives it. What has been
collected can be looked at, or taken out; the number of errors reported so far is not changed by
either.
-/

set_option autoImplicit false
set_option relaxedAutoImplicit false

namespace LintCore

structure Sink where
  policy : Policy
  /-- The diagnostics held, in the order of the reports. -/
  reported : List (Diagnostic × Severity) := []
  errorCount : Nat := 0

namespace Sink

def report (sink : Sink) (diagnostic : Diagnostic) : Sink :=
  match sink.policy.severityOf diagnostic.kind with
  | none => sink
  | some severity =>
    { sink with
      reported := sink.reported ++ [(diagnostic, severity)]
      errorCount := if severity = .error then sink.errorCount + 1 else sink.errorCount }

def diagnostics (sink : Sink) : List Diagnostic := sink.reported.map Prod.fst

def hasErrors (sink : Sink) : Bool := 0 < sink.errorCount

/-- The diagnostics with their severities, and the sink without them. -/
def takeReported (sink : Sink) : List (Diagnostic × Severity) × Sink :=
  (sink.reported, { sink with reported := [] })

/-- The diagnostics, and the sink without them. -/
def takeAll (sink : Sink) : List Diagnostic × Sink :=
  (sink.diagnostics, { sink with reported := [] })

end Sink

end LintCore
