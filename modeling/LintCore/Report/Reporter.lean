import LintCore.Report.Sink
import LintCore.Report.Stream

/-!
A reporter receives the diagnostics of one analysis. It drops them, collects them, writes them, or
passes each one on to two others.
-/

set_option autoImplicit false
set_option relaxedAutoImplicit false

namespace LintCore

inductive Reporter where
  | silent
  | sink (sink : Sink)
  | stream (stream : Stream)
  | fanout (first second : Reporter)

namespace Reporter

def report (diagnostic : Diagnostic) : Reporter → Reporter
  | silent => silent
  | sink held => sink (held.report diagnostic)
  | stream out => stream (out.report diagnostic)
  | fanout first second => fanout (report diagnostic first) (report diagnostic second)

/-- The sinks, from left to right. -/
def sinks : Reporter → List Sink
  | silent => []
  | sink held => [held]
  | stream _ => []
  | fanout first second => sinks first ++ sinks second

/-- The streams, from left to right. -/
def streams : Reporter → List Stream
  | silent => []
  | sink _ => []
  | stream out => [out]
  | fanout first second => streams first ++ streams second

/-- Changes the sink of a given number, from left to right. -/
def modifySink (change : Sink → Sink) : (index : Nat) → Reporter → Reporter
  | _, silent => silent
  | 0, sink held => sink (change held)
  | _ + 1, sink held => sink held
  | _, stream out => stream out
  | index, fanout first second =>
    if index < first.sinks.length then fanout (modifySink change index first) second
    else fanout first (modifySink change (index - first.sinks.length) second)

theorem sinks_report (diagnostic : Diagnostic) (reporter : Reporter) :
    (reporter.report diagnostic).sinks = reporter.sinks.map (·.report diagnostic) := by
  induction reporter with
  | silent => rfl
  | sink held => rfl
  | stream out => rfl
  | fanout first second hfirst hsecond => simp [report, sinks, hfirst, hsecond]

theorem streams_report (diagnostic : Diagnostic) (reporter : Reporter) :
    (reporter.report diagnostic).streams = reporter.streams.map (·.report diagnostic) := by
  induction reporter with
  | silent => rfl
  | sink held => rfl
  | stream out => rfl
  | fanout first second hfirst hsecond => simp [report, streams, hfirst, hsecond]

end Reporter

end LintCore
