import LintCore.Proofs.Report.Entries

/-!
# Reporters that share reports

A reporter that passes reports on to two others is a tree, and its `leaves` are the reporters that
pass nothing on. Reports to the root reach every leaf, in their order, and what one leaf does has no
effect on another (`leaves_reportAll`): a sink holds the entries that its own policy makes of them,
and a stream has the blocks of its own entries, without those that it failed to write
(`leaves_as_if_alone`). If a sink and a stream have one policy and no write fails, the stream has
the lines of just what the sink holds (`streamed_is_collected`).
-/

set_option autoImplicit false
set_option relaxedAutoImplicit false

namespace LintCore.Reporter

/-! ### Reports to a tree -/

/-- The reporter after reports made one after the other. -/
def reportAll (reporter : Reporter) (diagnostics : List Diagnostic) : Reporter :=
  diagnostics.foldl (fun reporter diagnostic ↦ reporter.report diagnostic) reporter

/-- The reporters that pass nothing on, from left to right. -/
def leaves : Reporter → List Reporter
  | silent => [silent]
  | sink held => [sink held]
  | stream out => [stream out]
  | fanout first second => leaves first ++ leaves second

theorem reportAll_cons (reporter : Reporter) (diagnostic : Diagnostic) (rest : List Diagnostic) :
    reporter.reportAll (diagnostic :: rest) = (reporter.report diagnostic).reportAll rest := rfl

theorem reportAll_silent (diagnostics : List Diagnostic) :
    silent.reportAll diagnostics = silent := by
  induction diagnostics with
  | nil => rfl
  | cons diagnostic rest ih => exact ih

theorem reportAll_sink (held : Sink) (diagnostics : List Diagnostic) :
    (sink held).reportAll diagnostics = sink (held.reportAll diagnostics) := by
  induction diagnostics generalizing held with
  | nil => rfl
  | cons diagnostic rest ih => exact ih (held.report diagnostic)

theorem reportAll_stream (out : Stream) (diagnostics : List Diagnostic) :
    (stream out).reportAll diagnostics = stream (out.reportAll diagnostics) := by
  induction diagnostics generalizing out with
  | nil => rfl
  | cons diagnostic rest ih => exact ih (out.report diagnostic)

theorem reportAll_fanout (first second : Reporter) (diagnostics : List Diagnostic) :
    (fanout first second).reportAll diagnostics =
      fanout (first.reportAll diagnostics) (second.reportAll diagnostics) := by
  induction diagnostics generalizing first second with
  | nil => rfl
  | cons diagnostic rest ih => exact ih (first.report diagnostic) (second.report diagnostic)

/-! ### Every leaf on its own -/

theorem leaves_reportAll (reporter : Reporter) (diagnostics : List Diagnostic) :
    (reporter.reportAll diagnostics).leaves =
      reporter.leaves.map fun leaf ↦ leaf.reportAll diagnostics := by
  induction reporter with
  | silent =>
    rw [leaves, List.map_singleton, reportAll_silent]
    rfl
  | sink held =>
    rw [leaves, List.map_singleton, reportAll_sink]
    rfl
  | stream out =>
    rw [leaves, List.map_singleton, reportAll_stream]
    rfl
  | fanout first second hfirst hsecond =>
    rw [reportAll_fanout, leaves, hfirst, hsecond, leaves, List.map_append]

theorem sinks_reportAll (reporter : Reporter) (diagnostics : List Diagnostic) :
    (reporter.reportAll diagnostics).sinks =
      reporter.sinks.map fun held ↦ held.reportAll diagnostics := by
  induction diagnostics generalizing reporter with
  | nil => exact (List.map_id _).symm
  | cons diagnostic rest ih =>
    rw [reportAll_cons, ih, sinks_report, List.map_map]
    rfl

theorem streams_reportAll (reporter : Reporter) (diagnostics : List Diagnostic) :
    (reporter.reportAll diagnostics).streams =
      reporter.streams.map fun out ↦ out.reportAll diagnostics := by
  induction diagnostics generalizing reporter with
  | nil => exact (List.map_id _).symm
  | cons diagnostic rest ih =>
    rw [reportAll_cons, ih, streams_report, List.map_map]
    rfl

/-- Reports to a reporter leave each of its leaves as if all of them had been made to this leaf
alone. A sink then holds the entries of all reports behind what it held, and has counted the errors
among them. A stream has made one write for each entry and none for a diagnostic that its policy
holds back; its text is the blocks, in order, of the entries whose write succeeded. -/
theorem leaves_as_if_alone (reporter : Reporter) (diagnostics : List Diagnostic) :
    let reported := reporter.reportAll diagnostics
    reported.leaves = reporter.leaves.map (fun leaf ↦ leaf.reportAll diagnostics) ∧
    reported.sinks = reporter.sinks.map (fun held ↦
      let entries := held.policy.entries diagnostics
      { held with
        reported := held.reported ++ entries
        errorCount := held.errorCount + errorsAmong entries }) ∧
    reported.streams.map Stream.writes = reporter.streams.map (fun out ↦
      out.writes + (out.policy.entries diagnostics).length) ∧
    reported.streams.map Stream.output = reporter.streams.map (fun out ↦
      out.output ++ String.join (out.succeeded (out.policy.entries diagnostics))) := by
  intro reported
  have hstreams : reported.streams = reporter.streams.map fun out ↦ out.reportAll diagnostics :=
    streams_reportAll reporter diagnostics
  refine ⟨leaves_reportAll reporter diagnostics, ?_, ?_, ?_⟩
  · have hsinks : reported.sinks = reporter.sinks.map fun held ↦ held.reportAll diagnostics :=
      sinks_reportAll reporter diagnostics
    rw [hsinks]
    exact List.map_congr_left fun held _ ↦ held.reportAll_eq diagnostics
  · rw [hstreams, List.map_map]
    refine List.map_congr_left fun out _ ↦ ?_
    rw [Function.comp_apply, Stream.reportAll_eq]
  · rw [hstreams, List.map_map]
    refine List.map_congr_left fun out _ ↦ ?_
    rw [Function.comp_apply, Stream.reportAll_eq, Stream.output, String.join_append]
    rfl

/-! ### Collected and streamed output -/

/-- A sink and a stream with one policy, given the same reports: if no write fails, the text is the
lines for what the sink holds, in its order. Each diagnostic has a line at the severity that it is
held with for the message that its kind declares as the primary one, and then a line for each note
that the kind declares, in the order of the declaration; a line begins with the place that its own
message is about. -/
theorem streamed_is_collected (policy : Policy) (source : Source) (diagnostics : List Diagnostic) :
    ∃ collected streamed,
      (fanout (sink { policy }) (stream { source, policy })).reportAll diagnostics =
        fanout (sink collected) (stream streamed) ∧
      collected.reported = policy.entries diagnostics ∧
      streamed.output = String.join (collected.reported.flatMap fun (diagnostic, severity) ↦
        let declared := diagnostic.kind.entry
        let wordings := (declared.primary, severity) ::
          declared.notes.map fun wording ↦ (wording, Severity.note)
        wordings.map fun (wording, severity) ↦
          let message := diagnostic.row.message wording
          let place := source.position message.anchor.start
          source.path ++ ":" ++ toString place.line.toNat ++ ":" ++ toString place.column.toNat ++
            ": " ++ severity.word ++ ": " ++ message.format source ++
              " [" ++ declared.code ++ "]\n") := by
  refine ⟨Sink.reportAll { policy } diagnostics, Stream.reportAll { source, policy } diagnostics,
    ?_, ?_, ?_⟩
  · rw [reportAll_fanout, reportAll_sink, reportAll_stream]
  · rw [Sink.reportAll_eq]
    rfl
  · rw [Sink.reportAll_eq, Stream.reportAll_eq, Stream.output,
      Stream.succeeded_of_not_fails fun _ ↦ rfl, Line.join_flatMap]
    refine congrArg String.join (List.map_congr_left fun entry _ ↦ ?_)
    have hblock := Line.render_eq_join source entry.1 entry.2
    rw [Line.messagesAt_eq_map, List.map_map] at hblock
    exact hblock

end LintCore.Reporter
