import LintCore.Report.Reporter
import Mathlib.Data.List.Basic

/-!
# What a policy lets through

An entry is a diagnostic with the severity that a policy reports it at, and `Policy.entries` are the
entries of diagnostics reported one after the other: those that the policy lets through, in order.
What a sink or a stream does with a report depends on its entry alone (`Sink.report_eq`,
`Stream.report_eq`). After any number of reports a sink holds their entries behind what it held, and
has counted the errors among them (`Sink.reportAll_eq`); a stream has made a write for each entry,
and has the blocks of those whose write succeeded (`Stream.reportAll_eq`). A block is a line for
each message (`Line.render_eq_join`).
-/

set_option autoImplicit false
set_option relaxedAutoImplicit false

namespace LintCore

/-! ### Entries -/

namespace Policy

/-- The diagnostic with the severity that it is reported at, if it is reported. -/
def entry? (policy : Policy) (diagnostic : Diagnostic) : Option (Diagnostic × Severity) :=
  (policy.severityOf diagnostic.kind).map fun severity ↦ (diagnostic, severity)

/-- The diagnostics that the policy lets through, with their severities. -/
def entries (policy : Policy) (diagnostics : List Diagnostic) : List (Diagnostic × Severity) :=
  diagnostics.filterMap policy.entry?

theorem entries_append (policy : Policy) (first later : List Diagnostic) :
    policy.entries (first ++ later) = policy.entries first ++ policy.entries later :=
  List.filterMap_append

theorem entries_cons (policy : Policy) (diagnostic : Diagnostic) (rest : List Diagnostic) :
    policy.entries (diagnostic :: rest) =
      (policy.entry? diagnostic).toList ++ policy.entries rest := by
  rw [entries, List.filterMap_cons]
  cases policy.entry? diagnostic <;> rfl

theorem entries_singleton (policy : Policy) (diagnostic : Diagnostic) :
    policy.entries [diagnostic] = (policy.entry? diagnostic).toList := by
  rw [entries_cons]
  exact List.append_nil _

end Policy

/-- The number of errors among entries. -/
def errorsAmong (entries : List (Diagnostic × Severity)) : Nat :=
  entries.countP fun entry ↦ entry.2 = .error

theorem errorsAmong_append (first later : List (Diagnostic × Severity)) :
    errorsAmong (first ++ later) = errorsAmong first + errorsAmong later :=
  List.countP_append

theorem errorsAmong_pos_iff (entries : List (Diagnostic × Severity)) :
    0 < errorsAmong entries ↔ ∃ entry ∈ entries, entry.2 = .error := by
  simp [errorsAmong, List.countP_pos_iff]

theorem errorsAmong_le_length (policy : Policy) (diagnostics : List Diagnostic) :
    errorsAmong (policy.entries diagnostics) ≤ diagnostics.length :=
  Nat.le_trans List.countP_le_length (List.length_filterMap_le _ _)

/-! ### Sinks -/

namespace Sink

theorem report_eq (sink : Sink) (diagnostic : Diagnostic) :
    sink.report diagnostic =
      { sink with
        reported := sink.reported ++ (sink.policy.entry? diagnostic).toList
        errorCount := sink.errorCount + errorsAmong (sink.policy.entry? diagnostic).toList } := by
  rw [report, Policy.entry?]
  cases sink.policy.severityOf diagnostic.kind with
  | none => simp [errorsAmong]
  | some severity =>
    by_cases h : severity = .error
    · simp [errorsAmong, h]
    · simp [errorsAmong, h]

/-- The sink after reports made one after the other. -/
def reportAll (sink : Sink) (diagnostics : List Diagnostic) : Sink := diagnostics.foldl report sink

theorem reportAll_eq (sink : Sink) (diagnostics : List Diagnostic) :
    sink.reportAll diagnostics =
      { sink with
        reported := sink.reported ++ sink.policy.entries diagnostics
        errorCount := sink.errorCount + errorsAmong (sink.policy.entries diagnostics) } := by
  induction diagnostics generalizing sink with
  | nil => simp [reportAll, Policy.entries, errorsAmong]
  | cons diagnostic rest ih =>
    have hstep : sink.reportAll (diagnostic :: rest) =
        (sink.report diagnostic).reportAll rest := rfl
    rw [hstep, ih, report_eq, Policy.entries_cons, errorsAmong_append, List.append_assoc,
      Nat.add_assoc]

end Sink

/-! ### Blocks of lines -/

namespace Line

/-- The messages of a diagnostic that is reported at a severity, with the severity of each. -/
def messagesAt (diagnostic : Diagnostic) (severity : Severity) : List (Message × Severity) :=
  (diagnostic.primary, severity) :: diagnostic.notes.map fun note ↦ (note, .note)

theorem messagesAt_eq_map (diagnostic : Diagnostic) (severity : Severity) :
    messagesAt diagnostic severity =
      ((diagnostic.kind.entry.primary, severity) ::
        diagnostic.kind.entry.notes.map fun wording ↦ (wording, .note)).map
          fun (wording, severity) ↦ (diagnostic.row.message wording, severity) := by
  rw [messagesAt, Diagnostic.notes, List.map_cons, List.map_map, List.map_map]
  rfl

theorem render_eq_join (source : Source) (diagnostic : Diagnostic) (severity : Severity) :
    render source diagnostic severity =
      String.join ((messagesAt diagnostic severity).map fun (message, severity) ↦
        ofMessage source diagnostic.code severity message) := by
  rw [messagesAt, List.map_cons, String.join_cons, List.map_map]
  rfl

theorem join_flatMap {α : Type} (lines : α → List String) (items : List α) :
    String.join (items.flatMap lines) =
      String.join (items.map fun item ↦ String.join (lines item)) := by
  induction items with
  | nil => rfl
  | cons item rest ih =>
    rw [List.flatMap_cons, String.join_append, ih, List.map_cons, String.join_cons]

end Line

/-! ### Streams -/

namespace Stream

/-- The text that a stream writes for an entry. -/
def block (stream : Stream) (entry : Diagnostic × Severity) : String :=
  Line.render stream.source entry.1 entry.2

/-- The blocks of the entries whose write succeeds, if they are written one after the other. -/
def succeeded (stream : Stream) (entries : List (Diagnostic × Severity)) : List String :=
  ((entries.zipIdx stream.writes).filter fun numbered ↦ !stream.fails numbered.2).map
    fun numbered ↦ stream.block numbered.1

theorem report_eq (stream : Stream) (diagnostic : Diagnostic) :
    stream.report diagnostic =
      { stream with
        writes := stream.writes + (stream.policy.entry? diagnostic).toList.length
        written := stream.written ++
          stream.succeeded (stream.policy.entry? diagnostic).toList } := by
  rw [report, Policy.entry?]
  cases stream.policy.severityOf diagnostic.kind with
  | none => simp [succeeded]
  | some severity =>
    by_cases h : stream.fails stream.writes
    · simp [succeeded, h]
    · simp [succeeded, block, h]

/-- The stream after reports made one after the other. -/
def reportAll (stream : Stream) (diagnostics : List Diagnostic) : Stream :=
  diagnostics.foldl report stream

theorem reportAll_eq (stream : Stream) (diagnostics : List Diagnostic) :
    stream.reportAll diagnostics =
      { stream with
        writes := stream.writes + (stream.policy.entries diagnostics).length
        written := stream.written ++ stream.succeeded (stream.policy.entries diagnostics) } := by
  induction diagnostics generalizing stream with
  | nil => simp [reportAll, Policy.entries, succeeded]
  | cons diagnostic rest ih =>
    have hstep : stream.reportAll (diagnostic :: rest) =
        (stream.report diagnostic).reportAll rest := rfl
    rw [hstep, ih, report_eq, Policy.entries_cons]
    simp only [succeeded, List.zipIdx_append, List.filter_append, List.map_append,
      List.append_assoc, List.length_append, Nat.add_assoc, block]

/-- The entries whose write succeeds, if they are written one after the other. -/
def kept (stream : Stream) (entries : List (Diagnostic × Severity)) :
    List (Diagnostic × Severity) :=
  ((entries.zipIdx stream.writes).filter fun numbered ↦ !stream.fails numbered.2).map Prod.fst

theorem succeeded_eq_map_kept (stream : Stream) (entries : List (Diagnostic × Severity)) :
    stream.succeeded entries = (stream.kept entries).map stream.block := by
  rw [succeeded, kept, List.map_map]
  rfl

theorem kept_of_not_fails {stream : Stream} (hfails : ∀ write, stream.fails write = false)
    (entries : List (Diagnostic × Severity)) : stream.kept entries = entries := by
  have hall : (entries.zipIdx stream.writes).filter (fun numbered ↦ !stream.fails numbered.2) =
      entries.zipIdx stream.writes := List.filter_eq_self.mpr fun _ _ ↦ by simp [hfails]
  rw [kept, hall, List.zipIdx_map_fst]

/-- If no write fails, every entry has its block written. -/
theorem succeeded_of_not_fails {stream : Stream} (hfails : ∀ write, stream.fails write = false)
    (entries : List (Diagnostic × Severity)) :
    stream.succeeded entries = entries.map stream.block := by
  rw [succeeded_eq_map_kept, kept_of_not_fails hfails]

end Stream

end LintCore
