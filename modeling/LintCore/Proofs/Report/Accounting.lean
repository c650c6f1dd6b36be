import LintCore.Proofs.Report.Entries
import Mathlib.Data.List.Induction

/-!
# A sink accounts for every report

A sink can be given diagnostics, looked at and emptied, in any order. `History` is a sink with what
has been done with it, and with what each operation has returned. `History.Accounted` is kept by
every operation (`History.Accounted.step`), so it holds after any number of them
(`History.accounted`): the batches that have been taken out, and what the sink holds behind them,
are the entries of all reports so far, and the errors among all of these have been counted. What the
operations return is in terms of these entries and those that the sink holds (`Operation.answer`).
`takes_and_rest_are_reports` puts this together for the whole life of a sink.
-/

set_option autoImplicit false
set_option relaxedAutoImplicit false

namespace LintCore.Sink

/-! ### Operations -/

/-- What can be done with a sink. -/
inductive Operation where
  | report (diagnostic : Diagnostic)
  | takeAll
  | takeReported
  | diagnostics
  | reported
  | errorCount
  | hasErrors

/-- What an operation returns. -/
inductive Answer where
  | nothing
  | diagnostics (held : List Diagnostic)
  | reported (held : List (Diagnostic × Severity))
  | errorCount (count : Nat)
  | hasErrors (present : Bool)

def perform (sink : Sink) : Operation → Answer × Sink
  | .report diagnostic => (.nothing, sink.report diagnostic)
  | .takeAll => (.diagnostics sink.takeAll.1, sink.takeAll.2)
  | .takeReported => (.reported sink.takeReported.1, sink.takeReported.2)
  | .diagnostics => (.diagnostics sink.diagnostics, sink)
  | .reported => (.reported sink.reported, sink)
  | .errorCount => (.errorCount sink.errorCount, sink)
  | .hasErrors => (.hasErrors sink.hasErrors, sink)

namespace Operation

def diagnostic? : Operation → Option Diagnostic
  | report diagnostic => some diagnostic
  | _ => none

/-- Whether the sink is emptied. -/
def isTake : Operation → Bool
  | takeAll => true
  | takeReported => true
  | _ => false

/-- What an operation returns if the sink holds the entries `held`, and `all` are the entries of all
reports so far. Without severities the diagnostics are those that are returned with severities. -/
def answer (held all : List (Diagnostic × Severity)) : Operation → Answer
  | report _ => .nothing
  | takeAll => .diagnostics (held.map Prod.fst)
  | takeReported => .reported held
  | diagnostics => .diagnostics (held.map Prod.fst)
  | reported => .reported held
  | errorCount => .errorCount (errorsAmong all)
  | hasErrors => .hasErrors (all.any fun entry ↦ entry.2 = .error)

end Operation

/-- The diagnostics that are reported by operations. -/
def reportsOf (operations : List Operation) : List Diagnostic :=
  operations.filterMap Operation.diagnostic?

theorem reportsOf_concat (operations : List Operation) (diagnostic : Diagnostic) :
    reportsOf (operations ++ [.report diagnostic]) = reportsOf operations ++ [diagnostic] :=
  List.filterMap_append

theorem reportsOf_concat_of_none (operations : List Operation) {operation : Operation}
    (h : operation.diagnostic? = none) :
    reportsOf (operations ++ [operation]) = reportsOf operations := by
  rw [reportsOf, List.filterMap_append, List.filterMap_cons_none h]
  exact List.append_nil _

/-! ### Histories -/

/-- A sink with what has been done with it, and what each operation has returned. -/
structure History where
  sink : Sink
  log : List (Operation × Answer)

namespace History

/-- A new sink. -/
def start (policy : Policy) : History := ⟨{ policy }, []⟩

def step (history : History) (operation : Operation) : History where
  sink := (history.sink.perform operation).2
  log := history.log ++ [(operation, (history.sink.perform operation).1)]

/-- After more operations. -/
def steps (history : History) (operations : List Operation) : History :=
  operations.foldl step history

/-- The batches are what the takes of a log took out, one for each: a take has returned its batch,
or the diagnostics of it. -/
inductive Took : List (Operation × Answer) → List (List (Diagnostic × Severity)) → Prop
  | nil : Took [] []
  | takeAll {log : List (Operation × Answer)} {batches : List (List (Diagnostic × Severity))}
    (batch : List (Diagnostic × Severity)) : Took log batches →
      Took (log ++ [(.takeAll, .diagnostics (batch.map Prod.fst))]) (batches ++ [batch])
  | takeReported {log : List (Operation × Answer)}
    {batches : List (List (Diagnostic × Severity))} (batch : List (Diagnostic × Severity)) :
      Took log batches → Took (log ++ [(.takeReported, .reported batch)]) (batches ++ [batch])
  | other {log : List (Operation × Answer)} {batches : List (List (Diagnostic × Severity))}
    {operation : Operation} {answer : Answer} : operation.isTake = false → Took log batches →
      Took (log ++ [(operation, answer)]) batches

/-- What holds of a history of some operations on a new sink. -/
structure Accounted (policy : Policy) (operations : List Operation) (history : History) : Prop where
  policy_eq : history.sink.policy = policy
  log_eq : history.log.map Prod.fst = operations
  entries_eq : ∃ batches, Took history.log batches ∧
    batches.flatten ++ history.sink.reported = policy.entries (reportsOf operations)
  errorCount_eq : history.sink.errorCount = errorsAmong (policy.entries (reportsOf operations))

namespace Accounted

variable {policy : Policy} {operations : List Operation} {history : History}

theorem start (policy : Policy) : Accounted policy [] (History.start policy) :=
  ⟨rfl, rfl, ⟨[], Took.nil, rfl⟩, rfl⟩

theorem log_step (h : Accounted policy operations history) (operation : Operation) :
    (history.step operation).log.map Prod.fst = operations ++ [operation] := by
  rw [step, List.map_append, h.log_eq]
  rfl

/-- A report adds its entry to what the sink holds. -/
theorem step_report (h : Accounted policy operations history) (diagnostic : Diagnostic) :
    Accounted policy (operations ++ [.report diagnostic]) (history.step (.report diagnostic)) := by
  obtain ⟨batches, htook, hentries⟩ := h.entries_eq
  have hsink : (history.step (.report diagnostic)).sink = history.sink.report diagnostic := rfl
  have hreports : policy.entries (reportsOf (operations ++ [.report diagnostic])) =
      policy.entries (reportsOf operations) ++ (policy.entry? diagnostic).toList := by
    rw [reportsOf_concat, Policy.entries_append, Policy.entries_singleton]
  refine ⟨?_, h.log_step _, ⟨batches, Took.other rfl htook, ?_⟩, ?_⟩
  · rw [hsink, report_eq]
    exact h.policy_eq
  · rw [hsink, report_eq, hreports, h.policy_eq, ← hentries, List.append_assoc]
  · rw [hsink, report_eq, hreports, h.policy_eq, h.errorCount_eq, errorsAmong_append]

/-- A take moves what the sink holds into a batch of its own. -/
theorem step_take (h : Accounted policy operations history) {operation : Operation}
    (hreport : operation.diagnostic? = none)
    (hsink : (history.step operation).sink = { history.sink with reported := [] })
    (htake : ∀ {batches}, Took history.log batches →
      Took (history.step operation).log (batches ++ [history.sink.reported])) :
    Accounted policy (operations ++ [operation]) (history.step operation) := by
  obtain ⟨batches, htook, hentries⟩ := h.entries_eq
  have hreports := reportsOf_concat_of_none operations hreport
  refine ⟨?_, h.log_step operation, ⟨_, htake htook, ?_⟩, ?_⟩
  · rw [hsink]
    exact h.policy_eq
  · rw [hsink, hreports, List.flatten_concat, List.append_nil]
    exact hentries
  · rw [hsink, hreports]
    exact h.errorCount_eq

/-- Any other operation leaves the sink as it is. -/
theorem step_look (h : Accounted policy operations history) {operation : Operation}
    (hreport : operation.diagnostic? = none) (hlook : operation.isTake = false)
    (hsink : (history.step operation).sink = history.sink) :
    Accounted policy (operations ++ [operation]) (history.step operation) := by
  obtain ⟨batches, htook, hentries⟩ := h.entries_eq
  have hreports := reportsOf_concat_of_none operations hreport
  refine ⟨?_, h.log_step operation, ⟨batches, Took.other hlook htook, ?_⟩, ?_⟩
  · rw [hsink]
    exact h.policy_eq
  · rw [hsink, hreports]
    exact hentries
  · rw [hsink, hreports]
    exact h.errorCount_eq

theorem step (h : Accounted policy operations history) (operation : Operation) :
    Accounted policy (operations ++ [operation]) (history.step operation) := by
  cases operation with
  | report diagnostic => exact h.step_report diagnostic
  | takeAll => exact h.step_take rfl rfl (Took.takeAll history.sink.reported)
  | takeReported => exact h.step_take rfl rfl (Took.takeReported history.sink.reported)
  | diagnostics => exact h.step_look rfl rfl rfl
  | reported => exact h.step_look rfl rfl rfl
  | errorCount => exact h.step_look rfl rfl rfl
  | hasErrors => exact h.step_look rfl rfl rfl

end Accounted

theorem accounted (policy : Policy) (operations : List Operation) :
    Accounted policy operations ((History.start policy).steps operations) := by
  induction operations using List.reverseRecOn with
  | nil => exact Accounted.start policy
  | append_singleton before operation ih =>
    rw [steps, List.foldl_concat]
    exact ih.step operation

end History

/-! ### The whole life of a sink -/

theorem hasErrors_iff (sink : Sink) : sink.hasErrors = true ↔ 0 < sink.errorCount :=
  decide_eq_true_iff

/-- After any operations on a new sink, what has been taken out, followed by what is held, are the
entries of all reports, and the errors among all of them have been counted: there are no more of
them than reports. Each operation then answers from these entries, and looking changes nothing. -/
theorem takes_and_rest_are_reports (policy : Policy) (operations : List Operation) :
    let history := (History.start policy).steps operations
    let entries := policy.entries (reportsOf operations)
    history.log.map Prod.fst = operations ∧
    (∃ batches, History.Took history.log batches ∧
      batches.flatten ++ history.sink.reported = entries) ∧
    history.sink.errorCount = errorsAmong entries ∧
    history.sink.errorCount ≤ (reportsOf operations).length ∧
    (history.sink.hasErrors = true ↔ ∃ entry ∈ entries, entry.2 = .error) ∧
    (∀ operation, (history.sink.perform operation).1 =
      operation.answer history.sink.reported entries) ∧
    ∀ look ∈ [Operation.diagnostics, .reported, .errorCount, .hasErrors],
      (history.sink.perform look).2 = history.sink := by
  intro history entries
  have haccounted : History.Accounted policy operations history :=
    History.accounted policy operations
  have hcount : history.sink.errorCount = errorsAmong entries := haccounted.errorCount_eq
  have herrors : history.sink.hasErrors = true ↔ ∃ entry ∈ entries, entry.2 = .error := by
    rw [hasErrors_iff, hcount, errorsAmong_pos_iff]
  refine ⟨haccounted.log_eq, haccounted.entries_eq, hcount, ?_, herrors, fun operation ↦ ?_, ?_⟩
  · rw [hcount]
    exact errorsAmong_le_length policy _
  · cases operation with
    | errorCount => exact congrArg Answer.errorCount hcount
    | hasErrors =>
      refine congrArg Answer.hasErrors (Bool.eq_iff_iff.mpr (herrors.trans ?_))
      simp
    | report diagnostic => rfl
    | takeAll => rfl
    | takeReported => rfl
    | diagnostics => rfl
    | reported => rfl
  · simp [perform]

end LintCore.Sink
