import LintCore.Proofs.Diagnostic.Arguments

/-!
# Where messages are anchored

Every message of a diagnostic is about a place that its own fields give
(`report_anchored_in_fields`). The place is that of its first argument, which is a span or an
identifier for every kind, so the empty span that an anchor falls back on is never used. No offset
is moved on its way from the fields to the labels, wherever it lies in the source or behind it: a
label has the span of a field, or the start of one field's span and the stop of another's.
-/

set_option autoImplicit false
set_option relaxedAutoImplicit false

namespace LintCore

open Catalogue

namespace Report

/-- All messages of a report, the primary one first. -/
def messages (report : Report) : List Message := report.primary :: report.notes

theorem filter_primary_labels (report : Report) :
    report.labels.filter (·.style = .primary) = [.primary report.primary.anchor] := by
  simp [labels, Label.primary, Label.secondary]

theorem filter_secondary_labels (report : Report) :
    report.labels.filter (·.style ≠ .primary) =
      report.notes.map fun note ↦ .secondary note.anchor := by
  simp [labels, Label.primary, Label.secondary]

end Report

namespace Diagnostic

theorem messages_report (diagnostic : Diagnostic) :
    diagnostic.report.messages = diagnostic.kind.entry.wordings.map diagnostic.row.message := rfl

/-- Whatever the values of the fields, each message is anchored at its first argument. -/
theorem exists_anchor_of_mem_messages {diagnostic : Diagnostic} {message : Message}
    (hmessage : message ∈ diagnostic.report.messages) :
    ∃ argument, message.arguments.head? = some argument ∧ argument.type.isPlace = true ∧
      argument.span? = some message.anchor ∧ diagnostic.row.IsJoined message.anchor := by
  rw [messages_report] at hmessage
  obtain ⟨wording, hwording, rfl⟩ := List.mem_map.mp hmessage
  exact diagnostic.row.exists_anchor
    (typed_and_anchored_of_mem diagnostic.kind.entry_mem hwording).2

/-- A report has the code and the severity of its diagnostic and as many notes as its kind
declares. Its labels are a primary one and a secondary one for each note, in order, each with the
span that its message is about. This span is never the one that an anchor falls back on, for the
first argument of a message is a span or an identifier; and it is the span of one of the fields, or
starts where one of their spans starts and stops where one of them stops. -/
theorem report_anchored_in_fields (diagnostic : Diagnostic) :
    let report := diagnostic.report
    report.code = diagnostic.code ∧ report.severity = diagnostic.severity ∧
    report.notes.length = diagnostic.kind.noteCount ∧
    report.labels.map Label.style =
      .primary :: List.replicate diagnostic.kind.noteCount .secondary ∧
    report.labels.map Label.span = report.messages.map Message.anchor ∧
    (∀ message ∈ report.messages, ∃ argument, message.arguments[0]? = some argument ∧
      (argument.type = .span ∨ argument.type = .identifier) ∧
      argument.span? = some message.anchor) ∧
    ∀ label ∈ report.labels, label.span ∈ diagnostic.row.places ∨
      (∃ first ∈ diagnostic.row.places, label.span.start = first.start) ∧
        ∃ last ∈ diagnostic.row.places, label.span.stop = last.stop := by
  intro report
  have hnotes : report.notes.length = diagnostic.kind.noteCount := List.length_map _
  have hspans : report.labels.map Label.span = report.messages.map Message.anchor := by
    simp [Report.labels, Report.messages, Label.primary, Label.secondary]
  refine ⟨rfl, rfl, hnotes, ?_, hspans, fun message hmessage ↦ ?_, fun label hlabel ↦ ?_⟩
  · rw [← hnotes]
    simp [Report.labels, Label.primary, Label.secondary, Function.comp_def, List.map_const']
  · obtain ⟨argument, hhead, hplace, hspan, -⟩ := exists_anchor_of_mem_messages hmessage
    refine ⟨argument, by rw [← hhead, List.head?_eq_getElem?], ?_, hspan⟩
    cases argument with
    | span place => exact .inl rfl
    | identifier ident => exact .inr rfl
    | statementKind kind => cases hplace
    | char c => cases hplace
  · have hmem : label.span ∈ report.messages.map Message.anchor :=
      hspans ▸ List.mem_map_of_mem hlabel
    obtain ⟨message, hmessage, hanchor⟩ := List.mem_map.mp hmem
    obtain ⟨-, -, -, -, hjoined⟩ := exists_anchor_of_mem_messages hmessage
    rw [← hanchor]
    exact hjoined

end Diagnostic

end LintCore
