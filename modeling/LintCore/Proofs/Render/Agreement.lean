import LintCore.Proofs.Diagnostic.Naming
import LintCore.Proofs.Render.Object
import LintCore.Render.Line
import LintCore.Render.Terminal
import Mathlib.Data.List.Forall2

/-!
# Three outputs, one content

Diagnostics agree on a source if they have one code and their messages, one by one, are about the
same place and read the same (`Diagnostic.Agrees`). They can still differ in fields that no message
shows. The objects for two diagnostics at their severities are equal exactly if the diagnostics
agree and the severities are equal (`Object.ofDiagnostic_eq_iff`), and the terminal and the lines of
text show nothing in which diagnostics that agree could differ (`Terminal.render_of_agrees`,
`Line.render_of_agrees`). Since the text of an object determines the object, it also determines what
the other two outputs show (`shown_determined_by_object`).
-/

set_option autoImplicit false
set_option relaxedAutoImplicit false

namespace LintCore

/-! ### Agreement -/

/-- Messages about the same place that read the same. -/
structure Message.Agrees (source : Source) (message other : Message) : Prop where
  anchor_eq : message.anchor = other.anchor
  format_eq : message.format source = other.format source

/-- Diagnostics with one code whose messages agree. -/
structure Diagnostic.Agrees (source : Source) (diagnostic other : Diagnostic) : Prop where
  code_eq : diagnostic.code = other.code
  primary : diagnostic.primary.Agrees source other.primary
  notes : List.Forall₂ (Message.Agrees source) diagnostic.notes other.notes

theorem Severity.eq_of_word_eq {severity level : Severity} (hword : severity.word = level.word) :
    severity = level := by
  cases severity <;> cases level <;> simp_all [Severity.word]

variable {source : Source} {message note : Message} {diagnostic other : Diagnostic}

/-- A view of messages that does not tell agreeing ones apart shows the same for all notes. -/
theorem Diagnostic.Agrees.map_notes_eq {α : Type} {view : Message → α}
    (h : diagnostic.Agrees source other)
    (hview : ∀ message note : Message, message.Agrees source note → view message = view note) :
    diagnostic.notes.map view = other.notes.map view := by
  rw [← List.forall₂_eq_eq_eq, List.forall₂_map_left_iff, List.forall₂_map_right_iff]
  exact h.notes.imp hview

/-! ### Objects -/

namespace Object

theorem ofNote_eq_iff :
    ofNote source message = ofNote source note ↔ message.Agrees source note := by
  constructor
  · intro heq
    simp only [ofNote, Json.obj.injEq, List.cons.injEq, Prod.mk.injEq, Json.int.injEq,
      Json.str.injEq, Int.natCast_inj, UInt32.toNat_inj, true_and, and_true] at heq
    obtain ⟨hstart, hstop, hformat⟩ := heq
    exact ⟨by rw [Span.mk.injEq]; exact ⟨hstart, hstop⟩, hformat⟩
  · intro hagrees
    rw [ofNote, ofNote, hagrees.anchor_eq, hagrees.format_eq]

theorem map_ofNote_eq_iff {notes others : List Message} :
    notes.map (ofNote source) = others.map (ofNote source) ↔
      List.Forall₂ (Message.Agrees source) notes others := by
  rw [← List.forall₂_eq_eq_eq, List.forall₂_map_left_iff, List.forall₂_map_right_iff]
  simp only [ofNote_eq_iff]

/-- Objects are equal if the diagnostics agree and have one severity, and only then. -/
theorem ofDiagnostic_eq_iff {severity level : Severity} :
    ofDiagnostic source diagnostic severity = ofDiagnostic source other level ↔
      diagnostic.Agrees source other ∧ severity = level := by
  constructor
  · intro heq
    simp only [ofDiagnostic, Severity.toJson, Json.obj.injEq, List.cons.injEq, Prod.mk.injEq,
      Json.int.injEq, Json.str.injEq, Json.arr.injEq, Int.natCast_inj, UInt32.toNat_inj, true_and,
      and_true, map_ofNote_eq_iff] at heq
    obtain ⟨hstart, hcode, hstop, hformat, hnotes, hword⟩ := heq
    have hanchor : diagnostic.primary.anchor = other.primary.anchor := by
      rw [Span.mk.injEq]
      exact ⟨hstart, hstop⟩
    exact ⟨⟨Code.eq_of_text_eq hcode, ⟨hanchor, hformat⟩, hnotes⟩, Severity.eq_of_word_eq hword⟩
  · rintro ⟨hagrees, rfl⟩
    rw [ofDiagnostic, ofDiagnostic, hagrees.code_eq, hagrees.primary.anchor_eq,
      hagrees.primary.format_eq, map_ofNote_eq_iff.mpr hagrees.notes]

end Object

/-! ### Lines and terminal -/

namespace Line

theorem ofMessage_of_agrees (h : message.Agrees source note) (code : Code) (severity : Severity) :
    ofMessage source code severity message = ofMessage source code severity note := by
  rw [ofMessage, ofMessage, h.anchor_eq, h.format_eq]

theorem render_of_agrees (h : diagnostic.Agrees source other) (severity : Severity) :
    render source diagnostic severity = render source other severity := by
  have hnotes := h.map_notes_eq fun _ _ hnote ↦ ofMessage_of_agrees hnote other.code .note
  simp only [render, h.code_eq, ofMessage_of_agrees h.primary, hnotes]

end Line

namespace Terminal

theorem noteLines_of_agrees (h : message.Agrees source note) (colored : Bool) (gutter : String) :
    noteLines colored source gutter message = noteLines colored source gutter note := by
  rw [noteLines, noteLines, h.anchor_eq, h.format_eq]

theorem render_of_agrees (h : diagnostic.Agrees source other) (colored : Bool)
    (severity : Severity) :
    render colored source diagnostic severity = render colored source other severity := by
  have hnotes (gutter : String) : diagnostic.notes.flatMap (noteLines colored source gutter) =
      other.notes.flatMap (noteLines colored source gutter) := by
    rw [List.flatMap_def, List.flatMap_def,
      h.map_notes_eq fun _ _ hnote ↦ noteLines_of_agrees hnote colored gutter]
  simp only [render, lines, h.code_eq, h.primary.anchor_eq, h.primary.format_eq, hnotes]

end Terminal

/-! ### What an object determines -/

/-- If the objects for two diagnostics, each at a severity, have one text, then the terminal shows
one output for both, in colour or not, and so do the lines of text. -/
theorem Diagnostic.shown_determined_by_object {severity level : Severity}
    (htext : Object.render source diagnostic severity = Object.render source other level) :
    (∀ colored, Terminal.render colored source diagnostic severity =
      Terminal.render colored source other level) ∧
    Line.render source diagnostic severity = Line.render source other level := by
  have hobject := (Object.canonical_ofDiagnostic source diagnostic severity).eq_of_render_eq
    (Object.canonical_ofDiagnostic source other level) htext
  obtain ⟨hagrees, rfl⟩ := Object.ofDiagnostic_eq_iff.mp hobject
  exact ⟨fun colored ↦ Terminal.render_of_agrees hagrees colored severity,
    Line.render_of_agrees hagrees severity⟩

theorem Diagnostic.assignmentTo_lt : 2 < catalogue.length := by decide +kernel

/-- An assignment to a constant, told with how the constant was declared. -/
def Diagnostic.assignmentTo (declared : VariableKind) : Diagnostic :=
  { kind := ⟨⟨2, assignmentTo_lt⟩⟩
    row := (⟨⟨6, 7⟩, "x"⟩, ⟨⟨9, 10⟩, "x"⟩, declared, ()) }

/-- How a variable was declared is not shown, so two diagnostics that differ in it alone have one
text in every output. -/
theorem Diagnostic.declared_not_shown :
    let first := assignmentTo .constDeclaration
    let second := assignmentTo .importDeclaration
    let source := Source.ofContent "app.js" "const x;\nx = 1;\n"
    first ≠ second ∧
      Object.render source first .error = Object.render source second .error ∧
      (∀ colored, Terminal.render colored source first .error =
        Terminal.render colored source second .error) ∧
      Line.render source first .error = Line.render source second .error := by
  intro first second source
  have htext : Object.render source first .error = Object.render source second .error := by
    have hprimary : first.primary = second.primary := by decide +kernel
    have hnotes : first.notes = second.notes := by decide +kernel
    have hcode : first.code = second.code := rfl
    rw [Object.render, Object.render, Object.ofDiagnostic, Object.ofDiagnostic, hprimary, hnotes,
      hcode]
  exact ⟨by decide +kernel, htext, Diagnostic.shown_determined_by_object htext⟩

end LintCore
