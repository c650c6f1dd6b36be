import LintCore.Proofs.Policy.Reading
import LintCore.Proofs.Render.Object
import LintCore.Proofs.Report.Entries

/-!
# From a configuration to rendered reports

A configuration says which kinds to allow and which to deny; a sink with the policy built from it
holds the diagnostics of all other kinds, each at one of two severities (`Policy.entries_eq_map`).
`configured_reports_read_back` follows them to the end: whoever reads the text that the sink's
diagnostics are rendered to finds an item for each, in the order of the reports, with the code and
the number of notes of its kind, the offsets of its anchor as they are, and the severity that the
configuration asks for. The number of items that say to be errors is the sink's own count.
-/

set_option autoImplicit false
set_option relaxedAutoImplicit false

namespace LintCore

/-! ### What a configuration asks for -/

namespace LintConfig

/-- The severity at which a kind is reported that is not allowed. -/
def severityOf (lint : LintConfig) (kind : Kind) : Severity :=
  if lint.Denies kind ∨ kind.severity = .error then .error else .warning

end LintConfig

/-- No kind is declared a note. -/
theorem Kind.severity_eq_error_or_warning (kind : Kind) :
    kind.severity = .error ∨ kind.severity = .warning := by
  have hall : catalogue.all (fun entry ↦ entry.severity = .error ∨ entry.severity = .warning) =
      true := by decide +kernel
  exact of_decide_eq_true (List.all_eq_true.mp hall kind.entry kind.entry_mem)

namespace Policy

variable {lint : LintConfig} {policy : Policy}

theorem entry?_eq (hpolicy : ofConfig? lint = .ok policy) (diagnostic : Diagnostic) :
    policy.entry? diagnostic =
      if lint.Allows diagnostic.kind then none
      else some (diagnostic, lint.severityOf diagnostic.kind) := by
  rw [Policy.entry?, severityOf_eq hpolicy]
  by_cases hallow : lint.Allows diagnostic.kind
  · rw [if_pos hallow, if_pos hallow, Option.map_none]
  · rw [if_neg hallow, if_neg hallow, LintConfig.severityOf]
    by_cases hdeny : lint.Denies diagnostic.kind
    · rw [if_pos hdeny, if_pos (.inl hdeny), Option.map_some]
    · rw [if_neg hdeny, Option.map_some]
      rcases diagnostic.kind.severity_eq_error_or_warning with herror | hwarning
      · rw [if_pos (.inr herror), herror]
      · rw [if_neg (by simp [hdeny, hwarning]), hwarning]

/-- A configured policy lets the kinds through that are not allowed. -/
theorem entries_eq_map (hpolicy : ofConfig? lint = .ok policy) (diagnostics : List Diagnostic) :
    policy.entries diagnostics =
      (diagnostics.filter fun diagnostic ↦ ¬ lint.Allows diagnostic.kind).map fun diagnostic ↦
        (diagnostic, lint.severityOf diagnostic.kind) := by
  induction diagnostics with
  | nil => rfl
  | cons diagnostic rest ih =>
    rw [entries_cons, ih, entry?_eq hpolicy]
    by_cases hallow : lint.Allows diagnostic.kind
    · simp [hallow]
    · simp [hallow]

end Policy

/-! ### What a reader finds -/

namespace Json

/-- The value that an object has for a key. -/
def member? (key : String) : Json → Option Json
  | obj entries => get? key entries
  | _ => none

/-- The string that an object has for a key. -/
def textAt? (key : String) (value : Json) : Option String :=
  match value.member? key with
  | some (str text) => some text
  | _ => none

end Json

namespace Object

/-- What a reader finds about a diagnostic that is reported at the severity of a given name. -/
structure Tells (diagnostic : Diagnostic) (severity : String) (item : Json) : Prop where
  code_eq : item.member? "code" = some (.str diagnostic.kind.code.text)
  begin_eq : item.member? "begin" = some (.int diagnostic.primary.anchor.start.toNat)
  end_eq : item.member? "end" = some (.int diagnostic.primary.anchor.stop.toNat)
  notes_eq : ∃ notes, item.member? "notes" = some (.arr notes) ∧
    notes.length = diagnostic.kind.noteCount
  severity_eq : item.member? "severity" = some (.str severity)

theorem tells_ofDiagnostic (source : Source) (diagnostic : Diagnostic) (severity : Severity) :
    Tells diagnostic severity.word (ofDiagnostic source diagnostic severity) where
  code_eq := by simp [ofDiagnostic, Json.member?, Json.get?, Diagnostic.code]
  begin_eq := by simp [ofDiagnostic, Json.member?, Json.get?]
  end_eq := by simp [ofDiagnostic, Json.member?, Json.get?]
  notes_eq := by
    simp [ofDiagnostic, Json.member?, Json.get?, Diagnostic.notes, Kind.noteCount]
  severity_eq := by simp [ofDiagnostic, Json.member?, Json.get?, Severity.toJson]

theorem Tells.textAt?_severity {diagnostic : Diagnostic} {severity : String} {item : Json}
    (h : Tells diagnostic severity item) : item.textAt? "severity" = some severity := by
  rw [Json.textAt?, h.severity_eq]

end Object

/-! ### From the configuration to the text -/

theorem LintConfig.word_severityOf (lint : LintConfig) (kind : Kind) :
    (lint.severityOf kind).word =
      if lint.Denies kind ∨ kind.severity = .error then "error" else "warning" := by
  rw [severityOf]
  split <;> rfl

theorem errorsAmong_eq_countP_word (entries : List (Diagnostic × Severity)) :
    errorsAmong entries = entries.countP fun entry ↦ entry.2.word == "error" := by
  refine List.countP_congr fun entry _ ↦ ?_
  cases entry.2 <;> decide

/-- A sink with a configured policy is given diagnostics, and its entries are rendered. A reader of
the text finds an array with an item for each diagnostic whose kind no entry allows, in the order of
the reports. The item tells the code of the kind, the offsets of the anchor as they are, as many
notes as the kind has, and that it is an error if an entry denies the kind or the kind is declared
an error, and otherwise that it is a warning. As many items as the sink has counted errors tell that
they are errors. -/
theorem Sink.configured_reports_read_back {lint : LintConfig} {policy : Policy}
    (hpolicy : Policy.ofConfig? lint = .ok policy) (source : Source)
    (diagnostics : List Diagnostic) :
    let sink := reportAll { policy } diagnostics
    let kept := diagnostics.filter fun diagnostic ↦ ¬ lint.Allows diagnostic.kind
    ∃ items, Json.parse? (Object.renderAll source sink.reported) = some (.arr items) ∧
      List.Forall₂ (fun diagnostic item ↦
        Object.Tells diagnostic
          (if lint.Denies diagnostic.kind ∨ diagnostic.kind.severity = .error then "error"
            else "warning") item) kept items ∧
      items.countP (fun item ↦ item.textAt? "severity" == some "error") = sink.errorCount := by
  intro sink kept
  have hsink : sink = { policy
                        reported := policy.entries diagnostics
                        errorCount := errorsAmong (policy.entries diagnostics) } := by
    simpa using reportAll_eq { policy } diagnostics
  have hentries : policy.entries diagnostics = kept.map fun diagnostic ↦
      (diagnostic, lint.severityOf diagnostic.kind) := Policy.entries_eq_map hpolicy diagnostics
  let item (diagnostic : Diagnostic) : Json :=
    Object.ofDiagnostic source diagnostic (lint.severityOf diagnostic.kind)
  have htells (diagnostic : Diagnostic) : Object.Tells diagnostic
      (if lint.Denies diagnostic.kind ∨ diagnostic.kind.severity = .error then "error"
        else "warning") (item diagnostic) := by
    rw [← lint.word_severityOf]
    exact Object.tells_ofDiagnostic source diagnostic _
  refine ⟨kept.map item, ?_, ?_, ?_⟩
  · rw [Object.parse?_renderAll, hsink, hentries, List.map_map]
    rfl
  · rw [List.forall₂_map_right_iff, List.forall₂_same]
    exact fun diagnostic _ ↦ htells diagnostic
  · rw [hsink, hentries, errorsAmong_eq_countP_word, List.countP_map, List.countP_map]
    refine List.countP_congr fun diagnostic _ ↦ ?_
    rw [Function.comp_apply, Function.comp_apply, (htells diagnostic).textAt?_severity,
      lint.word_severityOf]
    rfl

theorem undeclaredUse_lt : 156 < catalogue.length := by decide +kernel

theorem undeclaredAssignment_lt : 4 < catalogue.length := by decide +kernel

theorem redeclaration_lt : 118 < catalogue.length := by decide +kernel

/-- A use of a variable that is not declared, a kind of warning. -/
def undeclaredUse : Diagnostic :=
  { kind := ⟨⟨156, undeclaredUse_lt⟩⟩, row := (⟨⟨0, 3⟩, "foo"⟩, ()) }

/-- An assignment to such a variable, another kind of warning. -/
def undeclaredAssignment : Diagnostic :=
  { kind := ⟨⟨4, undeclaredAssignment_lt⟩⟩, row := (⟨⟨5, 8⟩, "bar"⟩, ()) }

/-- A second declaration, an error with a note. Its anchor lies behind the source. -/
def redeclaration : Diagnostic :=
  { kind := ⟨⟨118, redeclaration_lt⟩⟩, row := (⟨⟨90, 91⟩, "x"⟩, ⟨⟨4, 5⟩, "x"⟩, ()) }

/-- One kind is allowed, another denied. What is left are two errors, of which one is declared a
warning. -/
theorem Sink.denied_and_declared_read_back :
    ∃ policy first second,
      Policy.ofConfig? { deny := [" E059"], allow := ["E057"] } = .ok policy ∧
      Json.parse? (Object.renderAll (Source.ofContent "app.js" "foo; bar = 1;")
        (reportAll { policy } [undeclaredUse, undeclaredAssignment, redeclaration]).reported) =
          some (.arr [first, second]) ∧
      Object.Tells undeclaredAssignment "error" first ∧ Object.Tells redeclaration "error" second ∧
      (reportAll { policy } [undeclaredUse, undeclaredAssignment, redeclaration]).errorCount =
        2 := by
  let allowed : Code := ⟨"E057", by decide +kernel⟩
  let denied : Code := ⟨"E059", by decide +kernel⟩
  have hallowed : allowed.kind.NamedBy "E057" := Code.namedBy_kind (by decide +kernel)
  have hdenied : denied.kind.NamedBy " E059" := Code.namedBy_kind (by decide +kernel)
  let lint : LintConfig := { deny := [" E059"], allow := ["E057"] }
  have hpolicy := Policy.ofConfig?_single hallowed hdenied
  obtain ⟨items, hparse, hitems, hcount⟩ := Sink.configured_reports_read_back hpolicy
    (Source.ofContent "app.js" "foo; bar = 1;")
    [undeclaredUse, undeclaredAssignment, redeclaration]
  have hkept : ([undeclaredUse, undeclaredAssignment, redeclaration].filter fun diagnostic ↦
      ¬ lint.Allows diagnostic.kind) = [undeclaredAssignment, redeclaration] := by
    have huse : lint.Allows undeclaredUse.kind := by decide +kernel
    have hassignment : ¬ lint.Allows undeclaredAssignment.kind := by decide +kernel
    have hredeclaration : ¬ lint.Allows redeclaration.kind := by decide +kernel
    simp [huse, hassignment, hredeclaration]
  have hassignment : lint.Denies undeclaredAssignment.kind := by decide +kernel
  have hredeclaration : redeclaration.kind.severity = .error := by decide +kernel
  rw [hkept] at hitems
  cases hitems with
  | @cons _ first _ _ hfirst hrest =>
    cases hrest with
    | @cons _ second _ _ hsecond hnone =>
      cases hnone
      rw [if_pos (.inl hassignment)] at hfirst
      rw [if_pos (.inr hredeclaration)] at hsecond
      refine ⟨_, first, second, hpolicy, hparse, hfirst, hsecond, ?_⟩
      rw [← hcount]
      simp [hfirst.textAt?_severity, hsecond.textAt?_severity]

end LintCore
