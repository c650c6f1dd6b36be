import LintCore.Proofs.Json.Canonical
import LintCore.Render.Object

/-!
# Reading rendered diagnostics back

The object for a diagnostic is canonical (`canonical_ofDiagnostic`), so its text says all that the
object does. `text_reads_back` spells the object out: a reader finds the message as it has been
written out, character for character, whatever names and pieces of the source it holds, and the
offsets of the anchors as they are in the diagnostic, also where they lie behind the end of the
source. `parse?_renderAll` says the same of the text for several diagnostics.
-/

set_option autoImplicit false
set_option relaxedAutoImplicit false

namespace LintCore

namespace Object

/-! ### Canonical objects -/

theorem fits_offset (offset : UInt32) : Json.Fits (offset.toNat : Int) := by
  have hsize : offset.toNat < UInt64.size := Nat.lt_trans offset.toNat_lt (by decide)
  exact ⟨by simp [Text.signedBound], by omega⟩

theorem canonical_ofNote (source : Source) (note : Message) : (ofNote source note).Canonical := by
  have hkeys : ["begin", "end", "message"].Pairwise (· < ·) := by decide
  refine .obj hkeys ?_
  simp only [List.forall_mem_cons, List.not_mem_nil, false_implies, implies_true, and_true]
  exact ⟨.int (fits_offset _), .int (fits_offset _), .str _⟩

theorem canonical_ofDiagnostic (source : Source) (diagnostic : Diagnostic) (severity : Severity) :
    (ofDiagnostic source diagnostic severity).Canonical := by
  have hkeys : ["begin", "code", "end", "message", "notes", "severity"].Pairwise (· < ·) := by
    decide
  have hnotes : ∀ note ∈ diagnostic.notes.map (ofNote source), note.Canonical := by
    intro value hvalue
    obtain ⟨note, -, rfl⟩ := List.mem_map.mp hvalue
    exact canonical_ofNote source note
  refine .obj hkeys ?_
  simp only [List.forall_mem_cons, List.not_mem_nil, false_implies, implies_true, and_true]
  exact ⟨.int (fits_offset _), .str _, .int (fits_offset _), .str _, .arr hnotes, .str _⟩

/-! ### Reading back -/

theorem parse?_render (source : Source) (diagnostic : Diagnostic) (severity : Severity) :
    Json.parse? (render source diagnostic severity) =
      some (ofDiagnostic source diagnostic severity) :=
  Json.parse?_render_canonical (canonical_ofDiagnostic source diagnostic severity)

theorem parse?_renderAll (source : Source) (reported : List (Diagnostic × Severity)) :
    Json.parse? (renderAll source reported) = some (.arr (reported.map fun (diagnostic, severity) ↦
      ofDiagnostic source diagnostic severity)) := by
  refine Json.parse?_render_canonical (.arr fun value hvalue ↦ ?_)
  obtain ⟨entry, -, rfl⟩ := List.mem_map.mp hvalue
  exact canonical_ofDiagnostic source entry.1 entry.2

/-- The text for a diagnostic has no control character. A reader finds in it an object with six
keys: the message that the kind declares as the primary one, as it is formatted, the code, the
severity, the offsets of the anchor as they are, and for each note that the kind declares, in the
order of the declaration, its message and its offsets. The text for several diagnostics is the text
for each, between brackets and with commas between them. -/
theorem text_reads_back (source : Source) :
    (∀ (diagnostic : Diagnostic) (severity : Severity),
      let declared := diagnostic.kind.entry
      let primary := diagnostic.row.message declared.primary
      let notes := declared.notes.map diagnostic.row.message
      (∀ c ∈ (render source diagnostic severity).toList, 0x20 ≤ c.toNat) ∧
      Json.parse? (render source diagnostic severity) = some (.obj [
        ("begin", .int primary.anchor.start.toNat),
        ("code", .str declared.code),
        ("end", .int primary.anchor.stop.toNat),
        ("message", .str (primary.format source)),
        ("notes", .arr (notes.map fun note ↦ .obj [
          ("begin", .int note.anchor.start.toNat), ("end", .int note.anchor.stop.toNat),
          ("message", .str (note.format source))])),
        ("severity", .str severity.word)])) ∧
    ∀ reported : List (Diagnostic × Severity), renderAll source reported =
      "[" ++ String.intercalate "," (reported.map fun (diagnostic, severity) ↦
        render source diagnostic severity) ++ "]" := by
  refine ⟨fun diagnostic severity ↦ ⟨?_, parse?_render source diagnostic severity⟩, ?_⟩
  · have hcanonical := canonical_ofDiagnostic source diagnostic severity
    rw [render, Json.render, String.toList_ofList]
    exact hcanonical.plain.le_of_mem_print
  · intro reported
    rw [renderAll, Json.render_arr, List.map_map]
    rfl

end Object

end LintCore
