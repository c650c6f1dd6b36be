import LintCore.Diagnostic.Json
import LintCore.Proofs.Diagnostic.Naming
import LintCore.Proofs.Json.Shapes

/-!
# What is accepted as a diagnostic

The values that spans, identifiers, fields and diagnostics are read from are described by their
shape (`Shaped`), and what is read from a value by what the value holds (`HeldBy`). A value of the
right shape holds something, and it is read; any other value is not (`Span.ofJson_eq_ok_iff`,
`FieldType.shaped_iff`, `Diagnostic.ofJson_eq_ok_iff`). The number in a value and the offset that is
read are equal as numbers, so none is wrapped, cut off or exchanged for another.
`accepted_iff_shaped` says all this for a value of any kind.
-/

set_option autoImplicit false
set_option relaxedAutoImplicit false

namespace LintCore

/-! ### Spans and identifiers -/

namespace Span

/-- An object that has two offsets, or the array of two offsets. -/
def Shaped : Json → Prop := Json.Shaped [("start", Json.IsOffset), ("end", Json.IsOffset)]

/-- The offsets in the value are just those of the span. -/
def HeldBy (span : Span) : Json → Prop :=
  Json.Shaped [("start", (· = .int span.start.toNat)), ("end", (· = .int span.stop.toNat))]

theorem ofJson_eq_ok_iff {span : Span} {value : Json} :
    ofJson value = .ok span ↔ span.HeldBy value := by
  have hmembers : ofJson value = .ok span ↔ ∃ start stop, Span.mk start stop = span ∧
      Json.Shaped [("start", fun json ↦ Json.offset json = .ok start),
        ("end", fun json ↦ Json.offset json = .ok stop)] value := Json.bind_members_eq_ok_iff
  rw [hmembers]
  simp only [Json.offset_eq_ok_iff]
  constructor
  · rintro ⟨start, stop, rfl, hvalue⟩
    exact hvalue
  · exact fun hvalue ↦ ⟨span.start, span.stop, rfl, hvalue⟩

theorem shaped_iff {value : Json} : Shaped value ↔ ∃ span : Span, span.HeldBy value := by
  have hoffset : Json.IsOffset = fun json ↦ ∃ word : UInt32, json = .int word.toNat :=
    funext fun json ↦ propext Json.isOffset_iff
  rw [Shaped, hoffset, ← Json.exists_pair_shaped_iff]
  constructor
  · rintro ⟨start, stop, hvalue⟩
    exact ⟨⟨start, stop⟩, hvalue⟩
  · rintro ⟨span, hvalue⟩
    exact ⟨span.start, span.stop, hvalue⟩

end Span

namespace Identifier

/-- An object that has a span and a text, or the array of them. -/
def Shaped : Json → Prop :=
  Json.Shaped [("span", Span.Shaped), ("normalized_name", Json.IsText)]

def HeldBy (identifier : Identifier) : Json → Prop :=
  Json.Shaped [("span", identifier.span.HeldBy), ("normalized_name", (· = .str identifier.name))]

theorem ofJson_eq_ok_iff {identifier : Identifier} {value : Json} :
    ofJson value = .ok identifier ↔ identifier.HeldBy value := by
  have hmembers : ofJson value = .ok identifier ↔
      ∃ span name, Identifier.mk span name = identifier ∧
        Json.Shaped [("span", fun json ↦ Span.ofJson json = .ok span),
          ("normalized_name", fun json ↦ Json.text json = .ok name)] value :=
    Json.bind_members_eq_ok_iff
  rw [hmembers]
  simp only [Span.ofJson_eq_ok_iff, Json.text_eq_ok_iff]
  constructor
  · rintro ⟨span, name, rfl, hvalue⟩
    exact hvalue
  · exact fun hvalue ↦ ⟨identifier.span, identifier.name, rfl, hvalue⟩

theorem shaped_iff {value : Json} :
    Shaped value ↔ ∃ identifier : Identifier, identifier.HeldBy value := by
  have hspan : Span.Shaped = fun json ↦ ∃ span : Span, span.HeldBy json :=
    funext fun json ↦ propext Span.shaped_iff
  have htext : Json.IsText = fun json ↦ ∃ text, json = .str text := rfl
  rw [Shaped, hspan, htext, ← Json.exists_pair_shaped_iff]
  constructor
  · rintro ⟨span, name, hvalue⟩
    exact ⟨⟨span, name⟩, hvalue⟩
  · rintro ⟨identifier, hvalue⟩
    exact ⟨identifier.span, identifier.name, hvalue⟩

end Identifier

/-! ### Fields -/

namespace StatementKind

theorem ofJson_eq_ok_iff {kind : StatementKind} {value : Json} :
    ofJson value = .ok kind ↔ value.IsName kind.name := by
  rw [ofJson, Json.oneOf_eq_ok_iff (by decide)]
  exact and_iff_right kind.mem_all

end StatementKind

namespace VariableKind

theorem ofJson_eq_ok_iff {kind : VariableKind} {value : Json} :
    ofJson value = .ok kind ↔ value.IsName kind.name := by
  rw [ofJson, Json.oneOf_eq_ok_iff (by decide)]
  exact and_iff_right kind.mem_all

end VariableKind

namespace FieldType

/-- The values that a field of the type is read from. -/
def Shaped : FieldType → Json → Prop
  | span => Span.Shaped
  | identifier => Identifier.Shaped
  | statementKind => fun value ↦ ∃ kind : StatementKind, value.IsName kind.name
  | variableKind => fun value ↦ ∃ kind : VariableKind, value.IsName kind.name
  | char => fun value ↦ ∃ c : Char, value = .str (String.singleton c)

def HeldBy : (type : FieldType) → type.Value → Json → Prop
  | span => Span.HeldBy
  | identifier => Identifier.HeldBy
  | statementKind => fun kind value ↦ value.IsName kind.name
  | variableKind => fun kind value ↦ value.IsName kind.name
  | char => fun (c : Char) value ↦ value = .str (String.singleton c)

theorem ofJson_eq_ok_iff (type : FieldType) {a : type.Value} {value : Json} :
    type.ofJson value = .ok a ↔ type.HeldBy a value := by
  cases type with
  | span => exact Span.ofJson_eq_ok_iff
  | identifier => exact Identifier.ofJson_eq_ok_iff
  | statementKind => exact StatementKind.ofJson_eq_ok_iff
  | variableKind => exact VariableKind.ofJson_eq_ok_iff
  | char => exact Json.character_eq_ok_iff

/-- A value of the right shape is one that holds something. -/
theorem shaped_iff (type : FieldType) {value : Json} :
    type.Shaped value ↔ ∃ a, type.HeldBy a value := by
  cases type with
  | span => exact Span.shaped_iff
  | identifier => exact Identifier.shaped_iff
  | statementKind => exact Iff.rfl
  | variableKind => exact Iff.rfl
  | char => exact Iff.rfl

end FieldType

/-- The value holds each of the values of the row under the name of its field, or in its place. -/
def FieldRow.HeldBy {fields : List Field} (row : FieldRow fields) : Json → Prop :=
  Json.Shaped (row.cells.map fun cell ↦ (cell.1.name, cell.1.type.HeldBy cell.2))

/-! ### Diagnostics -/

namespace Diagnostic

/-- An object whose only key is the name of a kind. Under it is an object that has every field of
the kind, or the array of the values of the fields. -/
def Shaped (value : Json) : Prop :=
  ∃ (kind : Kind) (fields : Json), value = .obj [(kind.name, fields)] ∧
    Json.Shaped (kind.fields.map fun field ↦ (field.name, field.type.Shaped)) fields

def HeldBy (diagnostic : Diagnostic) (value : Json) : Prop :=
  ∃ fields, value = .obj [(diagnostic.kind.name, fields)] ∧ diagnostic.row.HeldBy fields

theorem ofFields_eq_ok_iff {kind : Kind} {row : FieldRow kind.fields} {value : Json} :
    ofFields kind value = .ok ⟨kind, row⟩ ↔ row.HeldBy value := by
  rw [ofFields, Shape.map_eq_ok_iff]
  simp only [Diagnostic.mk.injEq, heq_eq_eq, true_and, exists_eq_right]
  rw [FieldRow.ofJson, Json.record_eq_ok_iff_shaped, FieldRow.HeldBy]
  simp only [FieldType.ofJson_eq_ok_iff]

theorem kind_of_ofFields {kind : Kind} {diagnostic : Diagnostic} {value : Json}
    (hread : ofFields kind value = .ok diagnostic) : diagnostic.kind = kind := by
  obtain ⟨row, -, rfl⟩ := Shape.map_eq_ok_iff.mp hread
  rfl

theorem ofJson_eq_ok_iff {diagnostic : Diagnostic} {value : Json} :
    ofJson value = .ok diagnostic ↔ diagnostic.HeldBy value := by
  obtain ⟨kind, row⟩ := diagnostic
  rw [ofJson, Shape.bind_eq_ok_iff, HeldBy]
  simp only [← ofFields_eq_ok_iff]
  constructor
  · rintro ⟨⟨name, fields?⟩, hname, hread⟩
    rw [Json.nameAndValue_eq_ok_iff] at hname
    dsimp only at hread
    split at hread
    · cases hread
    · cases hread
    · next found fields hfound =>
      obtain rfl := kind_of_ofFields hread
      obtain rfl := Kind.ofName?_eq_some_iff.mp hfound
      rcases hname with ⟨-, hnone⟩ | ⟨_, hvalue, hsome⟩
      · cases hnone
      · cases hsome
        exact ⟨fields, hvalue, hread⟩
  · rintro ⟨fields, rfl, hread⟩
    have hfound : Kind.ofName? kind.name = some kind := Kind.ofName?_eq_some_iff.mpr rfl
    exact ⟨(kind.name, some fields), rfl, by simp only [hfound, hread]⟩

theorem shaped_iff {value : Json} :
    Shaped value ↔ ∃ diagnostic : Diagnostic, diagnostic.HeldBy value := by
  have htype (type : FieldType) : type.Shaped = fun json ↦ ∃ a, type.HeldBy a json :=
    funext fun _ ↦ propext type.shaped_iff
  have hfields (kind : Kind) (fields : Json) :
      Json.Shaped (kind.fields.map fun field ↦ (field.name, field.type.Shaped)) fields ↔
        ∃ row : FieldRow kind.fields, row.HeldBy fields := by
    simp only [htype]
    exact (Json.exists_row_shaped_iff Field.name fun field ↦ field.type.HeldBy).symm
  constructor
  · rintro ⟨kind, fields, hvalue, hshaped⟩
    obtain ⟨row, hrow⟩ := (hfields kind fields).mp hshaped
    exact ⟨⟨kind, row⟩, fields, hvalue, hrow⟩
  · rintro ⟨⟨kind, row⟩, fields, hvalue, hrow⟩
    exact ⟨kind, fields, hvalue, (hfields kind fields).mpr ⟨row, hrow⟩⟩

/-- A span is read from an object that has two integers of 32 bits as its start and end, whatever
else it has, or from the array of two such integers, and from nothing else; it has just these
integers. A diagnostic is read from an object whose only key is the name of a kind, and which has
under it an object with a value of the right shape for every field of the kind, whatever else it
has, or an array of just as many such values, and from nothing else; it has just what the values
hold. -/
theorem accepted_iff_shaped (value : Json) :
    ((∃ span, Span.ofJson value = .ok span) ↔ Span.Shaped value) ∧
    (∀ span, Span.ofJson value = .ok span ↔ span.HeldBy value) ∧
    ((∃ diagnostic, ofJson value = .ok diagnostic) ↔ Shaped value) ∧
    ∀ diagnostic, ofJson value = .ok diagnostic ↔ diagnostic.HeldBy value := by
  refine ⟨?_, fun span ↦ Span.ofJson_eq_ok_iff, ?_, fun diagnostic ↦ ofJson_eq_ok_iff⟩
  · simp only [Span.ofJson_eq_ok_iff]
    exact Span.shaped_iff.symm
  · simp only [ofJson_eq_ok_iff]
    exact shaped_iff.symm

end Diagnostic

end LintCore
