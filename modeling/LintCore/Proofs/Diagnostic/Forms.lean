import LintCore.Diagnostic.Json
import LintCore.Proofs.Diagnostic.Naming
import LintCore.Proofs.Json.Shapes
import LintCore.Proofs.Json.Text

/-!
# Diagnostics as JSON, and back

A diagnostic can be written in several ways (`Diagnostic.WrittenAs`): its fields, and those of the
spans and identifiers among them, as objects with their entries in any order or as arrays of the
values. A decoder is lawful for a way of writing if it reads what is written as what it was written
for, and the text of that too (`Json.Lawful`). The decoders of spans, identifiers, single fields and
diagnostics are lawful each because those of the parts are, so whatever is written comes back
(`Diagnostic.written_forms_read_back`).
-/

set_option autoImplicit false
set_option relaxedAutoImplicit false

namespace LintCore

/-! ### Lawful decoders -/

namespace Json

theorem IsRecord.plain {fields : List (String × Json)} {value : Json}
    (hvalue : IsRecord fields value) (hfields : ∀ entry ∈ fields, entry.2.Plain) : value.Plain := by
  cases value with
  | obj entries =>
    have hperm : entries.Perm fields := hvalue
    exact .obj fun entry hentry ↦ hfields entry (hperm.subset hentry)
  | arr items =>
    obtain rfl : items = fields.map Prod.snd := hvalue
    exact .arr (List.forall_mem_map.mpr hfields)
  | _ => cases hvalue

theorem IsRecord.sorted {fields : List (String × Json)} {value : Json}
    (hvalue : IsRecord fields value) (hnodup : (fields.map Prod.fst).Nodup) :
    IsRecord (fields.map fun (key, value) ↦ (key, value.sorted)) value.sorted := by
  cases value with
  | obj entries =>
    have hperm : entries.Perm fields := hvalue
    have hentries : (([] ++ entries).map Prod.fst).Nodup :=
      (hperm.map Prod.fst).nodup_iff.mpr hnodup
    exact (sortedEntries_perm hentries).trans (hperm.map _)
  | arr items =>
    obtain rfl : items = fields.map Prod.snd := hvalue
    change sortedItems _ = _
    rw [sortedItems_eq_map, List.map_map, List.map_map]
    rfl
  | _ => cases hvalue

/-- What is written for a value is read as this value, also once it has been printed. -/
structure Lawful {α : Type} (written : α → Json → Prop) (read : Decoder α) : Prop where
  read_eq {a : α} {value : Json} (hwritten : written a value) : read value = .ok a
  plain {a : α} {value : Json} (hwritten : written a value) : value.Plain
  sorted {a : α} {value : Json} (hwritten : written a value) : written a value.sorted

theorem Lawful.read_text {α : Type} {written : α → Json → Prop} {read : Decoder α}
    (hlawful : Lawful written read) {a : α} {value : Json} (hwritten : written a value) :
    (parse? value.render).map read = some (.ok a) := by
  rw [parse?_render (hlawful.plain hwritten), Option.map_some,
    hlawful.read_eq (hlawful.sorted hwritten)]

/-- A decoder is lawful for texts if it reads each of them. -/
theorem lawful_str {α : Type} {text : α → String} {read : Decoder α}
    (hread : ∀ a, read (.str (text a)) = .ok a) :
    Lawful (fun a value ↦ value = .str (text a)) read where
  read_eq := by
    rintro a value rfl
    exact hread a
  plain := by
    rintro a value rfl
    exact .str _
  sorted := by
    rintro a value rfl
    rfl

theorem offset_int (word : UInt32) : offset (.int word.toNat) = .ok word :=
  offset_eq_ok_iff.mpr rfl

theorem plain_int (word : UInt32) : Plain (.int word.toNat) := by
  have hword := word.toNat_lt
  refine .int ⟨?_, ?_⟩ <;> simp only [Text.signedBound, UInt64.size] <;> omega

/-- A choice is read by its name, as long as no other has this name. -/
theorem oneOf_str {α : Type} {choices : List α} {name : α → String}
    (hnodup : (choices.map name).Nodup) {choice : α} (hmem : choice ∈ choices) :
    oneOf choices name (.str (name choice)) = .ok choice :=
  (oneOf_eq_ok_iff hnodup).mpr ⟨hmem, .inl rfl⟩

end Json

/-! ### Spans and identifiers -/

namespace Span

/-- An object with the offsets, in either order, or the array of them. -/
def WrittenAs (span : Span) (value : Json) : Prop :=
  Json.IsRecord [("start", .int span.start.toNat), ("end", .int span.stop.toNat)] value

/-- The offsets alone. -/
def toArray (span : Span) : Json := .arr [.int span.start.toNat, .int span.stop.toNat]

theorem writtenAs_toJson (span : Span) : span.WrittenAs span.toJson := List.Perm.refl _

theorem writtenAs_toArray (span : Span) : span.WrittenAs span.toArray := rfl

theorem lawful : Json.Lawful WrittenAs ofJson where
  read_eq {span value} hwritten := by
    have hread : Json.members "Span" [⟨"start", UInt32, Json.offset⟩, ⟨"end", UInt32, Json.offset⟩]
        value = .ok (span.start, span.stop, ()) := by
      refine Json.record_of_isRecord _ _ (by decide) ?_ hwritten
      refine .cons ⟨rfl, ?_⟩ (.cons ⟨rfl, ?_⟩ .nil)
      -- The members are taken apart first, or else the decoder of offsets would be unfolded.
      · dsimp only
        exact Json.offset_int span.start
      · dsimp only
        exact Json.offset_int span.stop
    rw [ofJson, hread]
    rfl
  plain {span value} hwritten := by
    refine hwritten.plain ?_
    simp [Json.plain_int]
  sorted {span value} hwritten := by
    have hkeys : ["start", "end"].Nodup := by decide
    exact hwritten.sorted hkeys

end Span

namespace Identifier

/-- An object or an array, with the span written in one way or another. -/
def WrittenAs (identifier : Identifier) (value : Json) : Prop :=
  ∃ place, identifier.span.WrittenAs place ∧
    Json.IsRecord [("span", place), ("normalized_name", .str identifier.name)] value

/-- The span as the array of its offsets, and the name. -/
def toArray (identifier : Identifier) : Json :=
  .arr [identifier.span.toArray, .str identifier.name]

theorem writtenAs_toJson (identifier : Identifier) : identifier.WrittenAs identifier.toJson :=
  ⟨_, identifier.span.writtenAs_toJson, List.Perm.refl _⟩

theorem writtenAs_toArray (identifier : Identifier) : identifier.WrittenAs identifier.toArray :=
  ⟨_, identifier.span.writtenAs_toArray, rfl⟩

theorem lawful : Json.Lawful WrittenAs ofJson where
  read_eq {identifier value} hwritten := by
    obtain ⟨place, hplace, hvalue⟩ := hwritten
    have hread : Json.members "Identifier"
        [⟨"span", Span, Span.ofJson⟩, ⟨"normalized_name", String, Json.text⟩] value =
          .ok (identifier.span, identifier.name, ()) := by
      refine Json.record_of_isRecord _ _ (by decide) ?_ hvalue
      exact .cons ⟨rfl, Span.lawful.read_eq hplace⟩ (.cons ⟨rfl, rfl⟩ .nil)
    rw [ofJson, hread]
    rfl
  plain {identifier value} hwritten := by
    obtain ⟨place, hplace, hvalue⟩ := hwritten
    refine hvalue.plain ?_
    simp [Span.lawful.plain hplace, Json.Plain.str]
  sorted {identifier value} hwritten := by
    obtain ⟨place, hplace, hvalue⟩ := hwritten
    have hkeys : ["span", "normalized_name"].Nodup := by decide
    exact ⟨place.sorted, Span.lawful.sorted hplace, hvalue.sorted hkeys⟩

end Identifier

/-! ### Fields -/

theorem StatementKind.ofJson_str (kind : StatementKind) : ofJson (.str kind.name) = .ok kind :=
  Json.oneOf_str (by decide) kind.mem_all

theorem VariableKind.ofJson_str (kind : VariableKind) : ofJson (.str kind.name) = .ok kind :=
  Json.oneOf_str (by decide) kind.mem_all

theorem Json.character_str (c : Char) : character (.str (String.singleton c)) = .ok c :=
  character_eq_ok_iff.mpr rfl

namespace FieldType

def WrittenAs : (type : FieldType) → type.Value → Json → Prop
  | span => Span.WrittenAs
  | identifier => Identifier.WrittenAs
  | statementKind => fun kind value ↦ value = .str kind.name
  | variableKind => fun kind value ↦ value = .str kind.name
  | char => fun (c : Char) value ↦ value = .str (String.singleton c)

/-- As JSON, with spans and identifiers as arrays. -/
def toArray : (type : FieldType) → type.Value → Json
  | span => Span.toArray
  | identifier => Identifier.toArray
  | statementKind => StatementKind.toJson
  | variableKind => VariableKind.toJson
  | char => fun (c : Char) ↦ .str (String.singleton c)

theorem writtenAs_toJson (type : FieldType) (value : type.Value) :
    type.WrittenAs value (type.toJson value) := by
  cases type with
  | span => exact Span.writtenAs_toJson value
  | identifier => exact Identifier.writtenAs_toJson value
  | statementKind => rfl
  | variableKind => rfl
  | char => rfl

theorem writtenAs_toArray (type : FieldType) (value : type.Value) :
    type.WrittenAs value (type.toArray value) := by
  cases type with
  | span => exact Span.writtenAs_toArray value
  | identifier => exact Identifier.writtenAs_toArray value
  | statementKind => rfl
  | variableKind => rfl
  | char => rfl

theorem lawful (type : FieldType) : Json.Lawful type.WrittenAs type.ofJson := by
  cases type with
  | span => exact Span.lawful
  | identifier => exact Identifier.lawful
  | statementKind => exact Json.lawful_str StatementKind.ofJson_str
  | variableKind => exact Json.lawful_str VariableKind.ofJson_str
  | char => exact Json.lawful_str Json.character_str

end FieldType

namespace FieldRow

variable {fields : List Field}

/-- An object or an array, with each of the values written in one way or another. -/
def WrittenAs (row : FieldRow fields) (value : Json) : Prop :=
  ∃ entries, List.Forall₂
    (fun cell entry ↦ entry.1 = cell.1.name ∧ cell.1.type.WrittenAs cell.2 entry.2)
    (Shape.Row.cells row) entries ∧ Json.IsRecord entries value

/-- The values alone, with spans and identifiers as arrays too. -/
def toArray (row : FieldRow fields) : Json :=
  .arr (Shape.Row.toList (fun (field : Field) value ↦ field.type.toArray value) row)

section View

variable {view : (field : Field) → field.Value → Json}
  (hview : ∀ (field : Field) value, field.type.WrittenAs value (view field value))
  (row : FieldRow fields)

include hview

theorem writtenAs_obj : row.WrittenAs
    (.obj (Shape.Row.toList (fun field value ↦ (field.name, view field value)) row)) :=
  ⟨_, Shape.Row.forall₂_cells_toList row fun field value ↦ ⟨rfl, hview field value⟩,
    List.Perm.refl _⟩

theorem writtenAs_arr : row.WrittenAs (.arr (Shape.Row.toList view row)) :=
  ⟨_, Shape.Row.forall₂_cells_toList row fun field value ↦ ⟨rfl, hview field value⟩,
    (Shape.Row.map_toList row (fun field value ↦ (field.name, view field value)) Prod.snd).symm⟩

end View

theorem lawful (name : String) (hnames : (fields.map Field.name).Nodup) :
    Json.Lawful (fun row : FieldRow fields ↦ row.WrittenAs) (ofJson name fields) where
  read_eq {row value} hwritten := by
    obtain ⟨entries, hentries, hvalue⟩ := hwritten
    refine Json.record_of_isRecord _ _ hnames (hentries.imp fun cell entry hentry ↦ ?_) hvalue
    exact ⟨hentry.1, cell.1.type.lawful.read_eq hentry.2⟩
  plain {row value} hwritten := by
    obtain ⟨entries, hentries, hvalue⟩ := hwritten
    refine hvalue.plain fun entry hmem ↦ ?_
    obtain ⟨cell, -, -, hentry⟩ := Json.exists_mem_of_forall₂ hentries.flip entry hmem
    exact cell.1.type.lawful.plain hentry
  sorted {row value} hwritten := by
    obtain ⟨entries, hentries, hvalue⟩ := hwritten
    have hkeys : entries.map Prod.fst = fields.map Field.name :=
      Shape.Row.map_eq_of_forall₂_cells row (hentries.imp fun _ _ hentry ↦ hentry.1)
    refine ⟨_, List.forall₂_map_right_iff.mpr ?_, hvalue.sorted (hkeys ▸ hnames)⟩
    exact hentries.imp fun cell _ hentry ↦ ⟨hentry.1, cell.1.type.lawful.sorted hentry.2⟩

end FieldRow

/-! ### Diagnostics -/

theorem Catalogue.nodup_fieldNames {entry : Entry} (hentry : entry ∈ catalogue) :
    (entry.fields.map Field.name).Nodup := by
  have hall : catalogue.all (fun entry ↦ decide (entry.fields.map Field.name).Nodup) = true := by
    decide +kernel
  exact of_decide_eq_true (List.all_eq_true.mp hall entry hentry)

theorem Kind.lawful_fields (kind : Kind) : Json.Lawful
    (fun row : FieldRow kind.fields ↦ row.WrittenAs) (FieldRow.ofJson kind.name kind.fields) :=
  FieldRow.lawful kind.name (Catalogue.nodup_fieldNames kind.entry_mem)

namespace Diagnostic

/-- The fields of the diagnostic, written in one way or another, under the name of its kind. -/
def WrittenAs (diagnostic : Diagnostic) (value : Json) : Prop :=
  ∃ fields, diagnostic.row.WrittenAs fields ∧ value = .obj [(diagnostic.kind.name, fields)]

/-- The diagnostic as JSON with the values of its fields alone, as they are otherwise. -/
def toItems (diagnostic : Diagnostic) : Json :=
  .obj [(diagnostic.kind.name, .arr diagnostic.row.toItems)]

/-- The diagnostic as JSON with an array for every record. -/
def toArrays (diagnostic : Diagnostic) : Json :=
  .obj [(diagnostic.kind.name, diagnostic.row.toArray)]

theorem writtenAs_toJson (diagnostic : Diagnostic) : diagnostic.WrittenAs diagnostic.toJson :=
  ⟨_, FieldRow.writtenAs_obj (fun field ↦ field.type.writtenAs_toJson) _, rfl⟩

theorem writtenAs_toItems (diagnostic : Diagnostic) : diagnostic.WrittenAs diagnostic.toItems :=
  ⟨_, FieldRow.writtenAs_arr (fun field ↦ field.type.writtenAs_toJson) _, rfl⟩

theorem writtenAs_toArrays (diagnostic : Diagnostic) :
    diagnostic.WrittenAs diagnostic.toArrays :=
  ⟨_, FieldRow.writtenAs_arr (fun field ↦ field.type.writtenAs_toArray) _, rfl⟩

theorem ofJson_obj (kind : Kind) (fields : Json) :
    ofJson (.obj [(kind.name, fields)]) = ofFields kind fields := by
  have hkind : Kind.ofName? kind.name = some kind := Kind.ofName?_eq_some_iff.mpr rfl
  simp [ofJson, Json.nameAndValue, hkind, bind, Except.bind]

theorem lawful : Json.Lawful WrittenAs ofJson where
  read_eq {diagnostic value} hwritten := by
    obtain ⟨fields, hfields, rfl⟩ := hwritten
    rw [ofJson_obj, ofFields, diagnostic.kind.lawful_fields.read_eq hfields]
    rfl
  plain {diagnostic value} hwritten := by
    obtain ⟨fields, hfields, rfl⟩ := hwritten
    have hplain := diagnostic.kind.lawful_fields.plain hfields
    exact .obj (List.forall_mem_singleton.mpr hplain)
  sorted {diagnostic value} hwritten := by
    obtain ⟨fields, hfields, rfl⟩ := hwritten
    exact ⟨fields.sorted, diagnostic.kind.lawful_fields.sorted hfields, rfl⟩

/-- However a diagnostic is written, it is read back from the value, and from the text of the value.
Whatever value is read as a diagnostic, this diagnostic is written so that it is read back. -/
theorem written_forms_read_back (diagnostic : Diagnostic) :
    ofJson diagnostic.toJson = .ok diagnostic ∧ ofJson diagnostic.toItems = .ok diagnostic ∧
      ofJson diagnostic.toArrays = .ok diagnostic ∧
      (Json.parse? diagnostic.toJson.render).map ofJson = some (.ok diagnostic) ∧
      (∀ value, diagnostic.WrittenAs value → ofJson value = .ok diagnostic ∧
        (Json.parse? value.render).map ofJson = some (.ok diagnostic)) ∧
      ∀ value read, ofJson value = .ok read → ofJson read.toJson = .ok read := by
  refine ⟨?_, ?_, ?_, ?_, ?_, ?_⟩
  · exact lawful.read_eq diagnostic.writtenAs_toJson
  · exact lawful.read_eq diagnostic.writtenAs_toItems
  · exact lawful.read_eq diagnostic.writtenAs_toArrays
  · exact lawful.read_text diagnostic.writtenAs_toJson
  · exact fun value hwritten ↦ ⟨lawful.read_eq hwritten, lawful.read_text hwritten⟩
  · exact fun value read _ ↦ lawful.read_eq read.writtenAs_toJson

/-- An assignment to a constant. -/
def assignedConst : Diagnostic :=
  { kind := ⟨⟨2, by decide +kernel⟩⟩
    row := (⟨⟨6, 7⟩, "x"⟩, ⟨⟨9, 10⟩, "x"⟩, .constDeclaration, ()) }

/-- An identifier as an array, its span as an object. -/
def declarationForm : Json := .arr [.obj [("start", .int 6), ("end", .int 7)], .str "x"]

/-- An identifier as an object, its span as an array. -/
def assignmentForm : Json := .obj [("normalized_name", .str "x"), ("span", .arr [.int 9, .int 10])]

/-- The fields in another order than that of the kind. -/
def assignedConstForm : Json :=
  .obj [("AssignmentToConstVariable", .obj [("var_kind", .str "Const"),
    ("declaration", declarationForm), ("assignment", assignmentForm)])]

theorem assignedConst_form_read_back :
    assignedConst.WrittenAs assignedConstForm ∧ ofJson assignedConstForm = .ok assignedConst ∧
      ofJson assignedConst.toJson = .ok assignedConst := by
  have hdeclaration : Identifier.WrittenAs ⟨⟨6, 7⟩, "x"⟩ declarationForm :=
    ⟨.obj [("start", .int 6), ("end", .int 7)], List.Perm.refl _, rfl⟩
  have hassignment : Identifier.WrittenAs ⟨⟨9, 10⟩, "x"⟩ assignmentForm :=
    ⟨.arr [.int 9, .int 10], rfl, List.Perm.swap _ _ _⟩
  have hwritten : assignedConst.WrittenAs assignedConstForm := by
    refine ⟨_, ⟨[("declaration", declarationForm), ("assignment", assignmentForm),
      ("var_kind", .str "Const")], ?_, ?_⟩, rfl⟩
    · exact .cons ⟨rfl, hdeclaration⟩ (.cons ⟨rfl, hassignment⟩ (.cons ⟨rfl, rfl⟩ .nil))
    · exact (List.perm_append_singleton _ _).symm
  obtain ⟨-, -, -, -, hforms, hread⟩ := written_forms_read_back assignedConst
  obtain ⟨hform, -⟩ := hforms assignedConstForm hwritten
  exact ⟨hwritten, hform, hread assignedConstForm assignedConst hform⟩

end Diagnostic

end LintCore
