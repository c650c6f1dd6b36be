import LintCore.Diagnostic.Basic

/-!
# The arguments of a message

What the arguments of a message are follows from its wording and from the types of the fields, not
from their values (`Reference.type?`): a field taken as it is gives an argument of the field's type,
and two places give a place. Every reference in the catalogue has a type, and the first one of each
wording that of a place (`Catalogue.typed_and_anchored`). So making the message of a diagnostic
loses none of its arguments, each of them has the type of its reference
(`FieldRow.map_type_arguments`), and the first is at the place that the message is about, whose
offsets are those of fields (`FieldRow.exists_anchor`).
-/

set_option autoImplicit false
set_option relaxedAutoImplicit false

namespace LintCore

/-! ### Types -/

/-- The type of the fields that give such an argument. -/
def Argument.type : Argument → FieldType
  | .span _ => .span
  | .identifier _ => .identifier
  | .statementKind _ => .statementKind
  | .char _ => .char

namespace FieldType

/-- A span is a place, and an identifier is at one. -/
def isPlace : FieldType → Bool
  | span | identifier => true
  | statementKind | variableKind | char => false

/-- Whether messages can have arguments of the type. -/
def isShown : FieldType → Bool
  | variableKind => false
  | span | identifier | statementKind | char => true

def place? : (type : FieldType) → type.Value → Option Span
  | span, value => some value
  | identifier, value => some value.span
  | statementKind, _ | variableKind, _ | char, _ => none

theorem exists_argument {type : FieldType} (hshown : type.isShown = true) (value : type.Value) :
    ∃ argument, type.argument? value = some argument ∧ argument.type = type ∧
      argument.span? = type.place? value := by
  cases type with
  | span => exact ⟨.span value, rfl, rfl, rfl⟩
  | identifier => exact ⟨.identifier value, rfl, rfl, rfl⟩
  | statementKind => exact ⟨.statementKind value, rfl, rfl, rfl⟩
  | variableKind => cases hshown
  | char => exact ⟨.char value, rfl, rfl, rfl⟩

theorem isShown_of_isPlace {type : FieldType} (hplace : type.isPlace = true) :
    type.isShown = true := by
  cases type <;> first | rfl | cases hplace

theorem exists_place {type : FieldType} (hplace : type.isPlace = true) (value : type.Value) :
    ∃ place, type.place? value = some place := by
  cases type with
  | span => exact ⟨value, rfl⟩
  | identifier => exact ⟨value.span, rfl⟩
  | statementKind => cases hplace
  | variableKind => cases hplace
  | char => cases hplace

end FieldType

theorem Argument.exists_span {argument : Argument} (hplace : argument.type.isPlace = true) :
    ∃ span, argument.span? = some span := by
  cases argument with
  | span place => exact ⟨place, rfl⟩
  | identifier ident => exact ⟨ident.span, rfl⟩
  | statementKind kind => cases hplace
  | char c => cases hplace

namespace Catalogue

/-- The type of the field with the name. -/
def fieldType? (name : String) : List Field → Option FieldType
  | [] => none
  | field :: fields => if field.name = name then some field.type else fieldType? name fields

def isPlace (fields : List Field) (name : String) : Bool :=
  ((fieldType? name fields).map FieldType.isPlace).getD false

/-- The type of the argument, if there will be one whatever the values of the fields. -/
def Reference.type? (fields : List Field) : Reference → Option FieldType
  | .field name => (fieldType? name fields).filter FieldType.isShown
  | .between first last => if isPlace fields first && isPlace fields last then some .span else none
  | .merge first second =>
    if isPlace fields first && isPlace fields second then some .span else none

/-- Every reference has a type. -/
def Wording.isTyped (fields : List Field) (wording : Wording) : Bool :=
  wording.references.all fun reference ↦ (reference.type? fields).isSome

/-- The first reference is to a place. -/
def Wording.isAnchored (fields : List Field) (wording : Wording) : Bool :=
  match wording.references with
  | [] => false
  | reference :: _ => (reference.type? fields).any FieldType.isPlace

/-- The wordings of all messages, the primary one first. -/
def Entry.wordings (entry : Entry) : List Wording := entry.primary :: entry.notes

end Catalogue

open Catalogue

/-! ### Values -/

namespace FieldRow

/-- The places among the values of the fields, those of identifiers included. -/
def places : {fields : List Field} → FieldRow fields → List Span
  | [], _ => []
  | field :: _, (value, rest) => (field.type.place? value).toList ++ places rest

variable {fields : List Field} (row : FieldRow fields)

/-- The span is a field's, or it reaches from the start of one field's to the stop of another's. -/
def IsJoined (span : Span) : Prop :=
  span ∈ row.places ∨
    (∃ first ∈ row.places, span.start = first.start) ∧ ∃ last ∈ row.places, span.stop = last.stop

theorem exists_value {name : String} {type : FieldType}
    (hname : fieldType? name fields = some type) :
    ∃ value : type.Value, argument? name row = type.argument? value ∧
      ∀ place ∈ type.place? value, place ∈ row.places := by
  induction fields with
  | nil => cases hname
  | cons field fields ih =>
    obtain ⟨value, rest⟩ := row
    rw [fieldType?] at hname
    rw [argument?, places]
    split at hname
    · next heq =>
      obtain rfl := Option.some.inj hname
      rw [if_pos heq]
      exact ⟨value, rfl, fun place hplace ↦
        List.mem_append_left _ (Option.mem_toList.mpr hplace)⟩
    · next hne =>
      obtain ⟨value', hvalue, hplaces⟩ := ih rest hname
      rw [if_neg hne]
      exact ⟨value', hvalue, fun place hplace ↦ List.mem_append_right _ (hplaces place hplace)⟩

theorem exists_span {name : String} (hname : isPlace fields name = true) :
    ∃ place ∈ row.places, row.span? name = some place := by
  rw [isPlace] at hname
  cases htype : fieldType? name fields with
  | none =>
    rw [htype] at hname
    cases hname
  | some type =>
    rw [htype] at hname
    obtain ⟨value, hvalue, hplaces⟩ := row.exists_value htype
    obtain ⟨argument, hargument, -, hspan⟩ :=
      FieldType.exists_argument (FieldType.isShown_of_isPlace hname) value
    obtain ⟨place, hplace⟩ := FieldType.exists_place hname value
    refine ⟨place, hplaces place hplace, ?_⟩
    rw [span?, hvalue, hargument, Option.bind_some, hspan, hplace]

/-- A reference with a type gives an argument of this type. -/
theorem exists_resolve {reference : Reference} {type : FieldType}
    (htype : reference.type? fields = some type) :
    ∃ argument, row.resolve? reference = some argument ∧ argument.type = type ∧
      ∀ span ∈ argument.span?, row.IsJoined span := by
  cases reference with
  | field name =>
    obtain ⟨hname, hshown⟩ := Option.filter_eq_some_iff.mp htype
    obtain ⟨value, hvalue, hplaces⟩ := row.exists_value hname
    obtain ⟨argument, hargument, htype, hspan⟩ := FieldType.exists_argument hshown value
    refine ⟨argument, hvalue.trans hargument, htype, fun span hmem ↦ .inl (hplaces span ?_)⟩
    rw [← hspan]
    exact hmem
  | between first last =>
    rw [Reference.type?] at htype
    split at htype
    · next hplaces =>
      obtain ⟨hfirst, hlast⟩ := Bool.and_eq_true_iff.mp hplaces
      obtain rfl := Option.some.inj htype
      obtain ⟨start, hstart, hfirst⟩ := row.exists_span hfirst
      obtain ⟨stop, hstop, hlast⟩ := row.exists_span hlast
      refine ⟨.span (.between start stop), by simp [resolve?, hfirst, hlast], rfl, ?_⟩
      rintro span ⟨rfl⟩
      exact .inr ⟨⟨start, hstart, rfl⟩, stop, hstop, rfl⟩
    · cases htype
  | merge first second =>
    rw [Reference.type?] at htype
    split at htype
    · next hplaces =>
      obtain ⟨hfirst, hsecond⟩ := Bool.and_eq_true_iff.mp hplaces
      obtain rfl := Option.some.inj htype
      obtain ⟨left, hleft, hfirst⟩ := row.exists_span hfirst
      obtain ⟨right, hright, hsecond⟩ := row.exists_span hsecond
      refine ⟨.span (left.merge right), by simp [resolve?, hfirst, hsecond], rfl, ?_⟩
      rintro span ⟨rfl⟩
      refine .inr ⟨?_, ?_⟩
      · rcases Span.start_merge left right with hstart | hstart
        · exact ⟨left, hleft, hstart⟩
        · exact ⟨right, hright, hstart⟩
      · rcases Span.stop_merge left right with hstop | hstop
        · exact ⟨left, hleft, hstop⟩
        · exact ⟨right, hright, hstop⟩
    · cases htype

theorem map_type_filterMap {references : List Reference}
    (htyped : references.all (fun reference ↦ (reference.type? fields).isSome) = true) :
    (references.filterMap row.resolve?).map (fun argument ↦ some argument.type) =
      references.map (Reference.type? fields) := by
  induction references with
  | nil => rfl
  | cons reference rest ih =>
    obtain ⟨hreference, hrest⟩ := Bool.and_eq_true_iff.mp htyped
    obtain ⟨type, htype⟩ := Option.isSome_iff_exists.mp hreference
    obtain ⟨argument, hargument, rfl, -⟩ := row.exists_resolve htype
    rw [List.filterMap_cons_some hargument, List.map_cons, ih hrest, List.map_cons, htype]

/-- The message has an argument for each reference, of the type that the reference has. -/
theorem map_type_arguments {wording : Wording} (htyped : wording.isTyped fields = true) :
    (row.message wording).arguments.map (fun argument ↦ some argument.type) =
      wording.references.map (Reference.type? fields) :=
  row.map_type_filterMap htyped

/-- The first argument is at a place, and this place is the anchor of the message. -/
theorem exists_anchor {wording : Wording} (hanchored : wording.isAnchored fields = true) :
    ∃ argument, (row.message wording).arguments.head? = some argument ∧
      argument.type.isPlace = true ∧ argument.span? = some (row.message wording).anchor ∧
      row.IsJoined (row.message wording).anchor := by
  obtain ⟨template, references⟩ := wording
  cases references with
  | nil => cases hanchored
  | cons reference rest =>
    have hany : (reference.type? fields).any FieldType.isPlace = true := hanchored
    obtain ⟨type, htype, hplace⟩ := (Option.any_eq_true _ _).mp hany
    obtain ⟨argument, hargument, rfl, hjoined⟩ := row.exists_resolve htype
    obtain ⟨span, hspan⟩ := Argument.exists_span hplace
    have hhead : (row.message ⟨template, reference :: rest⟩).arguments.head? = some argument := by
      rw [message, List.filterMap_cons_some hargument, List.head?_cons]
    have hanchor : (row.message ⟨template, reference :: rest⟩).anchor = span := by
      rw [Message.anchor, hhead, Option.bind_some, hspan, Option.getD_some]
    rw [hanchor]
    exact ⟨argument, hhead, hplace, hspan, hjoined span hspan⟩

end FieldRow

/-! ### The catalogue -/

namespace Catalogue

theorem typed_and_anchored : catalogue.all (fun entry ↦ entry.wordings.all fun wording ↦
    wording.isTyped entry.fields && wording.isAnchored entry.fields) = true := by
  decide +kernel

theorem typed_and_anchored_of_mem {entry : Entry} (hentry : entry ∈ catalogue) {wording : Wording}
    (hwording : wording ∈ entry.wordings) :
    wording.isTyped entry.fields = true ∧ wording.isAnchored entry.fields = true :=
  Bool.and_eq_true_iff.mp (List.all_eq_true.mp (List.all_eq_true.mp typed_and_anchored entry hentry)
    wording hwording)

end Catalogue

end LintCore
