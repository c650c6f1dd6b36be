import LintCore.Proofs.Diagnostic.Anchors
import LintCore.Text.Spelling
import Mathlib.Data.List.Forall2
import Mathlib.Data.Option.Basic

/-!
# Templates and their arguments

In the templates of the catalogue each opening brace is doubled or opens a hole, and each hole has
an argument of its message, a statement kind if the hole asks for a style
(`Template.Reads`, `templates_fit_arguments`). Reading a template is silent about all other braces
and writes holes without an argument as they are, so this is what keeps such holes out of messages:
a formatted message has the characters of its template with a text in place of each hole
(`Message.Filled`). Template, holes and the types of the arguments depend on the kind alone, and so
the messages of two diagnostics of one kind differ in these texts and nowhere else.
-/

set_option autoImplicit false
set_option relaxedAutoImplicit false

namespace LintCore

open Catalogue

/-! ### Braces -/

namespace Template

/-- The template is read as the pieces, and each opening brace in it is doubled or opens a hole
that fits. -/
inductive Reads (fits : Nat → Style → Prop) : List Char → List Piece → Prop
  | nil : Reads fits [] []
  | plain {c : Char} {rest : List Char} {pieces : List Piece} :
    c ≠ '\x7b' → Reads fits rest pieces → Reads fits (c :: rest) (.literal c :: pieces)
  | doubled {rest : List Char} {pieces : List Piece} :
    Reads fits rest pieces → Reads fits ('\x7b' :: '\x7b' :: rest) (.literal '\x7b' :: pieces)
  | hole {body rest : List Char} {pieces : List Piece} {index : Nat} {style : Style} :
    '\x7d' ∉ body → holeBody? body = some (index, style) → fits index style →
      Reads fits rest pieces →
      Reads fits ('\x7b' :: (body ++ '\x7d' :: rest))
        (.hole index style ('\x7b' :: body ++ ['\x7d']) :: pieces)

/-- Whether a template of which the first `skipped` characters have been read is read in this
way. -/
def readsFrom (fits : Nat → Style → Bool) : (skipped : Nat) → List Char → Bool
  | _, [] => true
  | skipped + 1, _ :: rest => readsFrom fits skipped rest
  | 0, '\x7b' :: '\x7b' :: rest => readsFrom fits 1 ('\x7b' :: rest)
  | 0, '\x7b' :: rest =>
    match (body? rest).bind fun body ↦ (holeBody? body).map fun hole ↦ (body, hole) with
    | some (body, index, style) => fits index style && readsFrom fits (body.length + 1) rest
    | none => false
  | 0, _ :: rest => readsFrom fits 0 rest

theorem eq_of_body?_eq_some {text body : List Char} (h : body? text = some body) :
    '\x7d' ∉ body ∧ text = body ++ '\x7d' :: text.drop (body.length + 1) := by
  induction text generalizing body with
  | nil => cases h
  | cons c rest ih =>
    by_cases hc : c = '\x7d'
    · subst hc
      obtain rfl := Option.some.inj h
      simp
    · rw [body?] at h
      · obtain ⟨tail, htail, rfl⟩ := Option.map_eq_some_iff.mp h
        obtain ⟨hmem, hrest⟩ := ih htail
        exact ⟨by simp [Ne.symm hc, hmem], congrArg (c :: ·) hrest⟩
      · exact hc

/-- What opens a hole is the text up to the nearest closing brace. -/
theorem hole_of_opened {text body : List Char} {index : Nat} {style : Style}
    (h : ((body? text).bind fun body ↦ (holeBody? body).map fun hole ↦ (body, hole)) =
      some (body, index, style)) :
    '\x7d' ∉ body ∧ holeBody? body = some (index, style) ∧
      text = body ++ '\x7d' :: text.drop (body.length + 1) := by
  obtain ⟨nearest, hnearest, hopen⟩ := Option.bind_eq_some_iff.mp h
  obtain ⟨hole, hhole, heq⟩ := Option.map_eq_some_iff.mp hopen
  cases heq
  obtain ⟨hclose, htext⟩ := eq_of_body?_eq_some hnearest
  exact ⟨hclose, hhole, htext⟩

theorem reads_tokenizeFrom {fits : Nat → Style → Bool} {skipped : Nat} {text : List Char}
    (h : readsFrom fits skipped text = true) :
    Reads (fun index style ↦ fits index style = true) (text.drop skipped)
      (tokenizeFrom skipped text) := by
  fun_induction tokenizeFrom skipped text with
  | case1 skipped =>
    rw [List.drop_nil]
    exact .nil
  | case2 skipped c rest ih => exact ih h
  | case3 rest ih => exact .doubled (ih h)
  | case4 rest hsingle body index style hhole ih =>
    rw [readsFrom.eq_4 fits rest hsingle, hhole] at h
    obtain ⟨hfits, hrest⟩ := Bool.and_eq_true_iff.mp h
    obtain ⟨hclose, hbody, htext⟩ := hole_of_opened hhole
    have hreads := Reads.hole hclose hbody hfits (ih hrest)
    rw [← htext] at hreads
    exact hreads
  | case5 rest hsingle hnone ih =>
    rw [readsFrom.eq_4 fits rest hsingle, hnone] at h
    cases h
  | case6 c rest hdouble hopen ih =>
    rw [readsFrom.eq_5 fits c rest hdouble hopen] at h
    exact .plain hopen (ih h)

theorem Reads.imp {fits fits' : Nat → Style → Prop} {text : List Char} {pieces : List Piece}
    (h : Reads fits text pieces) (himp : ∀ index style, fits index style → fits' index style) :
    Reads fits' text pieces := by
  induction h with
  | nil => exact .nil
  | plain hc _ ih => exact .plain hc ih
  | doubled _ ih => exact .doubled ih
  | hole hbody hhole hfits _ ih => exact .hole hbody hhole (himp _ _ hfits) ih

end Template

/-! ### Texts in the holes -/

namespace Message

/-- A hole has an argument, and asks for a style only if this is a statement kind. -/
def Fits (arguments : List Argument) (index : Nat) (style : Template.Style) : Prop :=
  ∃ argument, arguments[index]? = some argument ∧
    (style ≠ .plain → argument.type = .statementKind)

/-- The text has the literal characters of the pieces, and the text of an argument for each hole. -/
inductive Filled (source : Source) (arguments : List Argument) :
    List Template.Piece → List Char → Prop
  | nil : Filled source arguments [] []
  | literal {c : Char} {pieces : List Template.Piece} {text : List Char} :
    Filled source arguments pieces text → Filled source arguments (.literal c :: pieces) (c :: text)
  | hole {index : Nat} {style : Template.Style} {written : List Char}
    {pieces : List Template.Piece} {text : List Char} {argument : Argument} :
    arguments[index]? = some argument → Filled source arguments pieces text →
      Filled source arguments (.hole index style written :: pieces)
        ((argument.text source style).toList ++ text)

theorem filled_of_reads {source : Source} {arguments : List Argument} {template : List Char}
    {pieces : List Template.Piece} (h : Template.Reads (Fits arguments) template pieces) :
    Filled source arguments pieces (pieces.flatMap (fill source arguments)) := by
  induction h with
  | nil => exact .nil
  | plain _ _ ih => exact .literal ih
  | doubled _ ih => exact .literal ih
  | @hole body rest pieces index style _ _ hfits _ ih =>
    obtain ⟨argument, hargument, -⟩ := hfits
    have hfill : fill source arguments (.hole index style ('\x7b' :: body ++ ['\x7d'])) =
        (argument.text source style).toList := by
      rw [fill, hargument]
    rw [List.flatMap_cons, hfill]
    exact .hole hargument ih

end Message

/-! ### The catalogue -/

namespace Catalogue

/-- Whether a hole fits arguments of these types. -/
def fitsTypes (types : List (Option FieldType)) (index : Nat) (style : Template.Style) : Bool :=
  types[index]?.join.any fun type ↦ style = .plain || type = .statementKind

theorem fits_of_fitsTypes {arguments : List Argument} {index : Nat} {style : Template.Style}
    (h : fitsTypes (arguments.map fun argument ↦ some argument.type) index style = true) :
    Message.Fits arguments index style := by
  obtain ⟨type, htype, hstyle⟩ := (Option.any_eq_true _ _).mp h
  rw [List.getElem?_map, Option.join_eq_some_iff, Option.map_eq_some_iff] at htype
  obtain ⟨argument, hargument, heq⟩ := htype
  obtain rfl := Option.some.inj heq
  refine ⟨argument, hargument, fun hne ↦ ?_⟩
  simpa [hne] using hstyle

/-- The wordings of the catalogue: the types that their references have, and their templates. -/
def slots : List (List (Option FieldType) × String) :=
  catalogue.flatMap fun entry ↦ entry.wordings.map fun wording ↦
    (wording.references.map (Reference.type? entry.fields), wording.template)

theorem readsFrom_and_printed_slots : ∀ slot ∈ slots,
    (Template.readsFrom (fitsTypes slot.1) 0 slot.2.toList &&
      slot.2.toList.all fun c ↦ 0x20 ≤ c.toNat) = true := by
  refine @Text.all_of_spelled _ slots Prod.snd (fun slot template ↦
    Template.readsFrom (fitsTypes slot.1) 0 template && template.all fun c ↦ 0x20 ≤ c.toNat) ?_
  apply Exists.intro
  apply And.intro
  · repeat'
      first
      | exact Text.Spelled.nil
      | apply Text.Spelled.cons
      | apply Text.Spelled.cons_of_eq
      | exact Text.append_eq_ofList rfl rfl
      | exact Text.append_eq_ofList (Text.append_eq_ofList rfl rfl) rfl
  · decide +kernel

theorem mem_slots {entry : Entry} {wording : Wording} (hentry : entry ∈ catalogue)
    (hwording : wording ∈ entry.wordings) :
    (wording.references.map (Reference.type? entry.fields), wording.template) ∈ slots :=
  List.mem_flatMap.mpr ⟨entry, hentry, List.mem_map.mpr ⟨wording, hwording, rfl⟩⟩

end Catalogue

/-! ### The messages of diagnostics -/

namespace Diagnostic

theorem reads_of_mem_messages {diagnostic : Diagnostic} {message : Message}
    (hmessage : message ∈ diagnostic.report.messages) :
    Template.Reads (Message.Fits message.arguments) message.template.toList
      (Template.tokenize message.template) := by
  rw [messages_report] at hmessage
  obtain ⟨wording, hwording, rfl⟩ := List.mem_map.mp hmessage
  have hentry := diagnostic.kind.entry_mem
  have htypes := diagnostic.row.map_type_arguments (typed_and_anchored_of_mem hentry hwording).1
  have hslot : (wording.references.map (Reference.type? diagnostic.kind.fields),
      wording.template) ∈ slots := mem_slots hentry hwording
  obtain ⟨hreads, -⟩ := Bool.and_eq_true_iff.mp (readsFrom_and_printed_slots _ hslot)
  refine (Template.reads_tokenizeFrom hreads).imp fun index style hfits ↦ ?_
  rw [← htypes] at hfits
  exact fits_of_fitsTypes hfits

/-- The templates themselves have no control characters. -/
theorem printed_template_of_mem_messages {diagnostic : Diagnostic} {message : Message}
    (hmessage : message ∈ diagnostic.report.messages) : Text.Printed message.template := by
  rw [messages_report] at hmessage
  obtain ⟨wording, hwording, rfl⟩ := List.mem_map.mp hmessage
  obtain ⟨-, htemplate⟩ := Bool.and_eq_true_iff.mp
    (readsFrom_and_printed_slots _ (mem_slots diagnostic.kind.entry_mem hwording))
  exact Text.printed_iff.mp htemplate

theorem filled_of_mem_messages (diagnostic : Diagnostic) {message : Message}
    (hmessage : message ∈ diagnostic.report.messages) (source : Source) :
    Message.Filled source message.arguments (Template.tokenize message.template)
      (message.format source).toList := by
  rw [Message.format, String.toList_ofList]
  exact Message.filled_of_reads (reads_of_mem_messages hmessage)

/-- The messages of a diagnostic have the templates that its kind declares, in this order. In every
one of them, each opening brace of the template is doubled or opens a hole, each hole has an
argument, and holes with a style have a statement kind. A formatted message is the template with the
texts of the arguments in its holes, so no hole is left in it as it was written. Diagnostics of one
kind have equal codes, severities and numbers of notes; message by message they have equal templates
and arguments of equal types, and for two sources the formatted messages have the same pieces,
filled with texts of their own. -/
theorem templates_fit_arguments (diagnostic : Diagnostic) :
    diagnostic.report.messages.map Message.template =
      diagnostic.kind.entry.wordings.map Wording.template ∧
    (∀ message ∈ diagnostic.report.messages,
      Template.Reads (Message.Fits message.arguments) message.template.toList
        (Template.tokenize message.template) ∧
      ∀ source, Message.Filled source message.arguments (Template.tokenize message.template)
        (message.format source).toList) ∧
    ∀ other : Diagnostic, other.kind = diagnostic.kind →
      other.report.code = diagnostic.report.code ∧
      other.report.severity = diagnostic.report.severity ∧
      other.report.notes.length = diagnostic.report.notes.length ∧
      List.Forall₂ (fun message message' ↦ message.template = message'.template ∧
        message.arguments.map Argument.type = message'.arguments.map Argument.type ∧
        ∃ pieces, ∀ source source',
          Message.Filled source message.arguments pieces (message.format source).toList ∧
          Message.Filled source' message'.arguments pieces (message'.format source').toList)
        diagnostic.report.messages other.report.messages := by
  refine ⟨?_, fun message hmessage ↦ ⟨reads_of_mem_messages hmessage,
    filled_of_mem_messages diagnostic hmessage⟩, fun other hkind ↦ ?_⟩
  · rw [messages_report, List.map_map]
    rfl
  obtain ⟨kind, row⟩ := diagnostic
  obtain ⟨kind, row'⟩ := other
  cases hkind
  refine ⟨rfl, rfl, ?_, ?_⟩
  · simp [report, notes]
  · rw [messages_report, messages_report, List.forall₂_map_left_iff, List.forall₂_map_right_iff,
      List.forall₂_same]
    intro wording hwording
    have htyped := (typed_and_anchored_of_mem kind.entry_mem hwording).1
    refine ⟨rfl, ?_, Template.tokenize wording.template, fun source source' ↦ ⟨?_, ?_⟩⟩
    · have htypes := (row.map_type_arguments htyped).trans (row'.map_type_arguments htyped).symm
      refine List.map_injective_iff.mpr (Option.some_injective _) ?_
      simpa [List.map_map, Function.comp_def] using htypes
    · exact filled_of_mem_messages ⟨kind, row⟩ (List.mem_map_of_mem hwording) source
    · exact filled_of_mem_messages ⟨kind, row'⟩ (List.mem_map_of_mem hwording) source'

end Diagnostic

end LintCore
