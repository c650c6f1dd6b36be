import LintCore.Proofs.Diagnostic.Templates

/-!
# The characters of messages

A formatted message has the characters of its template and of the texts of its arguments
(`Message.Filled.mem_cases`). Templates and the names of statement kinds are printed texts, and what
is quoted from the source is in the source. So a control character in a message is one of the source
or of the names and characters that the fields hold (`FieldRow.words`), as
`Diagnostic.mem_content_or_words` says.
-/

set_option autoImplicit false
set_option relaxedAutoImplicit false

namespace LintCore

open Catalogue Text

/-! ### Pieces of the source -/

theorem Text.mem_of_mem_sliceBytes {start stop : Nat} {text : List Char} {c : Char}
    (hc : c ∈ (sliceBytes? start stop text).getD []) : c ∈ text := by
  cases hslice : sliceBytes? start stop text with
  | none =>
    rw [hslice] at hc
    exact absurd hc List.not_mem_nil
  | some middle =>
    obtain ⟨front, rest, htext, -, -⟩ := sliceBytes_eq_some_iff.mp hslice
    rw [hslice] at hc
    rw [htext]
    exact List.mem_append_left _ (List.mem_append_right _ hc)

namespace Source

variable {source : Source} {c : Char}

theorem mem_of_mem_snippet {span : Span} (hc : c ∈ (source.snippet span).toList) :
    c ∈ source.content.toList := by
  rw [snippet, String.toList_ofList] at hc
  exact mem_of_mem_sliceBytes hc

theorem mem_of_mem_lineText {offset : UInt32} (hc : c ∈ (source.lineText offset).toList) :
    c ∈ source.content.toList := by
  rw [lineText, String.toList_ofList, dropLineEnd, List.mem_reverse] at hc
  exact mem_of_mem_sliceBytes (List.mem_reverse.mp ((List.dropWhile_sublist _).mem hc))

end Source

theorem StatementKind.printed_names (kind : StatementKind) :
    Printed kind.headlinese ∧ Printed kind.singular := by
  cases kind <;> decide

/-! ### Names and characters of fields -/

/-- The name of an identifier, or a character. -/
def FieldType.word? : (type : FieldType) → type.Value → Option String
  | identifier, value => some value.name
  | char, value => some (String.singleton value)
  | span, _ | statementKind, _ | variableKind, _ => none

/-- The name or the character that the argument holds. -/
def Argument.word? : Argument → Option String
  | identifier ident => some ident.name
  | char c => some (String.singleton c)
  | span _ | statementKind _ => none

theorem FieldType.word?_argument {type : FieldType} {value : type.Value} {argument : Argument}
    (h : type.argument? value = some argument) : argument.word? = type.word? value := by
  cases type with
  | variableKind => cases h
  | _ =>
    cases h
    rfl

namespace FieldRow

/-- The names and the characters among the values of the fields. -/
def words : {fields : List Field} → FieldRow fields → List String
  | [], _ => []
  | field :: _, (value, rest) => (field.type.word? value).toList ++ words rest

variable {fields : List Field} (row : FieldRow fields)

theorem mem_words_of_argument {name : String} {argument : Argument} {word : String}
    (hargument : argument? name row = some argument) (hword : argument.word? = some word) :
    word ∈ row.words := by
  induction fields with
  | nil => cases hargument
  | cons field fields ih =>
    obtain ⟨value, rest⟩ := row
    rw [argument?] at hargument
    rw [words]
    split at hargument
    · rw [FieldType.word?_argument hargument] at hword
      exact List.mem_append_left _ (Option.mem_toList.mpr hword)
    · exact List.mem_append_right _ (ih rest hargument)

/-- A message has no other words than its fields: an argument made of two places is a place. -/
theorem mem_words_of_mem_arguments {wording : Wording} {argument : Argument} {word : String}
    (hargument : argument ∈ (row.message wording).arguments)
    (hword : argument.word? = some word) : word ∈ row.words := by
  obtain ⟨reference, -, hresolve⟩ := List.mem_filterMap.mp hargument
  cases reference with
  | field name => exact row.mem_words_of_argument hresolve hword
  | between first last =>
    obtain ⟨_, -, h⟩ := Option.bind_eq_some_iff.mp hresolve
    obtain ⟨_, -, h⟩ := Option.bind_eq_some_iff.mp h
    cases h
    cases hword
  | merge first second =>
    obtain ⟨_, -, h⟩ := Option.bind_eq_some_iff.mp hresolve
    obtain ⟨_, -, h⟩ := Option.bind_eq_some_iff.mp h
    cases h
    cases hword

end FieldRow

/-! ### Messages -/

theorem Argument.mem_content_or_word {source : Source} {argument : Argument}
    {style : Template.Style} {c : Char} (hc : c.toNat < 0x20)
    (hmem : c ∈ (argument.text source style).toList) :
    c ∈ source.content.toList ∨ ∃ word, argument.word? = some word ∧ c ∈ word.toList := by
  cases argument with
  | span place => exact .inl (Source.mem_of_mem_snippet hmem)
  | identifier ident => exact .inr ⟨_, rfl, hmem⟩
  | statementKind kind =>
    obtain ⟨hheadlinese, hsingular⟩ := kind.printed_names
    cases style with
    | plain => exact absurd hmem (hheadlinese.not_mem hc)
    | headlinese => exact absurd hmem (hheadlinese.not_mem hc)
    | singular => exact absurd hmem (hsingular.not_mem hc)
  | char c => exact .inr ⟨_, rfl, hmem⟩

theorem Template.Reads.mem_of_literal_mem {fits : Nat → Style → Prop} {text : List Char}
    {pieces : List Piece} (h : Reads fits text pieces) {c : Char} (hc : .literal c ∈ pieces) :
    c ∈ text := by
  induction h with
  | nil => exact absurd hc List.not_mem_nil
  | plain _ _ ih =>
    rcases List.mem_cons.mp hc with heq | hrest
    · cases heq
      exact List.mem_cons_self
    · exact List.mem_cons_of_mem _ (ih hrest)
  | doubled _ ih =>
    rcases List.mem_cons.mp hc with heq | hrest
    · cases heq
      exact List.mem_cons_self
    · exact List.mem_cons_of_mem _ (List.mem_cons_of_mem _ (ih hrest))
  | hole _ _ _ _ ih =>
    rcases List.mem_cons.mp hc with heq | hrest
    · cases heq
    · exact List.mem_cons_of_mem _
        (List.mem_append_right _ (List.mem_cons_of_mem _ (ih hrest)))

theorem Message.Filled.mem_cases {source : Source} {arguments : List Argument}
    {pieces : List Template.Piece} {text : List Char} (h : Filled source arguments pieces text)
    {c : Char} (hc : c ∈ text) :
    .literal c ∈ pieces ∨
      ∃ argument ∈ arguments, ∃ style, c ∈ (argument.text source style).toList := by
  induction h with
  | nil => exact absurd hc List.not_mem_nil
  | literal _ ih =>
    rcases List.mem_cons.mp hc with rfl | hrest
    · exact .inl List.mem_cons_self
    · exact (ih hrest).imp_left (List.mem_cons_of_mem _)
  | @hole index style _ _ _ argument hargument _ ih =>
    rcases List.mem_append.mp hc with hinside | hrest
    · exact .inr ⟨argument, List.mem_of_getElem? hargument, style, hinside⟩
    · exact (ih hrest).imp_left (List.mem_cons_of_mem _)

/-- A control character in a message of a diagnostic is in the source text, or in a name or a
character that a field of the diagnostic has. -/
theorem Diagnostic.mem_content_or_words {diagnostic : Diagnostic} {message : Message}
    (hmessage : message ∈ diagnostic.report.messages) {source : Source} {c : Char}
    (hc : c.toNat < 0x20) (hmem : c ∈ (message.format source).toList) :
    c ∈ source.content.toList ∨ ∃ word ∈ diagnostic.row.words, c ∈ word.toList := by
  rcases (filled_of_mem_messages diagnostic hmessage source).mem_cases hmem with
    hliteral | ⟨argument, hargument, style, htext⟩
  · have htemplate := (reads_of_mem_messages hmessage).mem_of_literal_mem hliteral
    exact absurd htemplate ((printed_template_of_mem_messages hmessage).not_mem hc)
  · rcases Argument.mem_content_or_word hc htext with hcontent | ⟨word, hword, hinside⟩
    · exact .inl hcontent
    · rw [messages_report] at hmessage
      obtain ⟨wording, -, rfl⟩ := List.mem_map.mp hmessage
      exact .inr ⟨word, diagnostic.row.mem_words_of_mem_arguments hargument hword, hinside⟩

end LintCore
