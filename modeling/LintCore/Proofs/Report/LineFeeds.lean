import LintCore.Proofs.Diagnostic.Characters
import LintCore.Proofs.Render.Layout
import LintCore.Proofs.Report.Entries

/-!
# Line feeds in the streamed text

A stream is meant to be read line by line, with one line for each message. What it writes for a
diagnostic ends with a line feed and has one for each message, and besides these exactly the line
feeds of the texts that go into the holes of the templates (`Line.lineFeeds_render`): the templates
have none of their own, and neither have codes, severities and numbers. So the text of a stream has
as many lines as messages if and only if no such text has a line feed in it, and then its lines are
the messages in the order of the reports (`Stream.line_per_message_iff`). A source without line
feeds puts none into the holes; names and characters can still have them
(`Diagnostic.oneLine_insertions`). A fault that covers the end of a line is quoted with it, and its
one message is then two lines (`Stream.lineBreak_quoted`).
-/

set_option autoImplicit false
set_option relaxedAutoImplicit false

namespace LintCore

/-! ### Counting line feeds -/

/-- The number of line feeds in a text. -/
def lineFeeds (text : String) : Nat := text.toList.count '\n'

theorem lineFeeds_append (first second : String) :
    lineFeeds (first ++ second) = lineFeeds first + lineFeeds second := by
  rw [lineFeeds, String.toList_append, List.count_append]
  rfl

theorem lineFeeds_eq_zero_iff {text : String} : lineFeeds text = 0 ↔ OneLine text :=
  List.count_eq_zero

theorem lineFeeds_join_cons (text : String) (rest : List String) :
    lineFeeds (String.join (text :: rest)) = lineFeeds text + lineFeeds (String.join rest) := by
  rw [String.join_cons, lineFeeds_append]

theorem lineFeeds_join_append (first later : List String) :
    lineFeeds (String.join (first ++ later)) =
      lineFeeds (String.join first) + lineFeeds (String.join later) := by
  rw [String.join_append, lineFeeds_append]

theorem lineFeeds_join_eq_zero_iff {texts : List String} :
    lineFeeds (String.join texts) = 0 ↔ ∀ text ∈ texts, OneLine text := by
  rw [lineFeeds_eq_zero_iff, OneLine, String.toList_join]
  simp [OneLine]

theorem lineFeeds_join_flatMap_congr {α : Type} {first second : α → List String} {items : List α}
    (h : ∀ item ∈ items,
      lineFeeds (String.join (first item)) = lineFeeds (String.join (second item))) :
    lineFeeds (String.join (items.flatMap first)) =
      lineFeeds (String.join (items.flatMap second)) := by
  induction items with
  | nil => rfl
  | cons item rest ih =>
    obtain ⟨hitem, hrest⟩ := List.forall_mem_cons.mp h
    rw [List.flatMap_cons, List.flatMap_cons, lineFeeds_join_append, lineFeeds_join_append, hitem,
      ih hrest]

/-- Rows that each end with a line feed have one for each row, and those inside the rows. -/
theorem lineFeeds_join_rows (rows : List String) :
    lineFeeds (String.join (rows.map (· ++ "\n"))) =
      rows.length + lineFeeds (String.join rows) := by
  have hfeed : lineFeeds "\n" = 1 := by decide
  induction rows with
  | nil => rfl
  | cons row rest ih =>
    rw [List.map_cons, lineFeeds_join_cons, ih, lineFeeds_append, hfeed, lineFeeds_join_cons,
      List.length_cons]
    omega

theorem lineFeed_suffix_join_rows {rows : List String} (hrows : rows ≠ []) :
    ['\n'] <:+ (String.join (rows.map (· ++ "\n"))).toList := by
  refine ⟨(String.join (rows.dropLast.map (· ++ "\n")) ++ rows.getLast hrows).toList, ?_⟩
  conv_rhs => rw [← List.dropLast_append_getLast hrows, List.map_append, String.join_append]
  simp

/-! ### Texts in the holes of templates -/

namespace Message

/-- The text that a piece of a template takes from an argument. -/
def insertion? (source : Source) (arguments : List Argument) : Template.Piece → Option String
  | .literal _ => none
  | .hole index style _ => arguments[index]?.map (Argument.text source style)

/-- The texts in the holes of a message, in the order of the holes. -/
def insertions (source : Source) (message : Message) : List String :=
  (Template.tokenize message.template).filterMap (insertion? source message.arguments)

end Message

theorem Message.Filled.count_lineFeeds {source : Source} {arguments : List Argument}
    {pieces : List Template.Piece} {text : List Char} (h : Filled source arguments pieces text)
    (hliterals : ∀ c, .literal c ∈ pieces → c ≠ '\n') :
    text.count '\n' =
      lineFeeds (String.join (pieces.filterMap (insertion? source arguments))) := by
  induction h with
  | nil => rfl
  | @literal c pieces text _ ih =>
    have hc : c ≠ '\n' := hliterals c List.mem_cons_self
    rw [List.count_cons_of_ne hc, List.filterMap_cons_none rfl,
      ih fun c hmem ↦ hliterals c (List.mem_cons_of_mem _ hmem)]
  | @hole index style written pieces text argument hargument _ ih =>
    have hinsertion : insertion? source arguments (.hole index style written) =
        some (argument.text source style) := by
      rw [insertion?, hargument, Option.map_some]
    rw [List.count_append, List.filterMap_cons_some hinsertion, lineFeeds_join_cons,
      ih fun c hmem ↦ hliterals c (List.mem_cons_of_mem _ hmem)]
    rfl

namespace Diagnostic

/-- The texts in the holes of all messages, the primary one first. -/
def insertions (source : Source) (diagnostic : Diagnostic) : List String :=
  diagnostic.report.messages.flatMap (Message.insertions source)

/-- The line feeds of a message are those of the texts in its holes. -/
theorem lineFeeds_format (source : Source) {diagnostic : Diagnostic} {message : Message}
    (hmessage : message ∈ diagnostic.report.messages) :
    lineFeeds (message.format source) = lineFeeds (String.join (message.insertions source)) := by
  refine (filled_of_mem_messages diagnostic hmessage source).count_lineFeeds fun c hc heq ↦ ?_
  have hmem := (reads_of_mem_messages hmessage).mem_of_literal_mem hc
  exact (printed_template_of_mem_messages hmessage).not_mem (by decide) (heq ▸ hmem)

end Diagnostic

/-! ### Sources without line feeds -/

namespace Argument

/-- The name or the character that an argument holds, if it holds any, is not broken by a line
feed. -/
def Unbroken : Argument → Prop
  | identifier ident => OneLine ident.name
  | char c => c ≠ '\n'
  | span _ | statementKind _ => True

theorem oneLine_text {source : Source} (hcontent : OneLine source.content) {argument : Argument}
    (hunbroken : argument.Unbroken) (style : Template.Style) :
    OneLine (argument.text source style) := by
  intro hmem
  rcases mem_content_or_word (by decide) hmem with hquoted | ⟨word, hword, hinside⟩
  · exact hcontent hquoted
  · cases argument with
    | span place => cases hword
    | identifier ident =>
      cases hword
      exact hunbroken hinside
    | statementKind kind => cases hword
    | char c =>
      cases hword
      rw [String.toList_singleton, List.mem_singleton] at hinside
      exact hunbroken hinside.symm

end Argument

/-- If the source has no line feeds, only a name or a character can put one into a message. -/
theorem Diagnostic.oneLine_insertions {source : Source} (hcontent : OneLine source.content)
    {diagnostic : Diagnostic} (hunbroken : ∀ message ∈ diagnostic.report.messages,
      ∀ argument ∈ message.arguments, argument.Unbroken) :
    ∀ text ∈ diagnostic.insertions source, OneLine text := by
  intro text htext
  obtain ⟨message, hmessage, hinsertion⟩ := List.mem_flatMap.mp htext
  obtain ⟨piece, -, hpiece⟩ := List.mem_filterMap.mp hinsertion
  cases piece with
  | literal c => cases hpiece
  | hole index style written =>
    obtain ⟨argument, hargument, rfl⟩ := Option.map_eq_some_iff.mp hpiece
    exact Argument.oneLine_text hcontent
      (hunbroken message hmessage argument (List.mem_of_getElem? hargument)) style

/-! ### Rows -/

namespace Line

/-- The line for a message, without the line feed that ends it. -/
def row (source : Source) (code : Code) (severity : Severity) (message : Message) : String :=
  (source.locate message.anchor).render ++ ": " ++ severity.word ++ ": " ++ message.format source
    ++ " [" ++ code.text ++ "]"

/-- The lines for an entry, one for each of its messages. -/
def rows (source : Source) (entry : Diagnostic × Severity) : List String :=
  (messagesAt entry.1 entry.2).map fun (message, severity) ↦
    row source entry.1.code severity message

theorem ofMessage_eq_row (source : Source) (code : Code) (severity : Severity)
    (message : Message) :
    ofMessage source code severity message = row source code severity message ++ "\n" := by
  have hend : "]\n" = "]" ++ "\n" := by decide
  rw [ofMessage, hend, ← String.append_assoc]
  rfl

theorem render_eq_join_rows (source : Source) (entry : Diagnostic × Severity) :
    render source entry.1 entry.2 = String.join ((rows source entry).map (· ++ "\n")) := by
  rw [render_eq_join, rows, List.map_map]
  exact congrArg String.join (List.map_congr_left fun _ _ ↦ ofMessage_eq_row _ _ _ _)

theorem length_rows (source : Source) (entry : Diagnostic × Severity) :
    (rows source entry).length = 1 + entry.1.kind.noteCount := by
  rw [rows, messagesAt, List.length_map, List.length_cons, List.length_map, Nat.add_comm]
  exact congrArg _ (List.length_map _)

theorem map_fst_messagesAt (diagnostic : Diagnostic) (severity : Severity) :
    (messagesAt diagnostic severity).map Prod.fst = diagnostic.report.messages := by
  rw [messagesAt, List.map_cons, List.map_map]
  exact congrArg _ (List.map_id _)

/-- In a row, only the message can have line feeds. -/
theorem lineFeeds_row {source : Source} (hpath : OneLine source.path) (code : Code)
    (severity : Severity) (message : Message) :
    lineFeeds (row source code severity message) = lineFeeds (message.format source) := by
  have hplace := lineFeeds_eq_zero_iff.mpr
    (Source.not_mem_locate (by decide) hpath message.anchor)
  have hword := lineFeeds_eq_zero_iff.mpr (severity.printed_word.not_mem (by decide))
  have hcode := lineFeeds_eq_zero_iff.mpr (code.printed_text.not_mem (by decide))
  have hliterals : lineFeeds ": " = 0 ∧ lineFeeds " [" = 0 ∧ lineFeeds "]" = 0 := by decide
  simp only [row, lineFeeds_append, hplace, hword, hcode, hliterals, Nat.zero_add, Nat.add_zero]

theorem lineFeeds_rows {source : Source} (hpath : OneLine source.path)
    (entry : Diagnostic × Severity) :
    lineFeeds (String.join (rows source entry)) =
      lineFeeds (String.join (entry.1.insertions source)) := by
  have hrows : rows source entry = (messagesAt entry.1 entry.2).flatMap fun worded ↦
      [row source entry.1.code worded.2 worded.1] := List.map_eq_flatMap
  have hinsertions : entry.1.insertions source = (messagesAt entry.1 entry.2).flatMap
      fun worded ↦ worded.1.insertions source := by
    rw [Diagnostic.insertions, ← map_fst_messagesAt entry.1 entry.2, List.flatMap_map]
  rw [hrows, hinsertions]
  refine lineFeeds_join_flatMap_congr fun worded hworded ↦ ?_
  have hmessage : worded.1 ∈ entry.1.report.messages :=
    map_fst_messagesAt entry.1 entry.2 ▸ List.mem_map_of_mem hworded
  rw [lineFeeds_join_cons, lineFeeds_row hpath, entry.1.lineFeeds_format source hmessage]
  exact Nat.add_zero _

/-- The text for a diagnostic has a line feed for each message, and those of the texts in the
holes. -/
theorem lineFeeds_render {source : Source} (hpath : OneLine source.path)
    (entry : Diagnostic × Severity) :
    lineFeeds (render source entry.1 entry.2) = 1 + entry.1.kind.noteCount +
      lineFeeds (String.join (entry.1.insertions source)) := by
  rw [render_eq_join_rows, lineFeeds_join_rows, length_rows, lineFeeds_rows hpath]

end Line

/-! ### The text of a stream -/

/-- The number of messages of entries: for each the primary one and the notes of its kind. -/
def messagesAmong : List (Diagnostic × Severity) → Nat
  | [] => 0
  | entry :: rest => 1 + entry.1.kind.noteCount + messagesAmong rest

theorem length_flatMap_rows (source : Source) (entries : List (Diagnostic × Severity)) :
    (entries.flatMap (Line.rows source)).length = messagesAmong entries := by
  induction entries with
  | nil => rfl
  | cons entry rest ih =>
    rw [List.flatMap_cons, List.length_append, Line.length_rows, ih, messagesAmong]

namespace Stream

theorem written_reportAll (stream : Stream) (diagnostics : List Diagnostic) :
    (stream.reportAll diagnostics).written =
      stream.written ++ (stream.kept (stream.policy.entries diagnostics)).map stream.block := by
  rw [reportAll_eq, succeeded_eq_map_kept]

/-- A stream has reported diagnostics about a source whose path has no line feed. Each text that it
has written, one for each entry whose write succeeded, ends with a line feed, and has as many as the
diagnostic has messages and the texts in their holes have line feeds. Together the written texts
have as many line feeds as there are messages if none of these texts has one, and not otherwise; and
then, cut at its line feeds, what was written is a row for each message, in order, with nothing
behind the last line feed. -/
theorem line_per_message_iff (source : Source) (policy : Policy) (fails : Nat → Bool)
    (hpath : '\n' ∉ source.path.toList) (diagnostics : List Diagnostic) :
    let fresh : Stream := { source, policy, fails }
    let kept := fresh.kept (policy.entries diagnostics)
    let stream := fresh.reportAll diagnostics
    List.Forall₂ (fun entry text ↦ ['\n'] <:+ text.toList ∧
        lineFeeds text = 1 + entry.1.kind.noteCount +
          lineFeeds (String.join (entry.1.insertions source))) kept stream.written ∧
      (lineFeeds stream.output = messagesAmong kept ↔
        ∀ entry ∈ kept, ∀ text ∈ entry.1.insertions source, '\n' ∉ text.toList) ∧
      ((∀ entry ∈ kept, ∀ text ∈ entry.1.insertions source, '\n' ∉ text.toList) →
        stream.output.toList.splitOn '\n' =
          (kept.flatMap (Line.rows source)).map String.toList ++ [[]]) := by
  intro fresh kept stream
  have hwritten : stream.written = kept.map fresh.block := fresh.written_reportAll diagnostics
  have houtput : stream.output =
      String.join ((kept.flatMap (Line.rows source)).map (· ++ "\n")) := by
    rw [output, hwritten, List.map_flatMap, Line.join_flatMap]
    exact congrArg String.join (List.map_congr_left fun entry _ ↦
      Line.render_eq_join_rows source entry)
  have hinside : lineFeeds (String.join (kept.flatMap (Line.rows source))) =
      lineFeeds (String.join (kept.flatMap fun entry ↦ entry.1.insertions source)) :=
    lineFeeds_join_flatMap_congr fun entry _ ↦ Line.lineFeeds_rows hpath entry
  have hinsertions : lineFeeds (String.join (kept.flatMap fun entry ↦ entry.1.insertions source)) =
      0 ↔ ∀ entry ∈ kept, ∀ text ∈ entry.1.insertions source, '\n' ∉ text.toList := by
    rw [lineFeeds_join_eq_zero_iff, List.forall_mem_flatMap]
    rfl
  refine ⟨?_, ?_, fun hnone ↦ ?_⟩
  · rw [hwritten, List.forall₂_map_right_iff, List.forall₂_same]
    intro entry _
    refine ⟨?_, Line.lineFeeds_render hpath entry⟩
    have hrow : Line.rows source entry ≠ [] := List.cons_ne_nil _ _
    rw [block, Line.render_eq_join_rows]
    exact lineFeed_suffix_join_rows hrow
  · rw [← hinsertions, ← hinside, houtput, lineFeeds_join_rows, length_flatMap_rows]
    omega
  · rw [houtput]
    refine splitOn_join (lineFeeds_join_eq_zero_iff.mp ?_)
    rw [hinside, hinsertions]
    exact hnone

/-- A fault with a note is two lines. -/
theorem spaced_line_per_message :
    let stream := reportAll { source := Terminal.spaced, policy := .empty } [Terminal.usedInSpaced]
    lineFeeds stream.output = 2 ∧
      stream.output.toList.splitOn '\n' =
        ["app.js:10:1: error: variable used before declaration: x [E058]",
          "app.js:11:5: note: variable declared here [E058]"].map String.toList ++ [[]] := by
  intro stream
  have hpath : '\n' ∉ Terminal.spaced.path.toList := by decide +kernel
  let fresh : Stream := { source := Terminal.spaced, policy := .empty }
  have hkept : fresh.kept (Policy.entries .empty [Terminal.usedInSpaced]) =
      [(Terminal.usedInSpaced, .error)] := by decide +kernel
  have hnone : ∀ entry ∈ [(Terminal.usedInSpaced, Severity.error)],
      ∀ text ∈ entry.1.insertions Terminal.spaced, '\n' ∉ text.toList := by decide +kernel
  obtain ⟨-, hcount, hsplit⟩ := line_per_message_iff Terminal.spaced .empty (fun _ ↦ false) hpath
    [Terminal.usedInSpaced]
  rw [hkept] at hcount hsplit
  refine ⟨(hcount.mpr hnone).trans ?_, (hsplit hnone).trans ?_⟩
  · decide +kernel
  · decide +kernel

theorem invalidHexEscape_lt : 61 < catalogue.length := by decide +kernel

/-- A template literal with a line end in it, behind the start of an escape. -/
def brokenEscape : Source := .ofContent "app.js" "`\\x\n`"

/-- What is told about the escape quotes it. -/
def invalidHexEscape : Diagnostic := { kind := ⟨⟨61, invalidHexEscape_lt⟩⟩, row := (⟨1, 4⟩, ()) }

/-- The line end is quoted as it is, and so the only message is two lines. -/
theorem lineBreak_quoted :
    (reportAll { source := brokenEscape, policy := .empty } [invalidHexEscape]).written =
        ["app.js:1:2: error: invalid hex escape sequence: \\x\n [E060]\n"] ∧
      invalidHexEscape.kind.noteCount = 0 ∧
      ¬ ∀ (source : Source) (policy : Policy) (diagnostic : Diagnostic) (severity : Severity),
        '\n' ∉ source.path.toList → policy.severityOf diagnostic.kind = some severity →
          lineFeeds (Line.render source diagnostic severity) = 1 + diagnostic.kind.noteCount := by
  refine ⟨by decide +kernel, by decide +kernel, fun hall ↦ ?_⟩
  have hpath : '\n' ∉ brokenEscape.path.toList := by decide +kernel
  have hseverity : Policy.empty.severityOf invalidHexEscape.kind = some .error := by decide +kernel
  have hone := hall brokenEscape .empty invalidHexEscape .error hpath hseverity
  exact absurd hone (by decide +kernel)

end Stream

end LintCore
