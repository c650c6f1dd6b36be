import LintCore.Proofs.Diagnostic.Anchors
import LintCore.Proofs.Render.Carets
import LintCore.Text.Spelling
import Mathlib.Data.List.Basic

/-!
# The lines of the terminal output

If neither the path nor a message has a line feed in it, the output for a diagnostic is five lines
and two more for each note, each of them ended by a line feed (`laid_out_in_lines`). Nothing else
that goes into a line could break it: codes, severities and numbers have no control characters
(`Printed`), and the quoted line has no line feed because its terminator is left out, whichever it
is (`Source.exists_line_of_lineText`). The margin beside the quoted line is as wide as the number of
that line, so that the bars stand below each other (`idxOf_bar`). `lines_eq_labels` writes the
output as a walk over the labels of the report, each secondary one together with its note.
-/

set_option autoImplicit false
set_option relaxedAutoImplicit false

namespace LintCore

open Catalogue Text

/-! ### The line that is quoted -/

namespace Source

/-- The text of an offset's line is, up to its terminator, the line that the position of the offset
numbers. Every line but the last has a terminator. -/
theorem exists_line_of_lineText {source : Source}
    (hsmall : source.content.utf8ByteSize + 2 ≤ UInt32.size) (offset : UInt32) :
    let line := (source.position offset).line.toNat
    Plain (source.lineText offset).toList ∧ ∃ terminator,
      source.lines[line - 1]? = some ((source.lineText offset).toList ++ terminator) ∧
      (terminator ∈ lineTerminators ∧ line < source.lines.length ∨
        terminator = [] ∧ line = source.lines.length) := by
  intro line
  have hshort := Nat.lt_of_succ_lt hsmall
  have hline : line = source.lineIndex (min offset source.length) + 1 :=
    toNat_line_position hsmall offset
  have hindex : source.lineIndex (min offset source.length) < source.lines.length := by
    rw [length_lines hshort]
    exact source.lineIndex_lt _
  obtain ⟨text, terminator, hcut, htext, hend⟩ := (ended_cutLines source.chars).getElem hindex
  have hcut' : source.lines[source.lineIndex (min offset source.length)]? =
      some (text ++ terminator) := (List.getElem?_eq_getElem hindex).trans (congrArg some hcut)
  rw [lineText_of_line hshort htext (eq_of_mem_end hend) hcut', String.toList_ofList, hline,
    Nat.add_sub_cancel]
  exact ⟨htext, terminator, hcut', hend⟩

end Source

/-! ### Texts on one line -/

/-- There is no line feed in the text. -/
def OneLine (text : String) : Prop := '\n' ∉ text.toList

theorem not_mem_digits {c : Char} (hc : c.isDigit = false) (number : Nat) :
    c ∉ Nat.toDigits 10 number := fun hmem ↦
  Bool.eq_false_iff.mp hc (Nat.isDigit_of_mem_toDigits (by decide) (by decide) hmem)

theorem printed_digits (number : Nat) : Printed (String.ofList (Nat.toDigits 10 number)) := by
  intro c hc
  rw [String.toList_ofList] at hc
  have hdigit := Nat.isDigit_of_mem_toDigits (by decide) (by decide) hc
  exact Nat.le_trans (by decide) (Char.isDigit_iff_toNat.mp hdigit).1

theorem Severity.printed_word (severity : Severity) : Printed severity.word := by
  cases severity <;> decide

theorem Catalogue.printed_codes :
    codes.all (fun text ↦ text.toList.all fun c ↦ 0x20 ≤ c.toNat) = true := by
  decide +kernel

theorem Code.printed_text (code : Code) : Printed code.text :=
  printed_iff.mp (List.all_eq_true.mp Catalogue.printed_codes _ code.mem_codes)

theorem Source.not_mem_locate {source : Source} {c : Char} (hc : c.toNat < 0x20)
    (hpath : c ∉ source.path.toList) (span : Span) : c ∉ (source.locate span).render.toList := by
  have hcolon : Printed ":" := by decide
  simp only [Location.render, String.toList_append, List.mem_append, not_or]
  exact ⟨⟨⟨⟨hpath, hcolon.not_mem hc⟩, (printed_digits _).not_mem hc⟩, hcolon.not_mem hc⟩,
    (printed_digits _).not_mem hc⟩

/-- A text of rows that each end with a line feed has these rows for its lines. -/
theorem splitOn_join {rows : List String} (hrows : ∀ row ∈ rows, OneLine row) :
    (String.join (rows.map (· ++ "\n"))).toList.splitOn '\n' = rows.map String.toList ++ [[]] := by
  induction rows with
  | nil => rfl
  | cons row rest ih =>
    obtain ⟨hrow, hrest⟩ := List.forall_mem_cons.mp hrows
    have hjoin : (String.join ((row :: rest).map (· ++ "\n"))).toList =
        row.toList ++ '\n' :: (String.join (rest.map (· ++ "\n"))).toList := by
      simp
    rw [hjoin, List.splitOn_append_cons_self_of_not_mem hrow, ih hrest, List.map_cons,
      List.cons_append]

namespace Terminal

theorem printed_blanks (count : Nat) : Printed (blanks count) := by
  simp [Printed, blanks]

theorem printed_carets (count : Nat) : Printed (carets count) := by
  simp [Printed, carets]

/-! ### The bars -/

/-- If a row begins with a margin without bars, a blank and a bar, its first bar is one place behind
the margin. -/
theorem idxOf_bar {row margin : List Char} (hmargin : '|' ∉ margin)
    (hrow : margin ++ [' ', '|'] <+: row) : row.idxOf '|' = margin.length + 1 := by
  obtain ⟨rest, rfl⟩ := hrow
  rw [List.append_assoc, List.idxOf_append_of_notMem hmargin, List.cons_append,
    List.idxOf_cons_ne _ (by decide), List.cons_append, List.idxOf_cons_self]

/-- The bar behind a margin of blanks. -/
theorem idxOf_bar_blanks {row : List Char} {count : Nat}
    (hrow : List.replicate count ' ' ++ [' ', '|'] <+: row) : row.idxOf '|' = count + 1 := by
  have hmargin : '|' ∉ List.replicate count ' ' := fun hmem ↦
    absurd (List.eq_of_mem_replicate hmem) (by decide)
  rw [idxOf_bar hmargin hrow, List.length_replicate]

/-! ### The whole output -/

/-- The output goes through the labels of the report. The primary one comes with the excerpt, and
each of the others, taken together with the note at its place among the notes, with two lines. -/
theorem lines_eq_labels (colored : Bool) (source : Source) (diagnostic : Diagnostic)
    (severity : Severity) :
    let report := diagnostic.report
    let number := toString (source.position report.primary.anchor.start).line.toNat
    let gutter := blanks number.length
    lines colored source diagnostic severity =
      (severityLabel colored severity ++ "[" ++ report.code.text ++ "]: " ++
          report.primary.format source) ::
        (report.labels.filter (·.style = .primary)).flatMap (fun label ↦
          let quoted := source.lineText label.span.start
          let mark := underline quoted.toList
            ((source.position label.span.start).column.toNat - 1) label.span.length.toNat
          [gutter ++ "--> " ++ (source.locate label.span).render,
            gutter ++ " |",
            number ++ " | " ++ quoted,
            gutter ++ " | " ++ blanks mark.1 ++ carets mark.2]) ++
        ((report.labels.filter (·.style ≠ .primary)).zip report.notes).flatMap (fun pair ↦
          [gutter ++ " = " ++ severityLabel colored .note ++ ": " ++ pair.2.format source,
            gutter ++ "   --> " ++ (source.locate pair.1.span).render]) := by
  intro report number gutter
  have hzip : (report.notes.map fun note ↦ Label.secondary note.anchor).zip report.notes =
      report.notes.map fun note ↦ (.secondary note.anchor, note) := by
    rw [List.zip_eq_zipWith, List.zipWith_map_left, List.zipWith_self]
  rw [report.filter_primary_labels, report.filter_secondary_labels, hzip, List.flatMap_map]
  rfl

/-- The rows of the output without colour: the message, where the fault is, an empty margin, the
line that the fault is on, the carets, and for each note the note and where it is. -/
theorem lines_eq_rows (source : Source) (diagnostic : Diagnostic) (severity : Severity) :
    let anchor := diagnostic.primary.anchor
    let digits := Nat.toDigits 10 (source.position anchor.start).line.toNat
    let gutter := blanks digits.length
    let quoted := source.lineText anchor.start
    let mark := underline quoted.toList ((source.position anchor.start).column.toNat - 1)
      anchor.length.toNat
    lines false source diagnostic severity =
      [severity.word ++ "[" ++ diagnostic.code.text ++ "]: " ++ diagnostic.primary.format source,
        gutter ++ "--> " ++ (source.locate anchor).render,
        gutter ++ " |",
        String.ofList digits ++ " | " ++ quoted,
        gutter ++ " | " ++ blanks mark.1 ++ carets mark.2] ++
      diagnostic.notes.flatMap fun note ↦
        [gutter ++ " = note: " ++ note.format source,
          gutter ++ "   --> " ++ (source.locate note.anchor).render] := by
  intro anchor digits gutter quoted mark
  have hnumber : toString (source.position anchor.start).line.toNat = String.ofList digits :=
    Nat.toString_eq_ofList_toDigits
  have hexcerpt : excerpt source anchor =
      [gutter ++ "--> " ++ (source.locate anchor).render, gutter ++ " |",
        String.ofList digits ++ " | " ++ quoted,
        gutter ++ " | " ++ blanks mark.1 ++ carets mark.2] := by
    rw [excerpt, hnumber, String.length_ofList]
  have hnote (note : Message) : noteLines false source gutter note =
      [gutter ++ " = note: " ++ note.format source,
        gutter ++ "   --> " ++ (source.locate note.anchor).render] := by
    have hword : gutter ++ " = " ++ severityLabel false .note ++ ": " = gutter ++ " = note: " := by
      rw [String.append_assoc, String.append_assoc]
      rfl
    rw [noteLines, hword]
  have hnotes : diagnostic.notes.flatMap (noteLines false source gutter) =
      diagnostic.notes.flatMap fun note ↦ [gutter ++ " = note: " ++ note.format source,
        gutter ++ "   --> " ++ (source.locate note.anchor).render] :=
    List.flatMap_congr fun note _ ↦ hnote note
  rw [lines, hexcerpt, hnumber, String.length_ofList, hnotes]
  rfl

/-- A row of the output has only those control characters that the path, the quoted line or a
message has. -/
theorem not_mem_of_mem_lines {source : Source} {diagnostic : Diagnostic} {c : Char}
    (hc : c.toNat < 0x20) (hpath : c ∉ source.path.toList)
    (hquoted : c ∉ (source.lineText diagnostic.primary.anchor.start).toList)
    (hmessages : ∀ message ∈ diagnostic.report.messages, c ∉ (message.format source).toList)
    (severity : Severity) : ∀ row ∈ lines false source diagnostic severity, c ∉ row.toList := by
  have hprimary : c ∉ (diagnostic.primary.format source).toList :=
    hmessages _ List.mem_cons_self
  have hnotes (note : Message) (hnote : note ∈ diagnostic.notes) :
      c ∉ (note.format source).toList := hmessages note (List.mem_cons_of_mem _ hnote)
  have hliterals : Printed "[" ∧ Printed "]: " ∧ Printed "--> " ∧ Printed " |" ∧ Printed " | " ∧
      Printed " = note: " ∧ Printed "   --> " := by
    decide
  rw [lines_eq_rows]
  refine List.forall_mem_append.mpr ⟨?_, List.forall_mem_flatMap.mpr fun note hnote ↦ ?_⟩
  · simp only [List.forall_mem_cons, String.toList_append, List.mem_append, not_or, hprimary,
      hquoted, hliterals, Printed.not_mem, hc, severity.printed_word, Code.printed_text,
      printed_blanks, printed_carets, printed_digits, Source.not_mem_locate hc hpath,
      List.not_mem_nil, and_true, false_implies, implies_true, not_false_eq_true]
  · simp only [List.forall_mem_cons, String.toList_append, List.mem_append, not_or,
      hnotes note hnote, hliterals, Printed.not_mem, hc, printed_blanks,
      Source.not_mem_locate hc hpath, List.not_mem_nil, and_true, false_implies, implies_true,
      not_false_eq_true]

/-- No row of the output has a line feed in it if the path and the messages have none. -/
theorem oneLine_of_mem_lines {source : Source} {diagnostic : Diagnostic}
    (hsmall : source.content.utf8ByteSize + 2 ≤ UInt32.size) (hpath : OneLine source.path)
    (hmessages : ∀ message ∈ diagnostic.report.messages, OneLine (message.format source))
    (severity : Severity) : ∀ row ∈ lines false source diagnostic severity, OneLine row := by
  have hquoted : OneLine (source.lineText diagnostic.primary.anchor.start) := fun hmem ↦
    ((Source.exists_line_of_lineText hsmall diagnostic.primary.anchor.start).1 _ hmem).1 rfl
  exact not_mem_of_mem_lines (by decide) hpath hquoted hmessages severity

/-- In a text that leaves room for one more byte than its offsets need, let neither the path nor any
message of the diagnostic have a line feed in it. Then the output without colour, cut at its line
feeds, is five rows and two more for each note, in the order of the notes, with nothing behind the
last line feed. The third, the fourth and the fifth have their first bar one place behind the digits
of the line that the fault is on. What is quoted is the text of that line, which has no part of a
terminator in it. -/
theorem laid_out_in_lines (source : Source) (diagnostic : Diagnostic) (severity : Severity)
    (hsmall : source.content.utf8ByteSize + 2 ≤ UInt32.size) (hpath : '\n' ∉ source.path.toList)
    (hmessages : ∀ message ∈ diagnostic.report.messages, '\n' ∉ (message.format source).toList) :
    let anchor := diagnostic.primary.anchor
    let line := (source.position anchor.start).line.toNat
    let digits := Nat.toDigits 10 line
    let gutter := blanks digits.length
    let quoted := source.lineText anchor.start
    let mark := underline quoted.toList ((source.position anchor.start).column.toNat - 1)
      anchor.length.toNat
    let rows :=
      [severity.word ++ "[" ++ diagnostic.code.text ++ "]: " ++ diagnostic.primary.format source,
        gutter ++ "--> " ++ (source.locate anchor).render,
        gutter ++ " |",
        String.ofList digits ++ " | " ++ quoted,
        gutter ++ " | " ++ blanks mark.1 ++ carets mark.2] ++
      diagnostic.notes.flatMap fun note ↦
        [gutter ++ " = note: " ++ note.format source,
          gutter ++ "   --> " ++ (source.locate note.anchor).render]
    (render false source diagnostic severity).toList.splitOn '\n' =
        rows.map String.toList ++ [[]] ∧
      rows.length = 5 + 2 * diagnostic.kind.noteCount ∧
      0 < mark.2 ∧
      (∀ row ∈ (rows.drop 2).take 3, row.toList.idxOf '|' = digits.length + 1) ∧
      (∀ c ∈ quoted.toList, c ≠ '\n' ∧ c ≠ '\r') ∧
      ∃ terminator, source.lines[line - 1]? = some (quoted.toList ++ terminator) ∧
        (terminator ∈ lineTerminators ∧ line < source.lines.length ∨
          terminator = [] ∧ line = source.lines.length) := by
  intro anchor line digits gutter quoted mark rows
  obtain ⟨hplain, hline⟩ := Source.exists_line_of_lineText hsmall anchor.start
  have hrows : lines false source diagnostic severity = rows :=
    lines_eq_rows source diagnostic severity
  have hcount : diagnostic.notes.length = diagnostic.kind.noteCount := List.length_map _
  refine ⟨?_, ?_, ?_, ?_, hplain, hline⟩
  · rw [← hrows]
    exact splitOn_join (oneLine_of_mem_lines hsmall hpath hmessages severity)
  · have hnotes (note : Message) : [gutter ++ " = note: " ++ note.format source,
        gutter ++ "   --> " ++ (source.locate note.anchor).render].length = 2 := rfl
    simp only [rows, List.length_append, List.length_flatMap, hnotes, List.map_const', hcount,
      List.sum_replicate_nat, List.length_cons, List.length_nil, Nat.mul_comm, Nat.zero_add,
      Nat.reduceAdd]
  · exact Nat.le_max_right _ _
  · have htake : (rows.drop 2).take 3 = [gutter ++ " |", String.ofList digits ++ " | " ++ quoted,
        gutter ++ " | " ++ blanks mark.1 ++ carets mark.2] := rfl
    rw [htake]
    simp only [List.forall_mem_cons, List.not_mem_nil, false_implies, implies_true, and_true]
    refine ⟨idxOf_bar_blanks ⟨[], ?_⟩,
      idxOf_bar (not_mem_digits (by decide) line) ⟨' ' :: quoted.toList, ?_⟩,
      idxOf_bar_blanks ⟨' ' :: (blanks mark.1 ++ carets mark.2).toList, ?_⟩⟩
    all_goals simp [gutter, blanks, carets, String.toList_append]

/-- Nine empty lines with each of the terminators, a use of a variable and its declaration. -/
def spaced : Source := .ofContent "app.js" "\n\n\n\n\r\r\r\r\n\r\nx;\r\nlet x;"

theorem earlyUse_lt : 157 < catalogue.length := by decide +kernel

/-- That use, which is noted to stand before the declaration. -/
def usedInSpaced : Diagnostic :=
  { kind := ⟨⟨157, earlyUse_lt⟩⟩, row := (⟨⟨11, 12⟩, "x"⟩, ⟨⟨19, 20⟩, "x"⟩, ()) }

/-- The margin is as wide as the two digits of the line, and the terminator of two characters is not
quoted. -/
theorem spaced_laid_out_in_lines :
    (render false spaced usedInSpaced .error).toList.splitOn '\n' =
        ["error[E058]: variable used before declaration: x",
          "  --> app.js:10:1",
          "   |",
          "10 | x;",
          "   | ^",
          "   = note: variable declared here",
          "     --> app.js:11:5"].map String.toList ++ [[]] ∧
      spaced.lines[9]? = some "x;\r\n".toList := by
  have hsmall : spaced.content.utf8ByteSize + 2 ≤ UInt32.size := by decide +kernel
  have hpath : '\n' ∉ spaced.path.toList := by decide +kernel
  have hmessages : ∀ message ∈ usedInSpaced.report.messages,
      '\n' ∉ (message.format spaced).toList := by decide +kernel
  obtain ⟨hsplit, -⟩ :=
    laid_out_in_lines spaced usedInSpaced .error hsmall hpath hmessages
  refine ⟨hsplit.trans ?_, ?_⟩
  · decide +kernel
  · decide +kernel

end Terminal

end LintCore
