import LintCore.Proofs.Diagnostic.Characters
import LintCore.Proofs.Render.Layout
import Mathlib.Data.List.Forall2

/-!
# Colour in the terminal output

With colour and without, a diagnostic has the same rows up to the words for severities, which stand
between two escape sequences (`Terminal.lines_relabelled`). Each escape sequence begins with an
escape character and has no other one, so in a text whose other characters are no escape characters
there is only one way to take the sequences out (`Terminal.Tinted`), also if brackets, digits and
letters of them stand elsewhere in the text. `without_escapes_eq_uncolored` puts this together for
diagnostics that have escape characters neither in the path and the source text nor in a name or a
character.
-/

set_option autoImplicit false
set_option relaxedAutoImplicit false

namespace LintCore

namespace Terminal

/-! ### Taking escape sequences out -/

/-- What switches a colour on, in the order of the severities, and what switches it off. -/
def escapeSequences : List (List Char) :=
  ["\x1b[1;36m".toList, "\x1b[1;33m".toList, "\x1b[1;31m".toList, "\x1b[0m".toList]

/-- What is left of a text without the escape sequences in it, if its first `skipped` characters
belong to one. -/
def withoutEscapesFrom : (skipped : Nat) → List Char → List Char
  | _, [] => []
  | skipped + 1, _ :: rest => withoutEscapesFrom skipped rest
  | 0, c :: rest =>
    match escapeSequences.find? fun sequence ↦ sequence.isPrefixOf (c :: rest) with
    | some sequence => withoutEscapesFrom (sequence.length - 1) rest
    | none => c :: withoutEscapesFrom 0 rest

/-- What is left of a text without the escape sequences in it. -/
def withoutEscapes (text : List Char) : List Char := withoutEscapesFrom 0 text

theorem withoutEscapes_append {sequence : List Char} (h : sequence ∈ escapeSequences)
    (rest : List Char) : withoutEscapes (sequence ++ rest) = withoutEscapes rest := by
  simp only [escapeSequences, List.mem_cons, List.not_mem_nil, or_false] at h
  rcases h with rfl | rfl | rfl | rfl <;> rfl

theorem withoutEscapes_cons {c : Char} (hc : c ≠ '\x1b') (rest : List Char) :
    withoutEscapes (c :: rest) = c :: withoutEscapes rest := by
  have hnone : (escapeSequences.find? fun sequence ↦ sequence.isPrefixOf (c :: rest)) = none := by
    simp [escapeSequences, hc.symm]
  rw [withoutEscapes, withoutEscapesFrom, hnone]
  rfl

/-! ### Texts with escape sequences in them -/

/-- The first text is the second one with escape sequences put in, and the second one has no escape
characters. -/
inductive Tinted : List Char → List Char → Prop
  | nil : Tinted [] []
  | char {c : Char} {text plain : List Char} :
    c ≠ '\x1b' → Tinted text plain → Tinted (c :: text) (c :: plain)
  | escape {sequence text plain : List Char} :
    sequence ∈ escapeSequences → Tinted text plain → Tinted (sequence ++ text) plain

namespace Tinted

variable {text plain text' plain' : List Char}

theorem withoutEscapes_eq (h : Tinted text plain) : withoutEscapes text = plain := by
  induction h with
  | nil => rfl
  | char hc _ ih => rw [withoutEscapes_cons hc, ih]
  | escape hsequence _ ih => rw [withoutEscapes_append hsequence, ih]

theorem escape_not_mem (h : Tinted text plain) : '\x1b' ∉ plain := by
  induction h with
  | nil => exact List.not_mem_nil
  | char hc _ ih => exact not_or.mpr ⟨hc.symm, ih⟩ ∘ List.mem_cons.mp
  | escape _ _ ih => exact ih

theorem of_not_mem {text : List Char} (h : '\x1b' ∉ text) : Tinted text text := by
  induction text with
  | nil => exact .nil
  | cons c rest ih =>
    obtain ⟨hc, hrest⟩ := not_or.mp (mt List.mem_cons.mpr h)
    exact .char (Ne.symm hc) (ih hrest)

theorem append (h : Tinted text plain) (h' : Tinted text' plain') :
    Tinted (text ++ text') (plain ++ plain') := by
  induction h with
  | nil => exact h'
  | char hc _ ih => exact .char hc ih
  | escape hsequence _ ih =>
    rw [List.append_assoc]
    exact .escape hsequence ih

end Tinted

/-! ### Line breaks -/

theorem splitOn_append_of_not_mem {front : List Char} (hfront : '\n' ∉ front) (text : List Char) :
    (front ++ text).splitOn '\n' = (text.splitOn '\n').modifyHead (front ++ ·) := by
  induction front with
  | nil => exact (congrFun List.modifyHead_id _).symm
  | cons c rest ih =>
    obtain ⟨hc, hrest⟩ := not_or.mp (mt List.mem_cons.mpr hfront)
    rw [List.cons_append, List.splitOn_cons_eq_if_modifyHead, if_neg (by simpa using Ne.symm hc),
      ih hrest, List.modifyHead_modifyHead]
    rfl

theorem forall₂_splitOn_append {front front' text plain : List Char} (hfront : '\n' ∉ front)
    (hfront' : '\n' ∉ front')
    (hhead : ∀ {line line'}, Tinted line line' → Tinted (front ++ line) (front' ++ line'))
    (h : List.Forall₂ Tinted (text.splitOn '\n') (plain.splitOn '\n')) :
    List.Forall₂ Tinted ((front ++ text).splitOn '\n') ((front' ++ plain).splitOn '\n') := by
  rw [splitOn_append_of_not_mem hfront, splitOn_append_of_not_mem hfront']
  generalize text.splitOn '\n' = lines at h
  generalize plain.splitOn '\n' = lines' at h
  cases h with
  | nil => exact .nil
  | cons hline hrest => exact .cons (hhead hline) hrest

theorem line_feed_not_mem_escapeSequences :
    ∀ sequence ∈ escapeSequences, '\n' ∉ sequence := by
  decide

/-- No escape sequence has a line feed in it, so both texts have the same line breaks. -/
theorem Tinted.splitOn {text plain : List Char} (h : Tinted text plain) :
    List.Forall₂ Tinted (text.splitOn '\n') (plain.splitOn '\n') := by
  induction h with
  | nil => exact .cons .nil .nil
  | @char c text plain hc _ ih =>
    by_cases hfeed : c = '\n'
    · rw [hfeed, List.splitOn_cons_eq_if_modifyHead, List.splitOn_cons_eq_if_modifyHead]
      exact .cons .nil ih
    · have hnotMem : '\n' ∉ [c] := by simpa using Ne.symm hfeed
      exact forall₂_splitOn_append hnotMem hnotMem (.char hc) ih
  | escape hsequence _ ih =>
    exact forall₂_splitOn_append (line_feed_not_mem_escapeSequences _ hsequence)
      List.not_mem_nil (.escape hsequence) ih

/-! ### Rows -/

theorem tinted_severityLabel (severity : Severity) :
    Tinted (severityLabel true severity).toList severity.word.toList := by
  have hstyle : ("\x1b[" ++ style severity ++ "m").toList ∈ escapeSequences := by
    cases severity <;> decide
  have hreset : "\x1b[0m".toList ∈ escapeSequences := by decide
  have hword : '\x1b' ∉ severity.word.toList := severity.printed_word.not_mem (by decide)
  have hlabel := Tinted.escape hstyle ((Tinted.of_not_mem hword).append (.escape hreset .nil))
  rw [List.append_nil, List.append_nil, ← List.append_assoc, ← String.toList_append,
    ← String.toList_append] at hlabel
  exact hlabel

/-- The rows are equal, or a word for a severity is in colour in the first of them, between the same
texts as in the second. -/
inductive Relabelled : String → String → Prop
  | same (row : String) : Relabelled row row
  | label (front : String) (severity : Severity) (rest : String) :
    Relabelled (front ++ severityLabel true severity ++ rest) (front ++ severity.word ++ rest)

/-- The rows with colour and those without. -/
theorem lines_relabelled (source : Source) (diagnostic : Diagnostic) (severity : Severity) :
    List.Forall₂ Relabelled (lines true source diagnostic severity)
      (lines false source diagnostic severity) := by
  have hheader := Relabelled.label "" severity
    ("[" ++ diagnostic.code.text ++ "]: " ++ diagnostic.primary.format source)
  simp only [String.empty_append, ← String.append_assoc] at hheader
  have hnote (gutter : String) (note : Message) : List.Forall₂ Relabelled
      (noteLines true source gutter note) (noteLines false source gutter note) := by
    have hlabel := Relabelled.label (gutter ++ " = ") .note (": " ++ note.format source)
    simp only [← String.append_assoc] at hlabel
    exact .cons hlabel (.cons (.same _) .nil)
  have hnotes : List.Forall₂ Eq diagnostic.notes diagnostic.notes :=
    List.forall₂_same.mpr fun _ _ ↦ rfl
  refine List.rel_append (.cons hheader (List.forall₂_same.mpr fun row _ ↦ .same row)) ?_
  refine List.rel_flatMap hnotes ?_
  rintro note _ rfl
  exact hnote _ note

theorem Relabelled.tinted {row plain : String} (h : Relabelled row plain)
    (hplain : '\x1b' ∉ plain.toList) : Tinted row.toList plain.toList := by
  cases h with
  | same => exact .of_not_mem hplain
  | label front severity rest =>
    rw [String.toList_append, String.toList_append] at hplain ⊢
    obtain ⟨hbefore, hrest⟩ := not_or.mp (mt List.mem_append.mpr hplain)
    obtain ⟨hfront, -⟩ := not_or.mp (mt List.mem_append.mpr hbefore)
    rw [String.toList_append, String.toList_append]
    exact ((Tinted.of_not_mem hfront).append (tinted_severityLabel severity)).append
      (.of_not_mem hrest)

theorem tinted_join {rows plains : List String} (h : List.Forall₂ Relabelled rows plains)
    (hplains : ∀ plain ∈ plains, '\x1b' ∉ plain.toList) :
    Tinted (String.join (rows.map (· ++ "\n"))).toList
      (String.join (plains.map (· ++ "\n"))).toList := by
  induction h with
  | nil => exact .nil
  | cons hrow _ ih =>
    obtain ⟨hplain, hrest⟩ := List.forall_mem_cons.mp hplains
    have hfeed : Tinted "\n".toList "\n".toList := .of_not_mem (by decide)
    rw [List.map_cons, List.map_cons, String.join_cons, String.join_cons]
    simp only [String.toList_append]
    exact ((hrow.tinted hplain).append hfeed).append (ih hrest)

/-! ### The whole output -/

/-- Let there be no escape character in the path and the source text, and none in a name or a
character of the diagnostic. Then the output with colour, without the escape sequences in it, is the
output without colour, which has no escape characters left. Both have the same line breaks, and line
by line the one is the other without escape sequences. Their rows are equal, except that the words
for severities stand between escape sequences. -/
theorem without_escapes_eq_uncolored (source : Source) (diagnostic : Diagnostic)
    (severity : Severity) (hpath : '\x1b' ∉ source.path.toList)
    (hcontent : '\x1b' ∉ source.content.toList)
    (hwords : ∀ word ∈ diagnostic.row.words, '\x1b' ∉ word.toList) :
    let colored := (render true source diagnostic severity).toList
    let plain := (render false source diagnostic severity).toList
    withoutEscapes colored = plain ∧ '\x1b' ∉ plain ∧
      (colored.splitOn '\n').map withoutEscapes = plain.splitOn '\n' ∧
      List.Forall₂ Relabelled (lines true source diagnostic severity)
        (lines false source diagnostic severity) := by
  intro colored plain
  have hmessages (message : Message) (hmessage : message ∈ diagnostic.report.messages) :
      '\x1b' ∉ (message.format source).toList := by
    intro hmem
    rcases Diagnostic.mem_content_or_words hmessage (by decide) hmem with
      hquoted | ⟨word, hword, hinside⟩
    · exact hcontent hquoted
    · exact hwords word hword hinside
  have hrows := not_mem_of_mem_lines (by decide) hpath (mt Source.mem_of_mem_lineText hcontent)
    hmessages severity
  have htinted : Tinted colored plain :=
    tinted_join (lines_relabelled source diagnostic severity) hrows
  refine ⟨htinted.withoutEscapes_eq, htinted.escape_not_mem, ?_,
    lines_relabelled source diagnostic severity⟩
  have hlines := htinted.splitOn.imp fun _ _ ↦ Tinted.withoutEscapes_eq
  rwa [← List.forall₂_map_left_iff, List.forall₂_eq_eq_eq] at hlines

/-- A text with the brackets, digits and letters of escape sequences, in a file with such a name. -/
def bracketed : Source := .ofContent "[0m.js" "m[1];[0];\nlet m;"

/-- The use of a variable in it before its declaration. -/
def usedInBracketed : Diagnostic :=
  { kind := ⟨⟨157, earlyUse_lt⟩⟩, row := (⟨⟨0, 1⟩, "m"⟩, ⟨⟨14, 15⟩, "m"⟩, ()) }

/-- Only what begins with an escape character is taken out. -/
theorem bracketed_without_escapes_eq_uncolored :
    (render true bracketed usedInBracketed .error).toList.splitOn '\n' =
        ["\x1b[1;31merror\x1b[0m[E058]: variable used before declaration: m",
          " --> [0m.js:1:1",
          "  |",
          "1 | m[1];[0];",
          "  | ^",
          "  = \x1b[1;36mnote\x1b[0m: variable declared here",
          "    --> [0m.js:2:5",
          ""].map String.toList ∧
      ((render true bracketed usedInBracketed .error).toList.splitOn '\n').map withoutEscapes =
        ["error[E058]: variable used before declaration: m",
          " --> [0m.js:1:1",
          "  |",
          "1 | m[1];[0];",
          "  | ^",
          "  = note: variable declared here",
          "    --> [0m.js:2:5",
          ""].map String.toList := by
  have hpath : '\x1b' ∉ bracketed.path.toList := by decide +kernel
  have hcontent : '\x1b' ∉ bracketed.content.toList := by decide +kernel
  have hwords : ∀ word ∈ usedInBracketed.row.words, '\x1b' ∉ word.toList := by decide +kernel
  obtain ⟨-, -, hlines, -⟩ :=
    without_escapes_eq_uncolored bracketed usedInBracketed .error hpath hcontent hwords
  refine ⟨by decide +kernel, hlines.trans ?_⟩
  decide +kernel

end Terminal

end LintCore
