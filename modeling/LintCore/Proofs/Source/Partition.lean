import LintCore.Proofs.Source.Lines

/-!
# A text and its lines

A text consists of lines, each of them a text without line breaks and, for all but the last, a
terminator of its own (`Divided`). A carriage return is not taken for a terminator if a line feed
follows, so a text is divided in one way only (`Divided.unique`), and this is the way in which it is
cut into lines. `lines_partition_text` says that the texts of the lines and their terminators, put
together again, are the source, and that every offset is given the text of the line that it is on:
taking off all line breaks at the end of a line takes off its own terminator and nothing else,
whatever stands before and behind it.
-/

set_option autoImplicit false
set_option relaxedAutoImplicit false

namespace LintCore

open Text

/-! ### Lines and their terminators -/

namespace Divided

variable {text : List Char} {lines : List (List Char × List Char)}

/-- A line begins with its text and goes on with nothing but line breaks. -/
theorem of_mem (h : Divided text lines) {line : List Char × List Char} (hline : line ∈ lines) :
    Plain line.1 ∧ ∀ c ∈ line.2, c = '\n' ∨ c = '\r' := by
  induction h with
  | last htext =>
    obtain rfl := List.mem_singleton.mp hline
    exact ⟨htext, fun c hc ↦ absurd hc List.not_mem_nil⟩
  | line htext hterminator _ _ ih =>
    rcases List.mem_cons.mp hline with rfl | hlater
    · exact ⟨htext, eq_of_mem_terminator hterminator⟩
    · exact ih hlater

end Divided

/-- The text before the first line break is determined. -/
theorem plain_append_inj {first second after after' : List Char} (hfirst : Plain first)
    (hsecond : Plain second) (hafter : ∀ c ∈ after.head?, c = '\n' ∨ c = '\r')
    (hafter' : ∀ c ∈ after'.head?, c = '\n' ∨ c = '\r') (h : first ++ after = second ++ after') :
    first = second ∧ after = after' := by
  have hplain := Source.takeWhile_plain hfirst hafter
  rw [h, Source.takeWhile_plain hsecond hafter'] at hplain
  subst hplain
  exact ⟨rfl, List.append_cancel_left h⟩

/-- And so is the terminator at a line break. -/
theorem terminator_append_inj {first second rest rest' : List Char}
    (hfirst : first ∈ lineTerminators) (hsecond : second ∈ lineTerminators)
    (hreturn : first = ['\r'] → rest.head? ≠ some '\n')
    (hreturn' : second = ['\r'] → rest'.head? ≠ some '\n') (h : first ++ rest = second ++ rest') :
    first = second ∧ rest = rest' := by
  simp only [lineTerminators, List.mem_cons, List.not_mem_nil, or_false] at hfirst hsecond
  rcases hfirst with rfl | rfl | rfl <;> rcases hsecond with rfl | rfl | rfl <;> grind

theorem not_plain_of_terminator {text terminator : List Char}
    (hterminator : terminator ∈ lineTerminators) (rest : List Char) :
    ¬ Plain (text ++ (terminator ++ rest)) := by
  intro hplain
  cases terminator with
  | nil => exact absurd hterminator (by decide)
  | cons c others =>
    have hc := hplain c (by simp)
    exact not_or.mpr hc (eq_of_mem_terminator hterminator c List.mem_cons_self)

theorem Divided.unique {text : List Char} {lines others : List (List Char × List Char)}
    (h : Divided text lines) (hother : Divided text others) : lines = others := by
  induction h generalizing others with
  | @last text hplain =>
    cases hother with
    | last _ => rfl
    | line _ hterminator _ _ => exact absurd hplain (not_plain_of_terminator hterminator _)
  | @line text terminator rest lines hplain hterminator hreturn _ ih =>
    generalize hwhole : text ++ (terminator ++ rest) = whole at hother
    cases hother with
    | last hother =>
      rw [← hwhole] at hother
      exact absurd hother (not_plain_of_terminator hterminator _)
    | line hplain' hterminator' hreturn' hrest' =>
      obtain ⟨rfl, hjoined⟩ := plain_append_inj hplain hplain'
        (head?_of_mem_terminator hterminator _) (head?_of_mem_terminator hterminator' _) hwhole
      obtain ⟨rfl, rfl⟩ := terminator_append_inj hterminator hterminator' hreturn hreturn' hjoined
      rw [ih hrest']

namespace Source

/-! ### The table, and the line of an offset -/

section Small

variable {source : Source} (hsmall : source.content.utf8ByteSize < UInt32.size)

include hsmall

theorem toNat_starts_le {index : Nat} (hindex : index < source.starts.size) :
    source.starts[index].toNat ≤ source.content.utf8ByteSize := by
  rw [toNat_starts_getElem hsmall hindex, ← byteLength_chars, ← flatten_cutLines source.chars,
    ← lines, ← List.take_append_drop index source.lines, List.flatten_append, byteLength_append,
    List.take_append_drop]
  exact Nat.le_add_right _ _

theorem boundary_starts {index : Nat} (hindex : index < source.starts.size) :
    Boundary source.starts[index].toNat source.chars := by
  refine ⟨(source.lines.take index).flatten, (source.lines.drop index).flatten, ?_,
    (toNat_starts_getElem hsmall hindex).symm⟩
  rw [← List.flatten_append, List.take_append_drop, lines, flatten_cutLines]

/-- The start of a line is on this line. -/
theorem lineIndex_starts {index : Nat} (hindex : index < source.starts.size) :
    source.lineIndex source.starts[index] = index := by
  have hline := source.lineIndex_lt source.starts[index]
  have hle : index ≤ source.lineIndex source.starts[index] :=
    (starts_le_iff_le_lineIndex hsmall _ index hindex).mp (UInt32.le_refl _)
  refine Nat.le_antisymm (Nat.not_lt.mp fun hlater ↦ ?_) hle
  exact UInt32.not_le.mpr (lt_of_ascending (pairwise_starts hsmall) hlater hline)
    (lineStart_le hsmall source.starts[index])

/-- An offset behind the text is on the last line. -/
theorem lineIndex_of_le {offset : UInt32} (hoffset : source.content.utf8ByteSize ≤ offset.toNat) :
    source.lineIndex (min offset source.length) + 1 = source.starts.size := by
  have hsize := source.starts_size_pos
  have hlast : source.starts.size - 1 < source.starts.size := Nat.sub_one_lt_of_lt hsize
  have hstart : source.starts[source.starts.size - 1] ≤ min offset source.length := by
    rw [UInt32.le_iff_toNat_le, toNat_min_length hsmall, Nat.min_eq_right hoffset]
    exact toNat_starts_le hsmall hlast
  have hle := (starts_le_iff_le_lineIndex hsmall _ _ hlast).mp hstart
  have hline := source.lineIndex_lt (min offset source.length)
  omega

/-- An offset is given the text of the line that it is on. -/
theorem getElem?_lineIndex {divided : List (List Char × List Char)}
    (hdivided : Divided source.chars divided)
    (hlines : (divided.map fun line ↦ line.1 ++ line.2) = source.lines) (offset : UInt32) :
    divided[source.lineIndex (min offset source.length)]?.map Prod.fst =
      some (source.lineText offset).toList := by
  have hindex : source.lineIndex (min offset source.length) < divided.length := by
    rw [← List.length_map fun line ↦ line.1 ++ line.2, hlines, length_lines hsmall]
    exact source.lineIndex_lt _
  obtain ⟨htext, hbreak⟩ := hdivided.of_mem (List.getElem_mem hindex)
  have hline := congrArg (·[source.lineIndex (min offset source.length)]?) hlines.symm
  rw [List.getElem?_map, List.getElem?_eq_getElem hindex, Option.map_some] at hline
  rw [List.getElem?_eq_getElem hindex, lineText_of_line hsmall htext hbreak hline,
    String.toList_ofList, Option.map_some]

end Small

/-- A text that leaves room for one more byte than its offsets need is divided into lines in just
one way. Put together again, the texts of the lines and their terminators are the text. Nothing in
the text of a line breaks a line, and taking off the line breaks at the end of the line takes off
its terminator alone. There is an entry in the table for each line: it falls between characters,
right behind all lines before it, and the line has the text that is given for it. An offset is given
the text of the line that its position numbers, two offsets on the same line are given the same
text, and an offset behind the text is given that of the last line. -/
theorem lines_partition_text (source : Source)
    (hsmall : source.content.utf8ByteSize + 2 ≤ UInt32.size) :
    ∃ divided, (∀ others, Divided source.chars others ↔ others = divided) ∧
      (divided.flatMap fun line ↦ line.1 ++ line.2) = source.chars ∧
      (∀ line ∈ divided, Plain line.1 ∧ dropLineEnd (line.1 ++ line.2) = line.1) ∧
      source.starts.toList.map (fun start ↦ (source.lineText start).toList) =
        divided.map Prod.fst ∧
      (∀ index (hindex : index < source.starts.size),
        Boundary source.starts[index].toNat source.chars ∧
          source.starts[index].toNat =
            byteLength ((divided.take index).flatMap fun line ↦ line.1 ++ line.2)) ∧
      (∀ offset : UInt32, divided[(source.position offset).line.toNat - 1]?.map Prod.fst =
        some (source.lineText offset).toList) ∧
      (∀ first second : UInt32, (source.position first).line = (source.position second).line →
        source.lineText first = source.lineText second) ∧
      ∀ offset : UInt32, source.content.utf8ByteSize ≤ offset.toNat →
        divided.getLast?.map Prod.fst = some (source.lineText offset).toList := by
  have hshort := Nat.lt_of_succ_lt hsmall
  obtain ⟨divided, hdivided, hlines⟩ := exists_divided source.chars
  have hlength : divided.length = source.starts.size := by
    rw [← length_lines hshort, lines, ← hlines, List.length_map]
  have hline (offset : UInt32) : divided[(source.position offset).line.toNat - 1]?.map Prod.fst =
      some (source.lineText offset).toList := by
    rw [toNat_line_position hsmall, Nat.add_sub_cancel]
    exact getElem?_lineIndex hshort hdivided hlines offset
  refine ⟨divided, fun others ↦ ⟨fun h ↦ h.unique hdivided, fun h ↦ h ▸ hdivided⟩,
    hdivided.flatMap_eq, fun line hmem ↦ ?_, ?_, fun index hindex ↦ ⟨?_, ?_⟩, hline,
    fun first second hsame ↦ ?_, fun offset hoffset ↦ ?_⟩
  · obtain ⟨htext, hbreak⟩ := hdivided.of_mem hmem
    exact ⟨htext, dropLineEnd_append htext hbreak⟩
  · refine List.ext_getElem? fun index ↦ ?_
    rw [List.getElem?_map, List.getElem?_map, Array.getElem?_toList]
    by_cases hindex : index < source.starts.size
    · have hinside := min_length_of_le hshort (toNat_starts_le hshort hindex)
      have hstart := getElem?_lineIndex hshort hdivided hlines source.starts[index]
      rw [hinside, lineIndex_starts hshort hindex] at hstart
      rw [Array.getElem?_eq_getElem hindex, Option.map_some, hstart]
    · rw [Array.getElem?_eq_none (Nat.not_lt.mp hindex),
        List.getElem?_eq_none (Nat.not_lt.mp (hlength ▸ hindex))]
      rfl
  · exact boundary_starts hshort hindex
  · rw [toNat_starts_getElem hshort hindex, lines, ← hlines, ← List.map_take, List.flatMap_def]
  · have hfirst := hline first
    rw [hsame, hline second] at hfirst
    exact String.toList_inj.mp (Option.some.inj hfirst).symm
  · have hlast := getElem?_lineIndex hshort hdivided hlines offset
    rw [← hlast, List.getLast?_eq_getElem?, hlength, ← lineIndex_of_le hshort hoffset,
      Nat.add_sub_cancel]

/-- Runs of all three terminators, around a character of two bytes. -/
def broken : Source := .ofContent "broken" "\r\r\né\n\n\r"

/-- Each of the six lines loses its own terminator only, also inside a run of line breaks. -/
theorem broken_partitioned :
    broken.content.utf8ByteSize + 2 ≤ UInt32.size ∧
      Divided broken.chars [([], ['\r']), ([], ['\r', '\n']), (['é'], ['\n']), ([], ['\n']),
        ([], ['\r']), ([], [])] ∧
      (broken.lineText 4).toList = ['é'] ∧ (broken.lineText 2).toList = [] ∧
      (broken.lineText 500).toList = [] := by
  have hsmall : broken.content.utf8ByteSize + 2 ≤ UInt32.size := by decide
  have hempty : Divided [] [([], [])] := .last .nil
  have hdivided : Divided broken.chars [([], ['\r']), ([], ['\r', '\n']), (['é'], ['\n']),
      ([], ['\n']), ([], ['\r']), ([], [])] := by
    refine .empty ['\r'] (by decide) (fun _ ↦ by decide) ?_
    refine .empty ['\r', '\n'] (by decide) (fun h ↦ by cases h) ?_
    refine .cons (by decide) (.empty ['\n'] (by decide) (fun h ↦ by cases h) ?_)
    refine .empty ['\n'] (by decide) (fun h ↦ by cases h) ?_
    exact .empty ['\r'] (by decide) (fun _ ↦ by decide) hempty
  obtain ⟨divided, honly, -, -, -, -, hline, -, hlast⟩ := lines_partition_text broken hsmall
  obtain rfl := (honly _).mp hdivided
  have hthird : (broken.position 4).line.toNat = 3 := by decide +kernel
  have hsecond : (broken.position 2).line.toNat = 2 := by decide +kernel
  have hfourth := hline 4
  have hsame := hline 2
  rw [hthird] at hfourth
  rw [hsecond] at hsame
  refine ⟨hsmall, hdivided, (Option.some.inj hfourth).symm, (Option.some.inj hsame).symm, ?_⟩
  exact (Option.some.inj (hlast 500 (by decide))).symm

end Source

end LintCore
