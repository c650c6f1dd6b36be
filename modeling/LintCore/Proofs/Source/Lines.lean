import LintCore.Proofs.Source.Position
import Mathlib.Data.List.TakeWhile

/-!
# The lines of a text

`cutLines` cuts a text behind each line terminator, and the text is `Divided` there into plain texts
with a terminator behind all but the last (`exists_divided`). So the lines put together again are
the text (`flatten_cutLines`), every line but the last is plain text and one terminator, and the
last is plain text alone (`ended_cutLines`). The table of a source has the offset at which each of
the lines starts (`toNat_starts_getElem`), so the text of the line that an offset is on is this line
without its terminator (`lineText_eq`).
-/

set_option autoImplicit false
set_option relaxedAutoImplicit false

namespace LintCore

open Text

/-! ### Cutting a text into lines -/

/-- The lines of a text, each with the terminator that ends it. -/
def cutLines : List Char → List (List Char)
  | [] => [[]]
  | c :: rest =>
    if endsLine c rest then [c] :: cutLines rest else (cutLines rest).modifyHead (c :: ·)

/-- There is no character of a line terminator in the text. -/
def Plain (text : List Char) : Prop := ∀ c ∈ text, c ≠ '\n' ∧ c ≠ '\r'

def lineTerminators : List (List Char) := [['\n'], ['\r', '\n'], ['\r']]

/-- Lines of plain text, with a terminator behind every line but the last. -/
inductive Ended : List (List Char) → Prop
  | last {text : List Char} : Plain text → Ended [text]
  | line {text terminator : List Char} {lines : List (List Char)} :
    Plain text → terminator ∈ lineTerminators → Ended lines → Ended ((text ++ terminator) :: lines)

/-- A text is divided into lines, each given as its text and its terminator. -/
inductive Divided : List Char → List (List Char × List Char) → Prop
  | last {text : List Char} : Plain text → Divided text [(text, [])]
  | line {text terminator rest : List Char} {lines : List (List Char × List Char)} :
    Plain text → terminator ∈ lineTerminators →
      (terminator = ['\r'] → rest.head? ≠ some '\n') → Divided rest lines →
      Divided (text ++ (terminator ++ rest)) ((text, terminator) :: lines)

theorem Plain.nil : Plain [] := fun _ hc ↦ absurd hc List.not_mem_nil

theorem Plain.cons {c : Char} {text : List Char} (hc : c ≠ '\n' ∧ c ≠ '\r') (htext : Plain text) :
    Plain (c :: text) := List.forall_mem_cons.mpr ⟨hc, htext⟩

theorem eq_of_mem_terminator {terminator : List Char} (h : terminator ∈ lineTerminators) :
    ∀ c ∈ terminator, c = '\n' ∨ c = '\r' := by
  simp only [lineTerminators, List.mem_cons, List.not_mem_nil, or_false] at h
  rcases h with rfl | rfl | rfl <;> simp

theorem Plain.right {first second : List Char} (h : Plain (first ++ second)) : Plain second :=
  fun c hc ↦ h c (List.mem_append_right _ hc)

theorem head?_of_mem_terminator {terminator : List Char} (h : terminator ∈ lineTerminators)
    (rest : List Char) : ∀ c ∈ (terminator ++ rest).head?, c = '\n' ∨ c = '\r' := by
  cases terminator with
  | nil => exact absurd h (by decide)
  | cons first others =>
    rintro c ⟨rfl⟩
    exact eq_of_mem_terminator h first List.mem_cons_self

theorem exists_cons_cutLines (text : List Char) :
    ∃ line lines, cutLines text = line :: lines := by
  cases text with
  | nil => exact ⟨[], [], rfl⟩
  | cons c rest =>
    rw [cutLines]
    split
    · exact ⟨[c], cutLines rest, rfl⟩
    · obtain ⟨line, lines, hlines⟩ := exists_cons_cutLines rest
      exact ⟨c :: line, lines, by rw [hlines, List.modifyHead_cons]⟩

namespace Divided

variable {text : List Char} {lines : List (List Char × List Char)}

theorem flatMap_eq (h : Divided text lines) :
    (lines.flatMap fun line ↦ line.1 ++ line.2) = text := by
  induction h with
  | last _ => simp
  | line _ _ _ _ ih => rw [List.flatMap_cons, ih, List.append_assoc]

theorem cons {c : Char} (hc : c ≠ '\n' ∧ c ≠ '\r') (h : Divided text lines) :
    Divided (c :: text) (lines.modifyHead fun line ↦ (c :: line.1, line.2)) := by
  cases h with
  | last htext => exact .last (htext.cons hc)
  | line htext hterminator hreturn hrest => exact .line (htext.cons hc) hterminator hreturn hrest

/-- A line without text. -/
theorem empty (terminator : List Char) (hterminator : terminator ∈ lineTerminators)
    (hreturn : terminator = ['\r'] → text.head? ≠ some '\n') (h : Divided text lines) :
    Divided (terminator ++ text) (([], terminator) :: lines) :=
  .line .nil hterminator hreturn h

theorem ended (h : Divided text lines) : Ended (lines.map fun line ↦ line.1 ++ line.2) := by
  induction h with
  | @last text htext =>
    rw [List.map_singleton, List.append_nil]
    exact .last htext
  | line htext hterminator _ _ ih => exact .line htext hterminator ih

end Divided

/-- A text is divided where it is cut into lines. -/
theorem exists_divided (text : List Char) :
    ∃ lines, Divided text lines ∧ (lines.map fun line ↦ line.1 ++ line.2) = cutLines text := by
  -- By the length, for a terminator can be two characters.
  induction hlength : text.length using Nat.strong_induction_on generalizing text with
  | _ length ih =>
    subst hlength
    cases text with
    | nil => exact ⟨[([], [])], .last .nil, rfl⟩
    | cons c rest =>
      by_cases hfeed : c = '\n'
      · subst hfeed
        obtain ⟨lines, hdivided, hcut⟩ := ih _ (Nat.lt_succ_self _) rest rfl
        exact ⟨_, hdivided.empty ['\n'] (by decide) (fun h ↦ by cases h),
          congrArg (['\n'] :: ·) hcut⟩
      by_cases hreturn : c = '\r'
      · subst hreturn
        by_cases hhead : rest.head? = some '\n'
        · -- The two characters are one terminator, and the line behind them is cut off by itself.
          obtain ⟨tail, rfl⟩ := List.head?_eq_some_iff.mp hhead
          obtain ⟨lines, hdivided, hcut⟩ := ih _ (Nat.lt_succ_of_lt (Nat.lt_succ_self _)) tail rfl
          exact ⟨_, hdivided.empty ['\r', '\n'] (by decide) (fun h ↦ by cases h),
            congrArg (['\r', '\n'] :: ·) hcut⟩
        · have hends : endsLine '\r' rest = true := by simp [endsLine, hhead]
          obtain ⟨lines, hdivided, hcut⟩ := ih _ (Nat.lt_succ_self _) rest rfl
          refine ⟨_, hdivided.empty ['\r'] (by decide) (fun _ ↦ hhead), ?_⟩
          rw [cutLines, if_pos hends, List.map_cons, hcut]
          rfl
      · have hends : ¬ endsLine c rest = true := by simp [endsLine, hfeed, hreturn]
        obtain ⟨lines, hdivided, hcut⟩ := ih _ (Nat.lt_succ_self _) rest rfl
        refine ⟨_, hdivided.cons ⟨hfeed, hreturn⟩, ?_⟩
        rw [cutLines, if_neg hends, ← hcut]
        cases lines <;> rfl

theorem flatten_cutLines (text : List Char) : (cutLines text).flatten = text := by
  obtain ⟨lines, hdivided, hcut⟩ := exists_divided text
  rw [← hcut, ← List.flatMap_def, hdivided.flatMap_eq]

theorem ended_cutLines (text : List Char) : Ended (cutLines text) := by
  obtain ⟨lines, hdivided, hcut⟩ := exists_divided text
  exact hcut ▸ hdivided.ended

theorem Ended.length_pos {lines : List (List Char)} (h : Ended lines) : 0 < lines.length := by
  cases h <;> exact Nat.succ_pos _

/-- A line is plain text, and then a terminator or, for the last line, nothing. -/
theorem Ended.getElem {lines : List (List Char)} (h : Ended lines) {index : Nat}
    (hindex : index < lines.length) :
    ∃ text terminator, lines[index] = text ++ terminator ∧ Plain text ∧
      (terminator ∈ lineTerminators ∧ index + 1 < lines.length ∨
        terminator = [] ∧ index + 1 = lines.length) := by
  induction h generalizing index with
  | @last text htext =>
    obtain rfl : index = 0 := Nat.lt_one_iff.mp hindex
    exact ⟨text, [], (List.append_nil _).symm, htext, .inr ⟨rfl, rfl⟩⟩
  | @line text terminator lines htext hterminator hended ih =>
    cases index with
    | zero =>
      exact ⟨text, terminator, rfl, htext, .inl ⟨hterminator, Nat.succ_lt_succ hended.length_pos⟩⟩
    | succ index =>
      obtain ⟨text, terminator, hline, htext, hend⟩ := ih (Nat.lt_of_succ_lt_succ hindex)
      refine ⟨text, terminator, hline, htext, hend.imp (fun hnext ↦ ?_) fun hlast ↦ ?_⟩
      · exact ⟨hnext.1, Nat.succ_lt_succ hnext.2⟩
      · exact ⟨hlast.1, congrArg Nat.succ hlast.2⟩

/-- What ends a line are line breaks, and the last line is ended by nothing. -/
theorem eq_of_mem_end {terminator : List Char} {next last : Prop}
    (hend : terminator ∈ lineTerminators ∧ next ∨ terminator = [] ∧ last) :
    ∀ c ∈ terminator, c = '\n' ∨ c = '\r' := by
  rcases hend with ⟨hterminator, -⟩ | ⟨rfl, -⟩
  · exact eq_of_mem_terminator hterminator
  · exact fun c hc ↦ absurd hc List.not_mem_nil

theorem dropLineEnd_append {text terminator : List Char} (htext : Plain text)
    (hterminator : ∀ c ∈ terminator, c = '\n' ∨ c = '\r') :
    Source.dropLineEnd (text ++ terminator) = text := by
  have hdropped : ∀ c ∈ terminator.reverse, (c == '\n' || c == '\r') = true := by
    intro c hc
    simpa using hterminator c (List.mem_reverse.mp hc)
  have hkept : text.reverse.dropWhile (fun c ↦ c == '\n' || c == '\r') = text.reverse := by
    refine List.dropWhile_eq_self_iff.mpr fun hlength ↦ ?_
    have := htext _ (List.mem_reverse.mp (List.getElem_mem hlength))
    simpa using this
  rw [Source.dropLineEnd, List.reverse_append, List.dropWhile_append_of_pos hdropped, hkept,
    List.reverse_reverse]

/-! ### Where the lines start -/

/-- The offsets of lines, the first of which starts at `offset`. -/
def lineOffsets : Nat → List (List Char) → List Nat
  | _, [] => []
  | offset, line :: lines => offset :: lineOffsets (offset + byteLength line) lines

theorem length_lineOffsets (offset : Nat) (lines : List (List Char)) :
    (lineOffsets offset lines).length = lines.length := by
  induction lines generalizing offset with
  | nil => rfl
  | cons line lines ih => exact congrArg Nat.succ (ih _)

theorem getElem_lineOffsets (offset : Nat) (lines : List (List Char)) {index : Nat}
    (hindex : index < (lineOffsets offset lines).length) :
    (lineOffsets offset lines)[index] = offset + byteLength (lines.take index).flatten := by
  induction lines generalizing offset index with
  | nil => cases hindex
  | cons line lines ih =>
    cases index with
    | zero => rfl
    | succ index =>
      have hrest := ih (offset + byteLength line) (Nat.lt_of_succ_lt_succ hindex)
      rw [List.take_succ_cons, List.flatten_cons, byteLength_append, ← Nat.add_assoc]
      exact hrest

theorem terminatorEnds_eq_lineOffsets (offset : Nat) (text : List Char) :
    offset :: terminatorEnds offset text = lineOffsets offset (cutLines text) := by
  induction text generalizing offset with
  | nil => rfl
  | cons c rest ih =>
    rw [terminatorEnds, cutLines]
    split
    · rw [lineOffsets, byteLength, byteLength, Nat.add_zero, ih]
    · obtain ⟨line, lines, hlines⟩ := exists_cons_cutLines rest
      have hrest := ih (offset + c.utf8Size)
      rw [hlines, lineOffsets] at hrest
      rw [hlines, List.modifyHead_cons, lineOffsets, byteLength, ← Nat.add_assoc,
        List.tail_eq_of_cons_eq hrest]

namespace Source

/-- The lines of the text, each with its terminator. -/
def lines (source : Source) : List (List Char) := cutLines source.chars

section Small

variable {source : Source} (hsmall : source.content.utf8ByteSize < UInt32.size)

include hsmall

theorem toNat_starts_eq_lineOffsets :
    source.starts.toList.map UInt32.toNat = lineOffsets 0 source.lines := by
  rw [toNat_starts hsmall, lines, ← terminatorEnds_eq_lineOffsets, terminatorEnds_eq_breakEnds,
    ← bytes_eq]

theorem length_lines : source.lines.length = source.starts.size := by
  have hlength := congrArg List.length (toNat_starts_eq_lineOffsets hsmall)
  rw [List.length_map, Array.length_toList, length_lineOffsets] at hlength
  exact hlength.symm

/-- A line starts behind all the lines before it. -/
theorem toNat_starts_getElem {index : Nat} (hindex : index < source.starts.size) :
    source.starts[index].toNat = byteLength (source.lines.take index).flatten := by
  have hlines : index < (lineOffsets 0 source.lines).length := by
    rw [length_lineOffsets, length_lines hsmall]
    exact hindex
  have hstart : (source.starts.toList.map UInt32.toNat)[index]? =
      some (byteLength (source.lines.take index).flatten) := by
    rw [toNat_starts_eq_lineOffsets hsmall, List.getElem?_eq_getElem hlines, getElem_lineOffsets,
      Nat.zero_add]
  rw [List.getElem?_map, Array.getElem?_toList, Array.getElem?_eq_getElem hindex] at hstart
  exact Option.some.inj hstart

/-- The text of a line is what the line holds before its terminator. -/
theorem lineText_eq (offset : UInt32)
    (hline : source.lineIndex (min offset source.length) < source.lines.length) :
    source.lineText offset = String.ofList
      (dropLineEnd source.lines[source.lineIndex (min offset source.length)]) := by
  rw [lineText]
  generalize source.lineIndex (min offset source.length) = index at hline ⊢
  have hindex : index < source.starts.size := length_lines hsmall ▸ hline
  have hstart : (source.starts[index]?.getD 0).toNat =
      byteLength (source.lines.take index).flatten := by
    rw [Array.getElem?_eq_getElem hindex]
    exact toNat_starts_getElem hsmall hindex
  have hstop : (source.starts[index + 1]?.map UInt32.toNat).getD (byteLength source.chars) =
      byteLength (source.lines.take (index + 1)).flatten := by
    by_cases hlast : index + 1 < source.starts.size
    · rw [Array.getElem?_eq_getElem hlast]
      exact toNat_starts_getElem hsmall hlast
    · rw [Array.getElem?_eq_none (Nat.not_lt.mp hlast), List.take_of_length_le, lines,
        flatten_cutLines]
      · rfl
      · rw [length_lines hsmall]
        exact Nat.not_lt.mp hlast
  have htake : (source.lines.take (index + 1)).flatten =
      (source.lines.take index).flatten ++ source.lines[index] := by
    rw [List.take_succ_eq_append_getElem hline, List.flatten_append, List.flatten_singleton]
  have hchars : source.chars = (source.lines.take index).flatten ++ source.lines[index] ++
      (source.lines.drop (index + 1)).flatten := by
    rw [← htake, ← List.flatten_append, List.take_append_drop, lines, flatten_cutLines]
  rw [hstart, hstop, htake, hchars, sliceBytes_append, Option.getD_some]

/-- If the line is plain text with line breaks behind it, its text is the plain text. -/
theorem lineText_of_line {offset : UInt32} {text terminator : List Char} (htext : Plain text)
    (hbreak : ∀ c ∈ terminator, c = '\n' ∨ c = '\r')
    (hline : source.lines[source.lineIndex (min offset source.length)]? =
      some (text ++ terminator)) :
    source.lineText offset = String.ofList text := by
  obtain ⟨hindex, hcut⟩ := List.getElem?_eq_some_iff.mp hline
  rw [lineText_eq hsmall offset hindex, hcut, dropLineEnd_append htext hbreak]

/-! ### The line around an offset -/

theorem min_length_of_le {offset : UInt32} (hoffset : offset.toNat ≤ source.content.utf8ByteSize) :
    min offset source.length = offset := by
  rw [← UInt32.toNat_inj, toNat_min_length hsmall]
  exact Nat.min_eq_left hoffset

/-- The text of the line that an offset is on stands between all the lines before it and what
follows it: the rest of the terminator that the offset comes before, or nothing if it is the last
line. -/
theorem exists_line (offset : UInt32) (hoffset : offset.toNat ≤ source.content.utf8ByteSize) :
    ∃ before text terminator later,
      source.chars = before ++ text ++ (terminator ++ later) ∧
      byteLength before = (source.lineStart offset).toNat ∧
      Plain text ∧ source.lineText offset = String.ofList text ∧
      (terminator ∈ lineTerminators ∧ offset.toNat < byteLength (before ++ text ++ terminator) ∨
        terminator = [] ∧ later = []) := by
  have hinside := min_length_of_le hsmall hoffset
  have hstarts := source.lineIndex_lt offset
  have hline : source.lineIndex offset < source.lines.length := by
    rw [length_lines hsmall]
    exact hstarts
  obtain ⟨text, terminator, hcut, htext, hend⟩ := (ended_cutLines source.chars).getElem hline
  have htake : (source.lines.take (source.lineIndex offset + 1)).flatten =
      (source.lines.take (source.lineIndex offset)).flatten ++ text ++ terminator := by
    rw [List.take_succ_eq_append_getElem hline, List.flatten_append, List.flatten_singleton,
      List.append_assoc]
    exact congrArg _ hcut
  refine ⟨(source.lines.take (source.lineIndex offset)).flatten, text, terminator,
    (source.lines.drop (source.lineIndex offset + 1)).flatten, ?_, ?_, htext, ?_, ?_⟩
  · rw [← List.append_assoc, ← htake, ← List.flatten_append, List.take_append_drop, lines,
      flatten_cutLines]
  · exact (toNat_starts_getElem hsmall hstarts).symm
  · refine lineText_of_line hsmall htext (eq_of_mem_end hend) ?_
    rw [hinside, List.getElem?_eq_getElem hline]
    exact congrArg some hcut
  · rcases hend with ⟨hterminator, hnext⟩ | ⟨hterminator, hlast⟩
    · -- The next line starts behind the terminator, and not at or before the offset.
      refine .inl ⟨hterminator, ?_⟩
      have hnext' : source.lineIndex offset + 1 < source.starts.size := length_lines hsmall ▸ hnext
      have hbefore := (starts_le_iff_le_lineIndex hsmall offset _ hnext').not.mpr
        (Nat.not_succ_le_self _)
      rw [UInt32.le_iff_toNat_le, toNat_starts_getElem hsmall hnext', htake] at hbefore
      exact Nat.not_le.mp hbefore
    · refine .inr ⟨hterminator, ?_⟩
      rw [lines, List.drop_of_length_le (Nat.le_of_eq hlast.symm)]
      rfl

end Small

theorem toNat_line_inside {source : Source}
    (hsmall : source.content.utf8ByteSize + 2 ≤ UInt32.size) {offset : UInt32}
    (hoffset : offset.toNat ≤ source.content.utf8ByteSize) :
    (source.position offset).line.toNat = 1 + (source.breaksUpTo offset.toNat).length := by
  have hshort := Nat.lt_of_succ_lt hsmall
  rw [toNat_line_position hsmall, min_length_of_le hshort hoffset, length_breaksUpTo hshort,
    Nat.add_comm]

/-! ### Places inside the text of a line -/

/-- Where the text of a line ends, seen from an offset in it: at the first byte of a terminator
from there on, or at the end of the source. -/
def textStop (source : Source) (offset : Nat) : Nat :=
  offset + ((source.bytes.drop offset).takeWhile fun byte ↦ byte != 10 && byte != 13).length

/-- The bytes up to a terminator are those of the characters up to it. -/
theorem length_takeWhile_bytes (text : List Char) :
    ((text.flatMap String.utf8EncodeChar).takeWhile fun byte ↦ byte != 10 && byte != 13).length =
      byteLength (text.takeWhile fun c ↦ c != '\n' && c != '\r') := by
  induction text with
  | nil => rfl
  | cons c rest ih =>
    by_cases hfeed : c = '\n'
    · subst hfeed
      rfl
    by_cases hreturn : c = '\r'
    · subst hreturn
      rfl
    · have hbytes : ∀ byte ∈ String.utf8EncodeChar c, (byte != 10 && byte != 13) = true := by
        intro byte hbyte
        simpa using forall_mem_utf8EncodeChar hfeed hreturn byte hbyte
      rw [List.flatMap_cons, List.takeWhile_append_of_pos hbytes, List.length_append, ih,
        String.length_utf8EncodeChar, List.takeWhile_cons_of_pos (by simp [hfeed, hreturn]),
        byteLength]

theorem textStop_eq {source : Source} {front rest : List Char}
    (hchars : source.chars = front ++ rest) :
    source.textStop (byteLength front) =
      byteLength front + byteLength (rest.takeWhile fun c ↦ c != '\n' && c != '\r') := by
  have hdrop : source.bytes.drop (byteLength front) = rest.flatMap String.utf8EncodeChar := by
    rw [bytes_eq, hchars, List.flatMap_append, ← length_flatMap_utf8EncodeChar, List.drop_left]
  rw [textStop, hdrop, length_takeWhile_bytes]

theorem takeWhile_plain {text after : List Char} (htext : Plain text)
    (hafter : ∀ c ∈ after.head?, c = '\n' ∨ c = '\r') :
    (text ++ after).takeWhile (fun c ↦ c != '\n' && c != '\r') = text := by
  rw [List.takeWhile_append_of_pos fun c hc ↦ by simpa using htext c hc]
  cases after with
  | nil => exact List.append_nil _
  | cons c rest =>
    have := hafter c rfl
    rw [List.takeWhile_cons_of_neg (by simpa [or_iff_not_imp_left] using this), List.append_nil]

/-- A place before the end of a line's terminator that no terminator follows at once is not behind
the text of the line. -/
theorem exists_rest_of_plain_head {text terminator later front tail : List Char} {c : Char}
    (hjoined : text ++ (terminator ++ later) = front ++ c :: tail) (hc : c ≠ '\n' ∧ c ≠ '\r')
    (hend : terminator ∈ lineTerminators ∧ byteLength front < byteLength (text ++ terminator) ∨
      terminator = [] ∧ later = []) :
    ∃ rest, text = front ++ rest ∧ c :: tail = rest ++ (terminator ++ later) := by
  refine append_eq_append_of_byteLength_le hjoined.symm ?_
  by_contra hlonger
  obtain ⟨passed, rfl, hpassed⟩ :=
    append_eq_append_of_byteLength_le hjoined (Nat.le_of_not_le hlonger)
  rcases hend with ⟨hterminator, hbefore⟩ | ⟨rfl, rfl⟩
  · rw [byteLength_append, byteLength_append] at hbefore
    obtain ⟨left, rfl, hleft⟩ := append_eq_append_of_byteLength_le hpassed.symm
      (Nat.le_of_lt (Nat.lt_of_add_lt_add_left hbefore))
    cases left with
    | nil => simp at hbefore
    | cons first others =>
      obtain ⟨rfl, -⟩ := List.cons.inj hleft
      rcases eq_of_mem_terminator hterminator c (by simp) with hfeed | hreturn
      · exact hc.1 hfeed
      · exact hc.2 hreturn
  · exact List.append_ne_nil_of_right_ne_nil _ (List.cons_ne_nil _ _) hpassed.symm

/-- An offset inside the text of a line, and between characters, divides the text of its line. -/
theorem exists_line_divided {source : Source}
    (hsmall : source.content.utf8ByteSize < UInt32.size) {offset : UInt32}
    (hinside : offset.toNat < source.textStop offset.toNat)
    (hboundary : Boundary offset.toNat source.chars) :
    ∃ before front rest after,
      source.chars = before ++ (front ++ rest) ++ after ∧ Plain (front ++ rest) ∧
      (∀ c ∈ after.head?, c = '\n' ∨ c = '\r') ∧
      byteLength before = (source.lineStart offset).toNat ∧
      byteLength (before ++ front) = offset.toNat ∧
      byteLength (before ++ (front ++ rest)) = source.textStop offset.toNat ∧
      source.lineText offset = String.ofList (front ++ rest) := by
  obtain ⟨head, tail, hchars, hhead⟩ := hboundary
  have hstop := textStop_eq hchars
  rw [hhead] at hstop
  obtain ⟨c, tail, rfl, hc⟩ : ∃ c rest, tail = c :: rest ∧ (c ≠ '\n' ∧ c ≠ '\r') := by
    cases tail with
    | nil => exact absurd hinside (Nat.not_lt.mpr (Nat.le_of_eq hstop))
    | cons c rest =>
      refine ⟨c, rest, rfl, ?_⟩
      by_contra hbreak
      rw [List.takeWhile_cons_of_neg (by simpa using hbreak)] at hstop
      exact absurd hinside (Nat.not_lt.mpr (Nat.le_of_eq hstop))
  have hoffset : offset.toNat ≤ source.content.utf8ByteSize := by
    rw [← byteLength_chars, hchars, byteLength_append, hhead]
    exact Nat.le_add_right _ _
  obtain ⟨before, text, terminator, later, hline, hstart, htext, hquoted, hend⟩ :=
    exists_line hsmall offset hoffset
  have hjoined : before ++ (text ++ (terminator ++ later)) = head ++ c :: tail := by
    rw [← hchars, hline, List.append_assoc]
  have hbefore : byteLength before ≤ byteLength head := by
    rw [hstart, hhead, ← UInt32.le_iff_toNat_le]
    exact lineStart_le hsmall offset
  obtain ⟨front, rfl, hfront⟩ := append_eq_append_of_byteLength_le hjoined hbefore
  rw [← hhead, List.append_assoc, byteLength_append, byteLength_append before,
    Nat.add_lt_add_iff_left] at hend
  obtain ⟨rest, rfl, hrest⟩ := exists_rest_of_plain_head hfront hc hend
  have hafter : ∀ c ∈ (terminator ++ later).head?, c = '\n' ∨ c = '\r' := by
    rcases hend with ⟨hterminator, -⟩ | ⟨rfl, rfl⟩
    · exact head?_of_mem_terminator hterminator later
    · exact fun c hc ↦ by cases hc
  refine ⟨before, front, rest, terminator ++ later, hline, htext, hafter, hstart, hhead, ?_,
    hquoted⟩
  rw [hrest, takeWhile_plain htext.right hafter] at hstop
  rw [hstop, ← hhead, ← List.append_assoc, byteLength_append (before ++ front)]

end Source

end LintCore
