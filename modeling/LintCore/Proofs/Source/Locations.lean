import LintCore.Proofs.Source.Partition

/-!
# The locations of spans

A span is located by the places of its first and of its last byte; one without bytes, and an
inverted one, has its start as both. Both places are what counting line terminators in the bytes
gives for an offset (`Source.IsPlaceOf`), so no number on the way to them leaves its range, and they
come in order. The place of a byte leads back to it, by the table of line starts
(`Source.offsetOf_position`) as well as by the lines themselves (`Source.byteAt?_position`).
`located_and_recovered` says this of every span, and that one with bytes in the text is told by its
location alone.
-/

set_option autoImplicit false
set_option relaxedAutoImplicit false

namespace LintCore

open Text

namespace Source

/-- The place is that of an offset inside the text: its line is counted by the terminators that end
at or before the offset, and its column by the bytes since the last of them. -/
structure IsPlaceOf (source : Source) (offset : Nat) (place : Position) : Prop where
  line_eq : place.line.toNat = 1 + (source.breaksUpTo offset).length
  break_le : (source.breaksUpTo offset).getLastD 0 ≤ offset
  column_eq : place.column.toNat = 1 + (offset - (source.breaksUpTo offset).getLastD 0)

/-- The offset of a place, from the table of line starts. -/
def offsetOf (source : Source) (place : Position) : Nat :=
  (source.starts[place.line.toNat - 1]?.map UInt32.toNat).getD 0 + (place.column.toNat - 1)

/-- The byte at a place, from the lines with their terminators. -/
def byteAt? (source : Source) (place : Position) : Option UInt8 :=
  source.lines[place.line.toNat - 1]?.bind fun line ↦
    (line.flatMap String.utf8EncodeChar)[place.column.toNat - 1]?

/-! ### Offsets of places -/

theorem position_min_length (source : Source) (offset : UInt32) :
    source.position (min offset source.length) = source.position offset := by
  have hmin : min (min offset source.length) source.length = min offset source.length := by
    rw [← UInt32.toNat_inj, toNat_min, toNat_min, Nat.min_assoc, Nat.min_self]
  rw [position, hmin]
  rfl

theorem toNat_max (first second : UInt32) :
    (max first second).toNat = max first.toNat second.toNat := by
  show (if first ≤ second then second else first).toNat = _
  split <;> rename_i horder <;> rw [UInt32.le_iff_toNat_le] at horder <;> omega

/-- The offset of the last byte of a span, or of its start if it has none. -/
theorem toNat_lastOffset (span : Span) :
    (max (span.stop - min span.stop 1) span.start).toNat =
      max (span.stop.toNat - 1) span.start.toNat := by
  have hle : min span.stop 1 ≤ span.stop := by
    rw [UInt32.le_iff_toNat_le, toNat_min]
    exact Nat.min_le_left _ _
  rw [toNat_max, UInt32.toNat_sub_of_le _ _ hle, toNat_min, UInt32.toNat_one]
  omega

section Countable

variable {source : Source} (hsmall : source.content.utf8ByteSize + 2 ≤ UInt32.size)

include hsmall

theorem isPlaceOf_position (offset : UInt32) :
    source.IsPlaceOf (min offset.toNat source.content.utf8ByteSize) (source.position offset) := by
  have hshort := Nat.lt_of_succ_lt hsmall
  have hstart := lineStart_le hshort (min offset source.length)
  rw [UInt32.le_iff_toNat_le] at hstart
  rw [← toNat_min_length hshort]
  constructor
  · rw [toNat_line_position hsmall, length_breaksUpTo hshort, Nat.add_comm]
  · rw [getLastD_breaksUpTo hshort]
    exact hstart
  · rw [toNat_column_position hsmall, getLastD_breaksUpTo hshort, Nat.add_comm]

/-- Places of offsets come in the order of the offsets, also behind the text. -/
theorem position_precedes_or_eq {first later : UInt32} (horder : first ≤ later) :
    (source.position first).Precedes (source.position later) ∨
      source.position first = source.position later := by
  rw [← position_min_length source first, ← position_min_length source later]
  rw [UInt32.le_iff_toNat_le] at horder
  have hfirst := toNat_min first source.length
  have hlater := toNat_min later source.length
  rcases Nat.lt_or_eq_of_le (show (min first source.length).toNat ≤
      (min later source.length).toNat by omega) with hbefore | hsame
  · refine .inl (position_precedes hsmall (UInt32.lt_iff_toNat_lt.mpr hbefore) ?_)
    rw [hlater, toNat_length (Nat.lt_of_succ_lt hsmall)]
    exact Nat.min_le_right _ _
  · exact .inr (congrArg source.position (UInt32.toNat_inj.mp hsame))

theorem offsetOf_position (offset : UInt32) :
    source.offsetOf (source.position offset) =
      min offset.toNat source.content.utf8ByteSize := by
  have hshort := Nat.lt_of_succ_lt hsmall
  have hline := source.lineIndex_lt (min offset source.length)
  have hstart := lineStart_le hshort (min offset source.length)
  rw [UInt32.le_iff_toNat_le] at hstart
  rw [offsetOf, toNat_line_position hsmall, toNat_column_position hsmall, Nat.add_sub_cancel,
    Nat.add_sub_cancel, Array.getElem?_eq_getElem hline, Option.map_some, Option.getD_some,
    ← toNat_min_length hshort]
  exact Nat.add_sub_cancel' hstart

/-- A byte comes before the end of its line. -/
theorem lt_byteLength_take {offset : UInt32}
    (hoffset : offset.toNat < source.content.utf8ByteSize) :
    offset.toNat < byteLength (source.lines.take (source.lineIndex offset + 1)).flatten := by
  have hshort := Nat.lt_of_succ_lt hsmall
  by_cases hnext : source.lineIndex offset + 1 < source.starts.size
  · have hafter := (starts_le_iff_le_lineIndex hshort offset _ hnext).not.mpr
      (Nat.not_succ_le_self _)
    rw [UInt32.le_iff_toNat_le, toNat_starts_getElem hshort hnext] at hafter
    exact Nat.not_le.mp hafter
  · have hall : source.lines.length ≤ source.lineIndex offset + 1 := by
      rw [length_lines hshort]
      exact Nat.not_lt.mp hnext
    rwa [List.take_of_length_le hall, lines, flatten_cutLines, byteLength_chars]

/-- The place of a byte is where this byte stands in the lines. -/
theorem byteAt?_position {offset : UInt32} (hoffset : offset.toNat < source.content.utf8ByteSize) :
    source.byteAt? (source.position offset) = source.bytes[offset.toNat]? := by
  have hshort := Nat.lt_of_succ_lt hsmall
  have hindex : source.lineIndex offset < source.lines.length := by
    rw [length_lines hshort]
    exact source.lineIndex_lt offset
  have hchars : source.chars = (source.lines.take (source.lineIndex offset)).flatten ++
      (source.lines[source.lineIndex offset] ++
        (source.lines.drop (source.lineIndex offset + 1)).flatten) := by
    rw [← List.flatten_cons, List.getElem_cons_drop, ← List.flatten_append, List.take_append_drop,
      lines, flatten_cutLines]
  have hbefore : (source.lineStart offset).toNat =
      ((source.lines.take (source.lineIndex offset)).flatten.flatMap
        String.utf8EncodeChar).length := by
    rw [length_flatMap_utf8EncodeChar]
    exact toNat_starts_getElem hshort _
  have hstart := lineStart_le hshort offset
  rw [UInt32.le_iff_toNat_le, hbefore] at hstart
  have hstop := lt_byteLength_take hsmall hoffset
  rw [List.take_succ_eq_append_getElem hindex, List.flatten_append, List.flatten_singleton,
    byteLength_append, ← length_flatMap_utf8EncodeChar, ← length_flatMap_utf8EncodeChar] at hstop
  rw [byteAt?, toNat_line_position hsmall, toNat_column_position hsmall, Nat.add_sub_cancel,
    Nat.add_sub_cancel, min_length_of_le hshort (Nat.le_of_lt hoffset),
    List.getElem?_eq_getElem hindex, Option.bind_some, bytes_eq, hchars, List.flatMap_append,
    List.flatMap_append, List.getElem?_append_right hstart, hbefore,
    List.getElem?_append_left (by omega)]

/-- The places of the first and the last byte lead back to these bytes. -/
theorem offsetOf_locate {span : Span} (hlt : span.start.toNat < span.stop.toNat)
    (hinside : span.stop.toNat ≤ source.content.utf8ByteSize) :
    source.offsetOf (source.locate span).first = span.start.toNat ∧
      source.offsetOf (source.locate span).last = span.stop.toNat - 1 := by
  constructor
  · rw [locate, offsetOf_position hsmall]
    omega
  · rw [locate, offsetOf_position hsmall, toNat_lastOffset]
    omega

end Countable

/-- A text leaves room for one more byte than its offsets need. Whatever its offsets, a span has for
its first place that of its start and for its last place that of its last byte, or of its start if
it has no byte before its stop; an offset behind the text has the place of the end. Both places are
exact, and they come in order. A span that is empty or inverted has one place for both. If a span
has bytes, and all of them are in the text, then its last place is where the line and the column say
that its last byte stands, and both its offsets can be read off its places with the table of line
starts. -/
theorem located_and_recovered (source : Source)
    (hsmall : source.content.utf8ByteSize + 2 ≤ UInt32.size) (span : Span) :
    let size := source.content.utf8ByteSize
    let location := source.locate span
    location.first = source.position span.start ∧
    source.IsPlaceOf (min span.start.toNat size) location.first ∧
    source.IsPlaceOf (min (max (span.stop.toNat - 1) span.start.toNat) size) location.last ∧
    (location.first.Precedes location.last ∨ location.first = location.last) ∧
    (span.isEmpty = true → location.last = location.first) ∧
    (span.isEmpty = false → span.stop.toNat ≤ size →
      source.IsPlaceOf (span.stop.toNat - 1) location.last ∧
      (∃ byte, source.bytes[span.stop.toNat - 1]? = some byte ∧
        source.byteAt? location.last = some byte) ∧
      span = ⟨.ofNat (source.offsetOf location.first),
        .ofNat (source.offsetOf location.last + 1)⟩) := by
  intro size location
  have hstop := toNat_lastOffset span
  have hlast := isPlaceOf_position hsmall (max (span.stop - min span.stop 1) span.start)
  rw [hstop] at hlast
  have horder : span.start ≤ max (span.stop - min span.stop 1) span.start := by
    rw [UInt32.le_iff_toNat_le, hstop]
    exact Nat.le_max_right _ _
  refine ⟨rfl, isPlaceOf_position hsmall span.start, hlast, position_precedes_or_eq hsmall horder,
    fun hempty ↦ ?_, fun hnonempty hinside ↦ ?_⟩
  · have hle : span.stop ≤ span.start := of_decide_eq_true hempty
    rw [UInt32.le_iff_toNat_le] at hle
    refine congrArg source.position (UInt32.toNat_inj.mp ?_)
    rw [hstop]
    omega
  · have hlt : span.start < span.stop := UInt32.not_le.mp (of_decide_eq_false hnonempty)
    rw [UInt32.lt_iff_toNat_lt] at hlt
    obtain ⟨hfirstOffset, hlastOffset⟩ := offsetOf_locate hsmall hlt hinside
    have hbyte : max (span.stop.toNat - 1) span.start.toNat = span.stop.toNat - 1 := by omega
    have hsize : span.stop.toNat - 1 < size := by omega
    rw [hbyte] at hstop hlast
    rw [Nat.min_eq_left (Nat.le_of_lt hsize)] at hlast
    obtain ⟨byte, hread⟩ : ∃ byte, source.bytes[span.stop.toNat - 1]? = some byte :=
      ⟨_, List.getElem?_eq_getElem hsize⟩
    refine ⟨hlast, ⟨byte, hread, ?_⟩, ?_⟩
    · rw [← hread, ← hstop]
      exact byteAt?_position hsmall (hstop ▸ hsize)
    · rw [hfirstOffset, hlastOffset, Nat.sub_add_cancel (Nat.one_le_of_lt hlt),
        UInt32.ofNat_toNat, UInt32.ofNat_toNat]

/-- The last byte of a terminator of two bytes is told from the first, an inverted span has one
place, and one that reaches behind the text ends behind its last terminator. -/
theorem broken_located_and_recovered :
    broken.content.utf8ByteSize + 2 ≤ UInt32.size ∧
      broken.locate ⟨1, 3⟩ = ⟨"broken", ⟨2, 1⟩, ⟨2, 2⟩⟩ ∧ broken.byteAt? ⟨2, 2⟩ = some 10 ∧
      (⟨1, 3⟩ : Span) =
        ⟨.ofNat (broken.offsetOf ⟨2, 1⟩), .ofNat (broken.offsetOf ⟨2, 2⟩ + 1)⟩ ∧
      (broken.locate ⟨6, 2⟩).last = (broken.locate ⟨6, 2⟩).first ∧
      broken.IsPlaceOf 8 (broken.locate ⟨0, 4294967295⟩).last := by
  have hsmall : broken.content.utf8ByteSize + 2 ≤ UInt32.size := by decide
  have hlocation : broken.locate ⟨1, 3⟩ = ⟨"broken", ⟨2, 1⟩, ⟨2, 2⟩⟩ := by decide +kernel
  have hbyte : broken.bytes[2]? = some 10 := by decide +kernel
  obtain ⟨-, -, -, -, -, hinside⟩ := located_and_recovered broken hsmall ⟨1, 3⟩
  obtain ⟨-, ⟨byte, hread, hat⟩, hspan⟩ := hinside (by decide) (by decide +kernel)
  obtain ⟨-, -, -, -, hpoint, -⟩ := located_and_recovered broken hsmall ⟨6, 2⟩
  obtain ⟨-, -, hend, -⟩ := located_and_recovered broken hsmall ⟨0, 4294967295⟩
  rw [hlocation] at hat hspan
  obtain rfl : byte = 10 := Option.some.inj (hread.symm.trans hbyte)
  have hsize : min (max ((4294967295 : UInt32).toNat - 1) (0 : UInt32).toNat)
      broken.content.utf8ByteSize = 8 := by decide +kernel
  exact ⟨hsmall, hlocation, hat, hspan, hpoint (by decide), hsize ▸ hend⟩

end Source

end LintCore
