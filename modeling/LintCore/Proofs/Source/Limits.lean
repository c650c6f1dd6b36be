import LintCore.Proofs.Source.Position

/-!
# The last offset

Offsets count the bytes of a text as long as it has less than `2 ^ 32` of them. In such a text the
table of line starts and the length are exact, and there are no more lines than a count from zero
can tell (`Source.lineIndex_le`). But lines and columns are counted from one, so a text with as many
bytes as there are offsets behind the first can have one line too many at its end, or one column
(`Source.succ_lineIndex_eq_size_iff`, `Source.succ_column_eq_size_iff`).
`Source.place_in_range_iff` says that nothing else leaves its range, and
`Source.longest_end_without_place` gives two texts in which the end has no column and no line.
-/

set_option autoImplicit false
set_option relaxedAutoImplicit false

namespace LintCore

/-! ### As many terminators as bytes -/

/-- No more terminators end up to an offset than there are bytes before it. -/
theorem length_filter_breakEnds_le (offset stop : Nat) (bytes : List UInt8) :
    ((breakEnds offset bytes).filter fun last ↦ decide (last ≤ stop)).length ≤ stop - offset := by
  induction bytes generalizing offset with
  | nil => exact Nat.zero_le _
  | cons byte rest ih =>
    have hrest := ih (offset + 1)
    rw [breakEnds_cons]
    split
    · by_cases hlast : offset + 1 ≤ stop
      · rw [List.filter_cons_of_pos (by simpa using hlast), List.length_cons]
        omega
      · rw [List.filter_cons_of_neg (by simpa using hlast)]
        omega
    · omega

theorem breakEnds_of_forall {offset : Nat} {bytes : List UInt8}
    (hbytes : ∀ byte ∈ bytes, byte ≠ 10 ∧ byte ≠ 13) : breakEnds offset bytes = [] := by
  rw [← List.append_nil bytes, breakEnds_append_of_forall hbytes, breakEnds]

/-- Every line feed ends a line. -/
theorem length_breakEnds_lineFeeds (offset count : Nat) :
    (breakEnds offset (List.replicate count 10)).length = count := by
  induction count generalizing offset with
  | zero => rfl
  | succ count ih =>
    rw [List.replicate_succ, breakEnds_cons, if_pos (Or.inl rfl), List.length_cons, ih]

namespace Source

/-- The last offset there is, as the end of a text that has just so many bytes. -/
structure EndsAtLast (source : Source) (offset : UInt32) : Prop where
  offset_eq : offset.toNat + 1 = UInt32.size
  size_eq : source.content.utf8ByteSize + 1 = UInt32.size

section Small

variable {source : Source} (hsmall : source.content.utf8ByteSize < UInt32.size)

include hsmall

/-! ### The last offset -/

theorem endsAtLast_iff (offset : UInt32) :
    source.EndsAtLast offset ↔ (min offset source.length).toNat + 1 = UInt32.size := by
  have hoffset : offset.toNat < UInt32.size := offset.toNat_lt_size
  rw [toNat_min_length hsmall]
  constructor
  · rintro ⟨hlast, hsize⟩
    omega
  · intro hinside
    exact ⟨by omega, by omega⟩

/-- All terminators end up to the end of the text. -/
theorem EndsAtLast.breaksUpTo_eq {offset : UInt32} (h : source.EndsAtLast offset) :
    source.breaksUpTo (min offset source.length).toNat = breakEnds 0 source.bytes := by
  have hinside := (endsAtLast_iff hsmall offset).mp h
  refine List.filter_eq_self.mpr fun last hlast ↦ decide_eq_true ?_
  have hbound := (breakEnds_bounds hlast).2
  have hsize := h.size_eq
  rw [length_bytes] at hbound
  omega

/-- There is at least a byte for every line before an offset. -/
theorem lineIndex_le (offset : UInt32) :
    source.lineIndex (min offset source.length) ≤ (min offset source.length).toNat := by
  rw [← length_breaksUpTo hsmall]
  exact length_filter_breakEnds_le 0 _ source.bytes

/-! ### Lines and columns that leave their range -/

theorem succ_lineIndex_eq_size_iff (offset : UInt32) :
    source.lineIndex (min offset source.length) + 1 = UInt32.size ↔
      source.EndsAtLast offset ∧
        (breakEnds 0 source.bytes).length = source.content.utf8ByteSize := by
  have hle := lineIndex_le hsmall offset
  have hinside : (min offset source.length).toNat < UInt32.size := UInt32.toNat_lt_size _
  constructor
  · intro hline
    have hlast : source.EndsAtLast offset := (endsAtLast_iff hsmall offset).mpr (by omega)
    have hsize := hlast.size_eq
    refine ⟨hlast, ?_⟩
    rw [← hlast.breaksUpTo_eq hsmall, length_breaksUpTo hsmall]
    omega
  · rintro ⟨hlast, hlength⟩
    rw [← length_breaksUpTo hsmall, hlast.breaksUpTo_eq hsmall, hlength]
    exact hlast.size_eq

theorem succ_column_eq_size_iff (offset : UInt32) :
    (min offset source.length).toNat - (source.lineStart (min offset source.length)).toNat + 1 =
        UInt32.size ↔
      source.EndsAtLast offset ∧ breakEnds 0 source.bytes = [] := by
  have hinside : (min offset source.length).toNat < UInt32.size := UInt32.toNat_lt_size _
  rw [← getLastD_breaksUpTo hsmall]
  constructor
  · intro hcolumn
    have hlast : source.EndsAtLast offset := (endsAtLast_iff hsmall offset).mpr (by omega)
    refine ⟨hlast, ?_⟩
    rw [hlast.breaksUpTo_eq hsmall] at hcolumn
    -- A terminator ends behind its first byte, so the last line would not start at zero.
    by_contra hbreak
    have hbound := (breakEnds_bounds (List.getLast_mem hbreak)).1
    rw [List.getLastD_eq_getLast?, List.getLast?_eq_some_getLast hbreak, Option.getD_some]
      at hcolumn
    have hwords : UInt32.size = 4294967296 := rfl
    omega
  · rintro ⟨hlast, hnone⟩
    rw [hlast.breaksUpTo_eq hsmall, hnone]
    exact (endsAtLast_iff hsmall offset).mp hlast

end Small

end Source

/-! ### Counting from one -/

/-- A number counted from one is kept exactly unless it is one too many, and this is when the word
for it is zero. -/
theorem exact_and_pos_iff {count : Nat} {word : UInt32} (hcount : count < UInt32.size)
    (hword : word.toNat = (count + 1) % UInt32.size) :
    (word.toNat = count + 1 ↔ ¬ count + 1 = UInt32.size) ∧
      (1 ≤ word ↔ ¬ count + 1 = UInt32.size) := by
  rw [UInt32.le_iff_toNat_le, UInt32.toNat_one, hword]
  rcases Nat.lt_or_eq_of_le (show count + 1 ≤ UInt32.size from hcount) with hfits | hfull
  · rw [Nat.mod_eq_of_lt hfits]
    exact ⟨by omega, by omega⟩
  · rw [hfull, Nat.mod_self]
    exact ⟨by omega, by omega⟩

namespace Source

/-- A text is given whose bytes an offset can count. The table of line starts then holds the ends of
all line terminators as they are, and the length is exact. For every offset, the number of lines
before its own fits into a word, and its own line does not start behind it. Its line and its column,
counted from one, are exact and at least one, but for the last offset there is in a text that ends
there: this has no line if each byte is a line terminator of its own, and no column if there is no
line terminator. -/
theorem place_in_range_iff (source : Source)
    (hsmall : source.content.utf8ByteSize < UInt32.size) (offset : UInt32) :
    let inside := min offset source.length
    let line := source.lineIndex inside
    let start := source.lineStart inside
    let place := source.position offset
    let breaks := breakEnds 0 source.bytes
    let lineOverruns := source.EndsAtLast offset ∧ breaks.length = source.content.utf8ByteSize
    let columnOverruns := source.EndsAtLast offset ∧ breaks = []
    source.starts.toList.map UInt32.toNat = 0 :: breaks ∧
      source.length.toNat = source.content.utf8ByteSize ∧
      (UInt32.ofNat line).toNat = line ∧
      start ≤ inside ∧
      (place.line.toNat = line + 1 ↔ ¬ lineOverruns) ∧
      (place.column.toNat = inside.toNat - start.toNat + 1 ↔ ¬ columnOverruns) ∧
      (1 ≤ place.line ↔ ¬ lineOverruns) ∧
      (1 ≤ place.column ↔ ¬ columnOverruns) := by
  intro inside line start place breaks lineOverruns columnOverruns
  have hline : line < UInt32.size :=
    Nat.lt_of_le_of_lt (lineIndex_le hsmall offset) (UInt32.toNat_lt_size inside)
  have hcolumn : inside.toNat - start.toNat < UInt32.size :=
    Nat.lt_of_le_of_lt (Nat.sub_le _ _) (UInt32.toNat_lt_size inside)
  obtain ⟨hlineExact, hlinePos⟩ := exact_and_pos_iff hline (toNat_line_eq_mod source offset)
  obtain ⟨hcolumnExact, hcolumnPos⟩ :=
    exact_and_pos_iff hcolumn (toNat_column_eq_mod hsmall offset)
  rw [succ_lineIndex_eq_size_iff hsmall] at hlineExact hlinePos
  rw [succ_column_eq_size_iff hsmall] at hcolumnExact hcolumnPos
  exact ⟨toNat_starts hsmall, toNat_length hsmall, Nat.mod_eq_of_lt hline,
    lineStart_le hsmall inside, hlineExact, hcolumnExact, hlinePos, hcolumnPos⟩

/-! ### The longest texts -/

/-- A text of one character, over and over. -/
def repeated (c : Char) (count : Nat) : Source :=
  .ofContent "repeated" (String.ofList (List.replicate count c))

theorem bytes_repeated {c : Char} {byte : UInt8} (hc : String.utf8EncodeChar c = [byte])
    (count : Nat) : (repeated c count).bytes = List.replicate count byte := by
  have hchars : (repeated c count).chars = List.replicate count c := String.toList_ofList
  rw [bytes_eq, hchars, List.flatMap_replicate, hc, List.flatten_replicate_singleton]

theorem utf8ByteSize_repeated {c : Char} {byte : UInt8} (hc : String.utf8EncodeChar c = [byte])
    (count : Nat) : (repeated c count).content.utf8ByteSize = count := by
  rw [← length_bytes, bytes_repeated hc, List.length_replicate]

theorem utf8EncodeChar_a : String.utf8EncodeChar 'a' = [97] := rfl

/-- A longest text ends at the last offset. -/
theorem endsAtLast_repeated {c : Char} {byte : UInt8} (hc : String.utf8EncodeChar c = [byte]) :
    (repeated c 4294967295).EndsAtLast 4294967295 :=
  ⟨rfl, by rw [utf8ByteSize_repeated hc, UInt32.size]⟩

theorem breakEnds_unbroken (count : Nat) : breakEnds 0 (repeated 'a' count).bytes = [] := by
  rw [bytes_repeated utf8EncodeChar_a]
  refine breakEnds_of_forall fun byte hbyte ↦ ?_
  rw [List.eq_of_mem_replicate hbyte]
  decide

theorem length_breakEnds_blank (count : Nat) :
    (breakEnds 0 (repeated '\n' count).bytes).length = count := by
  rw [bytes_repeated utf8EncodeChar_lineFeed, length_breakEnds_lineFeeds]

/-- Offsets count the bytes of a text of `2 ^ 32 - 1` bytes. But the end of a single line that is so
long has no column, and the end of so many empty lines has no line. -/
theorem longest_end_without_place :
    ((repeated 'a' 4294967295).content.utf8ByteSize < UInt32.size ∧
      ((repeated 'a' 4294967295).position 4294967295).column = 0) ∧
      (repeated '\n' 4294967295).content.utf8ByteSize < UInt32.size ∧
      ((repeated '\n' 4294967295).position 4294967295).line = 0 := by
  have hunbroken : (repeated 'a' 4294967295).content.utf8ByteSize < UInt32.size := by
    rw [utf8ByteSize_repeated utf8EncodeChar_a]
    decide
  have hblank : (repeated '\n' 4294967295).content.utf8ByteSize < UInt32.size := by
    rw [utf8ByteSize_repeated utf8EncodeChar_lineFeed]
    decide
  have hcolumn := (succ_column_eq_size_iff hunbroken 4294967295).mpr
    ⟨endsAtLast_repeated utf8EncodeChar_a, breakEnds_unbroken _⟩
  have hline := (succ_lineIndex_eq_size_iff hblank 4294967295).mpr
    ⟨endsAtLast_repeated utf8EncodeChar_lineFeed, by
      rw [length_breakEnds_blank, utf8ByteSize_repeated utf8EncodeChar_lineFeed]⟩
  refine ⟨⟨hunbroken, UInt32.toNat_inj.mp ?_⟩, hblank, UInt32.toNat_inj.mp ?_⟩
  · rw [toNat_column_eq_mod hunbroken, hcolumn, Nat.mod_self, UInt32.toNat_zero]
  · rw [toNat_line_eq_mod, hline, Nat.mod_self, UInt32.toNat_zero]

/-- In a single line of `2 ^ 32 - 1` bytes, the last byte has a column and the end has none; both
are on the first line. -/
theorem unbroken_place_in_range :
    (repeated 'a' 4294967295).content.utf8ByteSize < UInt32.size ∧
      1 ≤ ((repeated 'a' 4294967295).position 4294967294).column ∧
      ¬ 1 ≤ ((repeated 'a' 4294967295).position 4294967295).column ∧
      1 ≤ ((repeated 'a' 4294967295).position 4294967295).line := by
  have hsize : (repeated 'a' 4294967295).content.utf8ByteSize = 4294967295 :=
    utf8ByteSize_repeated utf8EncodeChar_a _
  have hsmall : (repeated 'a' 4294967295).content.utf8ByteSize < UInt32.size := by
    rw [hsize]
    decide
  have hnone := breakEnds_unbroken 4294967295
  obtain ⟨-, -, -, -, -, -, -, hlast⟩ := place_in_range_iff _ hsmall 4294967294
  obtain ⟨-, -, -, -, -, -, hline, hend⟩ := place_in_range_iff _ hsmall 4294967295
  refine ⟨hsmall, hlast.mpr fun h ↦ absurd h.1.offset_eq (by decide), ?_, hline.mpr fun h ↦ ?_⟩
  · exact hend.not.mpr (not_not_intro ⟨endsAtLast_repeated utf8EncodeChar_a, hnone⟩)
  · have hcount := h.2
    rw [hnone, hsize] at hcount
    exact absurd hcount (by decide)

end Source

end LintCore
