import LintCore.Proofs.Source.LineTable

/-!
# Lines and columns, counted from the bytes

The line of an offset is one more than the number of line terminators that end at or before it, and
its column one more than the number of bytes since the last of them (`position_counts_breaks`). The
statement counts in the bytes of the text and without the table of line starts; that the search in
the table finds what a scan of the table would find is a part of it, and so is that neither the
difference nor the two sums wrap around. Within the text a later offset has a later place, so no two
offsets share one.
-/

set_option autoImplicit false
set_option relaxedAutoImplicit false

namespace LintCore

/-- Earlier as a reader compares places: by line, and within a line by column. -/
def Position.Precedes (first later : Position) : Prop :=
  first.line < later.line ∨ first.line = later.line ∧ first.column < later.column

theorem Position.not_precedes_self {place : Position} : ¬ place.Precedes place := by
  rintro (hline | ⟨-, hcolumn⟩)
  · exact UInt32.lt_irrefl _ hline
  · exact UInt32.lt_irrefl _ hcolumn

namespace Source

/-- The ends of the line terminators that end at or before an offset. -/
def breaksUpTo (source : Source) (offset : Nat) : List Nat :=
  (breakEnds 0 source.bytes).filter fun stop ↦ decide (stop ≤ offset)

/-! ### The terminators up to an offset, and the table -/

/-- What a test passes up to some place and nowhere from there on is a front part of the list. -/
theorem filter_eq_take {values : List Nat} {test : Nat → Bool} {count : Nat}
    (htest : ∀ index (hindex : index < values.length),
      test values[index] = true ↔ index < count) :
    values.filter test = values.take count := by
  induction values generalizing count with
  | nil => rw [List.take_nil, List.filter_nil]
  | cons value rest ih =>
    have hrest : ∀ index (hindex : index < rest.length),
        test rest[index] = true ↔ index < count - 1 := by
      intro index hindex
      have := htest (index + 1) (Nat.succ_lt_succ hindex)
      rw [List.getElem_cons_succ] at this
      exact this.trans Nat.lt_sub_iff_add_lt.symm
    have hvalue := htest 0 (Nat.succ_pos _)
    rw [List.getElem_cons_zero] at hvalue
    cases count with
    | zero =>
      rw [List.filter_cons_of_neg (by rw [hvalue]; exact Nat.lt_irrefl 0), ih hrest]
      rfl
    | succ count =>
      rw [List.filter_cons_of_pos (hvalue.mpr (Nat.succ_pos _)), ih hrest]
      rfl

section Small

variable {source : Source} (hsmall : source.content.utf8ByteSize < UInt32.size)

include hsmall

/-- The lines that start at or before an offset are those up to the line found for it. -/
theorem breaksUpTo_eq_take (offset : UInt32) :
    0 :: source.breaksUpTo offset.toNat =
      (source.starts.toList.map UInt32.toNat).take (source.lineIndex offset + 1) := by
  have hfilter : (source.starts.toList.map UInt32.toNat).filter
      (fun stop ↦ decide (stop ≤ offset.toNat)) = 0 :: source.breaksUpTo offset.toNat := by
    rw [toNat_starts hsmall, List.filter_cons_of_pos (by simp)]
    rfl
  rw [← hfilter]
  refine filter_eq_take fun index hindex ↦ ?_
  rw [List.length_map, Array.length_toList] at hindex
  rw [List.getElem_map, Array.getElem_toList, decide_eq_true_iff, Nat.lt_succ_iff,
    ← starts_le_iff_le_lineIndex hsmall offset index hindex, UInt32.le_iff_toNat_le]

theorem length_breaksUpTo (offset : UInt32) :
    (source.breaksUpTo offset.toNat).length = source.lineIndex offset := by
  have hlength := congrArg List.length (breaksUpTo_eq_take hsmall offset)
  have hline := source.lineIndex_lt offset
  have hsize : source.starts.toList.length = source.starts.size := Array.length_toList
  rw [List.length_cons, List.length_take, List.length_map, hsize] at hlength
  omega

theorem getLastD_breaksUpTo (offset : UInt32) :
    (source.breaksUpTo offset.toNat).getLastD 0 = (source.lineStart offset).toNat := by
  have hlast := congrArg List.getLast? (breaksUpTo_eq_take hsmall offset)
  have hline := source.lineIndex_lt offset
  rw [List.getLast?_cons, List.getLast?_take, if_neg (Nat.succ_ne_zero _), Nat.add_sub_cancel,
    List.getElem?_map, Array.getElem?_toList, Array.getElem?_eq_getElem hline] at hlast
  rw [List.getLastD_eq_getLast?]
  exact Option.some.inj hlast

end Small

/-! ### Places -/

theorem toNat_min (first second : UInt32) :
    (min first second).toNat = min first.toNat second.toNat := by
  show (if first ≤ second then first else second).toNat = _
  split <;> rename_i horder <;> rw [UInt32.le_iff_toNat_le] at horder <;> omega

/-- An offset behind the text stands for the end of the text. -/
theorem toNat_min_length {source : Source} (hsmall : source.content.utf8ByteSize < UInt32.size)
    (offset : UInt32) :
    (min offset source.length).toNat = min offset.toNat source.content.utf8ByteSize := by
  rw [toNat_min, toNat_length hsmall]

/-- The start of the line of an offset is not past the offset. -/
theorem lineStart_le {source : Source}
    (hsmall : source.content.utf8ByteSize < UInt32.size) (offset : UInt32) :
    source.lineStart offset ≤ offset :=
  (starts_le_iff_le_lineIndex hsmall offset _ (source.lineIndex_lt offset)).mpr (Nat.le_refl _)

/-- Whatever the size of the text, the line is counted within the range of an offset. -/
theorem toNat_line_eq_mod (source : Source) (offset : UInt32) :
    (source.position offset).line.toNat =
      (source.lineIndex (min offset source.length) + 1) % UInt32.size := by
  show (UInt32.ofNat _ + 1).toNat = _
  rw [UInt32.toNat_add, UInt32.toNat_ofNat', UInt32.toNat_one, Nat.mod_add_mod]

theorem toNat_column_eq_mod {source : Source}
    (hsmall : source.content.utf8ByteSize < UInt32.size) (offset : UInt32) :
    (source.position offset).column.toNat =
      ((min offset source.length).toNat - (source.lineStart (min offset source.length)).toNat
        + 1) % UInt32.size := by
  have hstart := lineStart_le hsmall (min offset source.length)
  show (min offset source.length - _ + 1 : UInt32).toNat = _
  rw [UInt32.toNat_add, UInt32.toNat_sub_of_le _ _ hstart, UInt32.toNat_one]

section Countable

variable {source : Source} (hsmall : source.content.utf8ByteSize + 2 ≤ UInt32.size)

include hsmall

theorem toNat_line_position (offset : UInt32) :
    (source.position offset).line.toNat = source.lineIndex (min offset source.length) + 1 := by
  have hline := source.lineIndex_lt (min offset source.length)
  have hsize := size_starts_le (Nat.lt_of_succ_lt hsmall)
  rw [toNat_line_eq_mod, Nat.mod_eq_of_lt (by omega)]

theorem toNat_column_position (offset : UInt32) :
    (source.position offset).column.toNat =
      (min offset source.length).toNat - (source.lineStart (min offset source.length)).toNat
        + 1 := by
  have hlength := toNat_length (Nat.lt_of_succ_lt hsmall)
  have hmin := toNat_min offset source.length
  rw [toNat_column_eq_mod (Nat.lt_of_succ_lt hsmall), Nat.mod_eq_of_lt (by omega)]

/-- Inside the text, a later offset has a later place. -/
theorem position_precedes {first later : UInt32} (horder : first < later)
    (hinside : later.toNat ≤ source.content.utf8ByteSize) :
    (source.position first).Precedes (source.position later) := by
  have hstart := lineStart_le (Nat.lt_of_succ_lt hsmall) first
  have hlines : source.lineIndex first ≤ source.lineIndex later :=
    (starts_le_iff_le_lineIndex (Nat.lt_of_succ_lt hsmall) later _ (source.lineIndex_lt first)).mp
      (UInt32.le_trans hstart (UInt32.le_of_lt horder))
  have hlength := toNat_length (Nat.lt_of_succ_lt hsmall)
  rw [UInt32.lt_iff_toNat_lt] at horder
  rw [UInt32.le_iff_toNat_le] at hstart
  have hfirst : min first source.length = first := by
    rw [← UInt32.toNat_inj, toNat_min]
    omega
  have hlater : min later source.length = later := by
    rw [← UInt32.toNat_inj, toNat_min]
    omega
  rw [Position.Precedes, UInt32.lt_iff_toNat_lt, UInt32.lt_iff_toNat_lt, ← UInt32.toNat_inj,
    toNat_line_position hsmall, toNat_line_position hsmall, toNat_column_position hsmall,
    toNat_column_position hsmall, hfirst, hlater]
  rcases Nat.eq_or_lt_of_le hlines with hsame | hbefore
  · have hstarts : source.lineStart first = source.lineStart later := by
      simp only [lineStart, hsame]
    rw [hstarts] at hstart ⊢
    exact .inr ⟨congrArg Nat.succ hsame, by omega⟩
  · exact .inl (Nat.succ_lt_succ hbefore)

end Countable

/-- In a text that leaves room for one more byte than its offsets need, every offset has the line
and the column that counting line terminators in the bytes gives, an offset past the end those of
the end. The table is looked up inside its bounds, at the line where a scan of it would stop, and
nothing is taken from a smaller number. Inside the text, places come in the order of their offsets
and are different for different offsets. -/
theorem position_counts_breaks (source : Source)
    (hsmall : source.content.utf8ByteSize + 2 ≤ UInt32.size) :
    (∀ offset : UInt32,
      let inside := min offset.toNat source.content.utf8ByteSize
      let breaks := source.breaksUpTo inside
      (source.position offset).line.toNat = 1 + breaks.length ∧
        breaks.getLastD 0 ≤ inside ∧
        (source.position offset).column.toNat = 1 + (inside - breaks.getLastD 0)) ∧
      (∀ offset : UInt32,
        let inside := min offset source.length
        ∃ hline : source.lineIndex inside < source.starts.size,
          source.starts[source.lineIndex inside] ≤ inside ∧
            ∀ line (hline : line < source.starts.size),
              source.starts[line] ≤ inside ↔ line ≤ source.lineIndex inside) ∧
      (∀ first later : UInt32, first < later → later.toNat ≤ source.content.utf8ByteSize →
        (source.position first).Precedes (source.position later)) ∧
      ∀ first second : UInt32, first.toNat ≤ source.content.utf8ByteSize →
        second.toNat ≤ source.content.utf8ByteSize →
        source.position first = source.position second → first = second := by
  have hshort := Nat.lt_of_succ_lt hsmall
  refine ⟨?_, ?_, fun first later ↦ position_precedes hsmall, ?_⟩
  · intro offset inside breaks
    have hinside : inside = (min offset source.length).toNat := by
      rw [toNat_min, toNat_length hshort]
    have hstart := lineStart_le hshort (min offset source.length)
    rw [UInt32.le_iff_toNat_le] at hstart
    have hbreaks : breaks = source.breaksUpTo (min offset source.length).toNat :=
      congrArg source.breaksUpTo hinside
    rw [toNat_line_position hsmall, toNat_column_position hsmall, hbreaks,
      length_breaksUpTo hshort, getLastD_breaksUpTo hshort, hinside]
    exact ⟨Nat.add_comm _ _, hstart, Nat.add_comm _ _⟩
  · intro offset inside
    exact ⟨source.lineIndex_lt inside, lineStart_le hshort inside,
      starts_le_iff_le_lineIndex hshort inside⟩
  · intro first second hfirst hsecond hsame
    by_contra hdifferent
    rcases UInt32.lt_or_lt_of_ne hdifferent with horder | horder
    · exact Position.not_precedes_self (hsame ▸ position_precedes hsmall horder hsecond)
    · exact Position.not_precedes_self (hsame ▸ position_precedes hsmall horder hfirst)

/-- All three terminators, one of them of two bytes, in six bytes. -/
def mixed : Source := ofContent "mixed" "a\r\nb\rc"

/-- Between the two bytes of its first terminator and past the end of the text. -/
theorem mixed_position_counts_breaks :
    mixed.content.utf8ByteSize + 2 ≤ UInt32.size ∧
      (mixed.breaksUpTo 2 = [] ∧ (mixed.position 2).line.toNat = 1 ∧
        (mixed.position 2).column.toNat = 3) ∧
      (mixed.breaksUpTo 6 = [3, 5] ∧ (mixed.position 500).line.toNat = 3 ∧
        (mixed.position 500).column.toNat = 2) ∧
      (mixed.position 2).Precedes (mixed.position 3) ∧ mixed.position 3 ≠ mixed.position 4 := by
  have hsmall : mixed.content.utf8ByteSize + 2 ≤ UInt32.size := by decide
  have hinside : mixed.breaksUpTo 2 = [] := by decide +kernel
  have hall : mixed.breaksUpTo 6 = [3, 5] := by decide +kernel
  obtain ⟨hplaces, -, horder, hdistinct⟩ := position_counts_breaks mixed hsmall
  obtain ⟨hline, -, hcolumn⟩ := hplaces 2
  obtain ⟨hlastLine, -, hlastColumn⟩ := hplaces 500
  refine ⟨hsmall, ⟨hinside, ?_, ?_⟩, ⟨hall, ?_, ?_⟩, horder 2 3 (by decide) (by decide), ?_⟩
  · exact hline.trans (congrArg (1 + List.length ·) hinside)
  · exact hcolumn.trans (congrArg (fun breaks ↦ 1 + (2 - breaks.getLastD 0)) hinside)
  · exact hlastLine.trans (congrArg (1 + List.length ·) hall)
  · exact hlastColumn.trans (congrArg (fun breaks ↦ 1 + (6 - breaks.getLastD 0)) hall)
  · intro hsame
    exact absurd (hdistinct 3 4 (by decide) (by decide) hsame) (by decide)

end Source

end LintCore
