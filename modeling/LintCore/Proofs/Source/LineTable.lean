import LintCore.Proofs.Source.LineBreaks

/-!
# The table of line starts, and the search in it

In a text short enough for its offsets, the table holds zero and then the ends of the line
terminators (`toNat_starts`), in ascending order (`pairwise_starts`). The search keeps the invariant
`Brackets`: every line before the range left to it starts before the offset, every line behind the
range starts after it. So the search finds the start that equals the offset if there is one
(`findStart_eq_ok`), and otherwise the place that divides the earlier starts from the later ones
(`findStart_eq_error`). The line of an offset is then the one that a scan of the whole table finds:
the last one that starts at or before the offset (`starts_le_iff_le_lineIndex`).
-/

set_option autoImplicit false
set_option relaxedAutoImplicit false

namespace LintCore.Source

/-! ### Bisection -/

section Bisection

variable {starts : Array UInt32} {offset : UInt32}

/-- Lines before `low` start before the offset, and lines from `high` on start after it. -/
structure Brackets (starts : Array UInt32) (offset : UInt32) (low high : Nat) : Prop where
  before : ∀ line (hline : line < starts.size), line < low → starts[line] < offset
  after : ∀ line (hline : line < starts.size), high ≤ line → offset < starts[line]

theorem brackets_all (starts : Array UInt32) (offset : UInt32) :
    Brackets starts offset 0 starts.size where
  before _ _ hbefore := absurd hbefore (Nat.not_lt_zero _)
  after _ hline hafter := absurd hline (Nat.not_lt.mpr hafter)

theorem lt_of_ascending (hascending : starts.toList.Pairwise (· < ·)) {first later : Nat}
    (horder : first < later) (hlater : later < starts.size) : starts[first] < starts[later] := by
  have := List.pairwise_iff_getElem.mp hascending first later
    (by rw [Array.length_toList]; omega) (by rw [Array.length_toList]; exact hlater) horder
  exact this

/-- The search narrows the range down to one line and keeps the invariant on its way. -/
theorem brackets_searchLine (hascending : starts.toList.Pairwise (· < ·)) {low high : Nat}
    (hhigh : high ≤ starts.size) (hrange : low < high)
    (hbrackets : Brackets starts offset low high) :
    Brackets starts offset (searchLine starts offset low high hhigh)
      (searchLine starts offset low high hhigh + 1) := by
  fun_induction searchLine starts offset low high hhigh with
  | case1 low high hhigh hwide middle hmiddle hle ih =>
    refine ih (by omega) ⟨?_, hbrackets.after⟩
    intro line hline hbefore
    exact UInt32.lt_of_lt_of_le (lt_of_ascending hascending hbefore hmiddle) hle
  | case2 low high hhigh hwide middle hmiddle hgt ih =>
    refine ih (by omega) ⟨hbrackets.before, ?_⟩
    intro line hline hafter
    have hmiddle' : offset < starts[middle] := UInt32.not_le.mp hgt
    rcases Nat.eq_or_lt_of_le hafter with rfl | hlater
    · exact hmiddle'
    · exact UInt32.lt_trans hmiddle' (lt_of_ascending hascending hlater hline)
  | case3 low high hhigh hnarrow =>
    obtain rfl : high = low + 1 := by omega
    exact hbrackets

/-- The search divides the table: earlier starts and later ones, and between them the offset itself
if a line starts there. -/
theorem findStart_divides (hascending : starts.toList.Pairwise (· < ·)) (hsize : 0 < starts.size)
    (offset : UInt32) :
    (∃ line, findStart starts offset = .ok line ∧
      (∃ hline : line < starts.size, starts[line] = offset) ∧
        Brackets starts offset line (line + 1)) ∨
      ∃ place, findStart starts offset = .error place ∧ place ≤ starts.size ∧
        Brackets starts offset place place := by
  have hbrackets :=
    brackets_searchLine hascending (Nat.le_refl _) hsize (brackets_all starts offset)
  obtain ⟨hline, hcases⟩ := findStart_cases starts offset hsize
  revert hbrackets hline hcases
  generalize searchLine starts offset 0 starts.size (Nat.le_refl _) = line
  rintro hbrackets hline (⟨hstart, hfound⟩ | ⟨hstart, hfound⟩ | ⟨hstart, hfound⟩)
  · exact .inl ⟨line, hfound, ⟨hline, hstart⟩, hbrackets⟩
  · refine .inr ⟨line + 1, hfound, hline, ?_, hbrackets.after⟩
    intro earlier hearlier hbefore
    rcases Nat.eq_or_lt_of_le (Nat.le_of_lt_succ hbefore) with rfl | hlt
    · exact hstart
    · exact hbrackets.before earlier hearlier hlt
  · refine .inr ⟨line, hfound, Nat.le_of_lt hline, hbrackets.before, ?_⟩
    intro later hlater hafter
    rcases Nat.eq_or_lt_of_le hafter with rfl | hlt
    · exact hstart
    · exact hbrackets.after later hlater hlt

end Bisection

/-! ### The bytes of a text -/

/-- The UTF-8 form of the text. -/
def bytes (source : Source) : List UInt8 := source.content.toByteArray.data.toList

theorem bytes_eq (source : Source) :
    source.bytes = source.chars.flatMap String.utf8EncodeChar := by
  rw [bytes, chars, ← String.utf8Encode_toList, List.utf8Encode, List.toList_data_toByteArray]

theorem length_bytes (source : Source) : source.bytes.length = source.content.utf8ByteSize := rfl

theorem byteLength_chars (source : Source) :
    Text.byteLength source.chars = source.content.utf8ByteSize :=
  Text.byteLength_toList source.content

theorem toNat_length {source : Source} (hsmall : source.content.utf8ByteSize < UInt32.size) :
    source.length.toNat = source.content.utf8ByteSize := by
  rw [length, byteLength_chars, Nat.min_eq_left (Nat.le_sub_one_of_lt hsmall)]
  exact Nat.mod_eq_of_lt hsmall

/-! ### The table -/

theorem toNat_starts {source : Source} (hsmall : source.content.utf8ByteSize < UInt32.size) :
    source.starts.toList.map UInt32.toNat = 0 :: breakEnds 0 source.bytes := by
  have hends : ∀ stop ∈ breakEnds 0 source.bytes, (UInt32.toNat ∘ UInt32.ofNat) stop = stop := by
    intro stop hstop
    have hbounds := (breakEnds_bounds hstop).2
    rw [length_bytes, Nat.zero_add] at hbounds
    exact Nat.mod_eq_of_lt (Nat.lt_of_le_of_lt hbounds hsmall)
  rw [source.starts_eq, lineStarts, terminatorEnds_eq_breakEnds, ← chars, ← bytes_eq,
    List.map_cons, List.map_map, List.map_congr_left hends, List.map_id']
  rfl

theorem pairwise_starts {source : Source} (hsmall : source.content.utf8ByteSize < UInt32.size) :
    source.starts.toList.Pairwise (· < ·) := by
  have hmap : (source.starts.toList.map UInt32.toNat).Pairwise (· < ·) := by
    rw [toNat_starts hsmall]
    exact List.pairwise_cons.mpr
      ⟨fun stop hstop ↦ (breakEnds_bounds hstop).1, pairwise_breakEnds _ _⟩
  exact (List.pairwise_map.mp hmap).imp UInt32.lt_iff_toNat_lt.mpr

theorem starts_zero (source : Source) (hsize : 0 < source.starts.size) : source.starts[0] = 0 := by
  obtain ⟨path, content, starts, rfl⟩ := source
  rfl

theorem size_starts_le {source : Source} (hsmall : source.content.utf8ByteSize < UInt32.size) :
    source.starts.size ≤ source.content.utf8ByteSize + 1 := by
  have hlength := congrArg List.length (toNat_starts hsmall)
  rw [List.length_map, Array.length_toList, List.length_cons] at hlength
  rw [hlength, ← length_bytes]
  exact Nat.add_le_add_right (length_breakEnds_le _ _) 1

/-- The line found is the one that a scan of the table would stop at. -/
theorem starts_le_iff_le_lineIndex {source : Source}
    (hsmall : source.content.utf8ByteSize < UInt32.size) (offset : UInt32) (line : Nat)
    (hline : line < source.starts.size) :
    source.starts[line] ≤ offset ↔ line ≤ source.lineIndex offset := by
  rw [lineIndex]
  obtain ⟨found, hfound, ⟨hlt, hstart⟩, hbrackets⟩ | ⟨place, hfound, -, hbrackets⟩ :=
    findStart_divides (pairwise_starts hsmall) source.starts_size_pos offset
  · rw [hfound]
    constructor
    · intro hle
      by_contra hafter
      exact UInt32.not_lt.mpr hle (hbrackets.after line hline (Nat.not_le.mp hafter))
    · intro hle
      rcases Nat.eq_or_lt_of_le hle with rfl | hbefore
      · exact UInt32.le_of_eq hstart
      · exact UInt32.le_of_lt (hbrackets.before line hline hbefore)
  · rw [hfound]
    -- The first line starts at zero, so no offset has its place before it.
    have hplace : 0 < place := by
      by_contra hzero
      have hfirst := hbrackets.after 0 source.starts_size_pos (Nat.not_lt.mp hzero)
      rw [starts_zero] at hfirst
      exact absurd hfirst (UInt32.not_lt_zero)
    constructor
    · intro hle
      by_contra hafter
      have hafter' : place ≤ line := by dsimp only at hafter; omega
      exact UInt32.not_lt.mpr hle (hbrackets.after line hline hafter')
    · intro hle
      exact UInt32.le_of_lt (hbrackets.before line hline (by dsimp only at hle; omega))

end LintCore.Source
