import LintCore.Proofs.Source.LineTable

/-!
# Snippets

A span covers the bytes from its start to its stop, both cut off at the end of the text
(`Source.startWithin`, `Source.stopWithin`). If these are positions in the text, it covers exactly
the bytes between them (`Source.toByteArray_snippet`), and if one of them splits a character it
covers nothing (`Source.snippet_eq_empty`). Offsets that come in order are cut off one by one
(`Source.startWithin_of_le`), so two spans that meet at an offset which splits no character cover
together what the span over both covers, also behind the end of the text
(`Source.snippet_append_snippet`). `Source.snippets_exact_and_additive` says this of every text and
of all offsets.
-/

set_option autoImplicit false
set_option relaxedAutoImplicit false

namespace LintCore

open Text

/-- A slice has the bytes between its two offsets. -/
theorem Text.toByteArray_of_slice {start stop : Nat} {text : String} {middle : List Char}
    (h : sliceBytes? start stop text.toList = some middle) :
    (String.ofList middle).toByteArray = text.toByteArray.extract start stop := by
  obtain ⟨front, rest, htext, rfl, rfl⟩ := sliceBytes_eq_some_iff.mp h
  have hbytes (part : List Char) : (String.ofList part).toByteArray.size = byteLength part := by
    rw [String.size_toByteArray, ← byteLength_toList, String.toList_ofList]
  calc (String.ofList middle).toByteArray
      = ((String.ofList middle).toByteArray ++ (String.ofList rest).toByteArray).extract 0
          (byteLength middle) := (ByteArray.extract_append_eq_left (hbytes middle).symm).symm
    _ = ((String.ofList front).toByteArray ++ ((String.ofList middle).toByteArray ++
          (String.ofList rest).toByteArray)).extract (byteLength front + 0)
            (byteLength front + byteLength middle) :=
        (ByteArray.extract_append_size_add' (hbytes front).symm).symm
    _ = text.toByteArray.extract (byteLength front) (byteLength (front ++ middle)) := by
        rw [← String.toByteArray_append, ← String.toByteArray_append, ← String.ofList_append,
          ← String.ofList_append, ← List.append_assoc, ← htext, String.ofList_toList,
          byteLength_append, Nat.add_zero]

namespace Source

variable {source : Source}

/-! ### Positions in a text -/

/-- A place between characters is what the library calls a valid position. -/
theorem boundary_iff_isValid {offset : Nat} :
    Boundary offset source.chars ↔ (⟨offset⟩ : String.Pos.Raw).IsValid source.content := by
  rw [String.Pos.Raw.isValid_iff_exists_append]
  constructor
  · rintro ⟨front, rest, hchars, rfl⟩
    refine ⟨.ofList front, .ofList rest, ?_, ?_⟩
    · rw [← String.ofList_append, ← hchars, chars, String.ofList_toList]
    · rw [String.Pos.Raw.ext_iff, String.byteIdx_rawEndPos, ← byteLength_toList,
        String.toList_ofList]
  · rintro ⟨front, rest, hcontent, hoffset⟩
    refine ⟨front.toList, rest.toList, ?_, ?_⟩
    · rw [chars, hcontent, String.toList_append]
    · rw [byteLength_toList]
      exact (congrArg String.Pos.Raw.byteIdx hoffset).symm

/-- An offset that splits no character: a position in the text, or one behind it. -/
def SplitsNone (source : Source) (offset : UInt32) : Prop :=
  (⟨offset.toNat⟩ : String.Pos.Raw).IsValid source.content ∨
    source.content.utf8ByteSize < offset.toNat

/-- Cut off at the end of the text, such an offset is a position in the text. -/
theorem SplitsNone.isValid {offset : UInt32} (h : source.SplitsNone offset) :
    (⟨min offset.toNat source.content.utf8ByteSize⟩ : String.Pos.Raw).IsValid source.content := by
  rcases h with hvalid | hbehind
  · have hle : offset.toNat ≤ source.content.utf8ByteSize :=
      String.Pos.Raw.le_iff.mp hvalid.le_rawEndPos
    rwa [Nat.min_eq_left hle]
  · rw [Nat.min_eq_right (Nat.le_of_lt hbehind)]
    exact String.Pos.Raw.isValid_rawEndPos

/-! ### What a span covers -/

/-- Where what a span covers ends. -/
def stopWithin (source : Source) (span : Span) : Nat :=
  min span.stop.toNat source.content.utf8ByteSize

/-- Where what a span covers starts. -/
def startWithin (source : Source) (span : Span) : Nat :=
  min span.start.toNat (source.stopWithin span)

/-- Neither end of what a span covers splits a character. -/
def EndsAtPositions (source : Source) (span : Span) : Prop :=
  (⟨source.startWithin span⟩ : String.Pos.Raw).IsValid source.content ∧
    (⟨source.stopWithin span⟩ : String.Pos.Raw).IsValid source.content

theorem startWithin_le (span : Span) : source.startWithin span ≤ source.stopWithin span :=
  Nat.min_le_right _ _

theorem snippet_eq (span : Span) :
    source.snippet span = String.ofList
      ((sliceBytes? (source.startWithin span) (source.stopWithin span) source.chars).getD []) := by
  rw [snippet, byteLength_chars]
  rfl

theorem isSome_slice_iff (span : Span) :
    (sliceBytes? (source.startWithin span) (source.stopWithin span) source.chars).isSome = true ↔
      source.EndsAtPositions span := by
  rw [isSome_sliceBytes_iff (startWithin_le span), boundary_iff_isValid, boundary_iff_isValid,
    EndsAtPositions]

/-- Between two positions, a span covers the bytes from the one to the other. -/
theorem toByteArray_snippet {span : Span} (hends : source.EndsAtPositions span) :
    (source.snippet span).toByteArray =
      source.content.toByteArray.extract (source.startWithin span) (source.stopWithin span) := by
  obtain ⟨covered, hcovered⟩ := Option.isSome_iff_exists.mp ((isSome_slice_iff span).mpr hends)
  rw [snippet_eq, hcovered, Option.getD_some]
  exact toByteArray_of_slice hcovered

theorem snippet_eq_empty {span : Span} (hsplit : ¬ source.EndsAtPositions span) :
    source.snippet span = "" := by
  rw [← isSome_slice_iff, Option.not_isSome_iff_eq_none] at hsplit
  rw [snippet_eq, hsplit]
  rfl

/-- Whatever a span covers stands in the text. -/
theorem exists_around_snippet (span : Span) :
    ∃ front rest, source.content = front ++ source.snippet span ++ rest := by
  rw [snippet_eq]
  cases hslice : sliceBytes? (source.startWithin span) (source.stopWithin span) source.chars with
  | none => exact ⟨source.content, "", by simp⟩
  | some covered =>
    obtain ⟨front, rest, hchars, -, -⟩ := sliceBytes_eq_some_iff.mp hslice
    refine ⟨.ofList front, .ofList rest, ?_⟩
    rw [Option.getD_some, ← String.ofList_append, ← String.ofList_append, ← hchars, chars,
      String.ofList_toList]

/-- A span covers no more bytes than it has. -/
theorem utf8ByteSize_snippet_le (span : Span) :
    (source.snippet span).utf8ByteSize ≤ span.length.toNat := by
  by_cases hends : source.EndsAtPositions span
  · rw [← String.size_toByteArray, toByteArray_snippet hends, ByteArray.size_extract,
      String.size_toByteArray, Span.toNat_length]
    unfold startWithin stopWithin
    omega
  · rw [snippet_eq_empty hends]
    exact Nat.zero_le _

/-! ### Spans that meet -/

/-- If the stop of a span is not before its start, each is cut off by itself. -/
theorem startWithin_of_le {start stop : UInt32} (horder : start ≤ stop) :
    source.startWithin ⟨start, stop⟩ = min start.toNat source.content.utf8ByteSize := by
  rw [UInt32.le_iff_toNat_le] at horder
  show min start.toNat (min stop.toNat source.content.utf8ByteSize) = _
  omega

/-- Between two offsets that split no character there is a slice, and the span covers it. -/
theorem exists_slice_of_splitsNone {start stop : UInt32} (horder : start ≤ stop)
    (hstart : source.SplitsNone start) (hstop : source.SplitsNone stop) :
    ∃ covered, sliceBytes? (min start.toNat source.content.utf8ByteSize)
        (min stop.toNat source.content.utf8ByteSize) source.chars = some covered ∧
      source.snippet ⟨start, stop⟩ = String.ofList covered := by
  rw [snippet_eq, ← startWithin_of_le horder]
  have hends : source.EndsAtPositions ⟨start, stop⟩ :=
    ⟨startWithin_of_le horder ▸ hstart.isValid, hstop.isValid⟩
  obtain ⟨covered, hcovered⟩ := Option.isSome_iff_exists.mp ((isSome_slice_iff _).mpr hends)
  exact ⟨covered, hcovered, by rw [hcovered, Option.getD_some]⟩

theorem snippet_append_snippet {first middle last : UInt32} (hearlier : first ≤ middle)
    (hlater : middle ≤ last) (hfirst : source.SplitsNone first) (hmiddle : source.SplitsNone middle)
    (hlast : source.SplitsNone last) :
    source.snippet ⟨first, middle⟩ ++ source.snippet ⟨middle, last⟩ =
      source.snippet ⟨first, last⟩ := by
  obtain ⟨left, hleft, hcoveredLeft⟩ := exists_slice_of_splitsNone hearlier hfirst hmiddle
  obtain ⟨right, hright, hcoveredRight⟩ := exists_slice_of_splitsNone hlater hmiddle hlast
  obtain ⟨all, hall, hcoveredAll⟩ :=
    exists_slice_of_splitsNone (UInt32.le_trans hearlier hlater) hfirst hlast
  rw [sliceBytes_append_sliceBytes hleft hright] at hall
  rw [hcoveredLeft, hcoveredRight, hcoveredAll, ← Option.some.inj hall, String.ofList_append]

/-- The span of all offsets covers the whole text if the offsets reach its end. -/
theorem snippet_all_eq_iff :
    source.snippet ⟨0, 4294967295⟩ = source.content ↔
      source.content.utf8ByteSize < UInt32.size := by
  constructor
  · intro hall
    have hle := source.utf8ByteSize_snippet_le ⟨0, 4294967295⟩
    rw [hall] at hle
    exact Nat.lt_of_le_of_lt hle (by decide)
  · intro hsmall
    have hstop : source.stopWithin ⟨0, 4294967295⟩ = source.content.utf8ByteSize :=
      Nat.min_eq_right (Nat.le_of_lt_succ hsmall)
    have hstart : source.startWithin ⟨0, 4294967295⟩ = 0 := Nat.zero_min _
    have hends : source.EndsAtPositions ⟨0, 4294967295⟩ :=
      ⟨hstart ▸ String.Pos.Raw.isValid_zero, hstop ▸ String.Pos.Raw.isValid_rawEndPos⟩
    have hbytes := toByteArray_snippet hends
    rw [hstart, hstop, ← String.size_toByteArray, ByteArray.extract_zero_size] at hbytes
    exact String.toByteArray_inj.mp hbytes

/-- Every span covers a piece of the text, of no more bytes than the span has: those from its start
to its stop, both cut off at the end of the text, if these are positions in the text, and none if
one of them splits a character. If three offsets come in order, and each is a position in the text
or lies behind it, then what is covered up to the second and what is covered from there on are
together what is covered from the first to the last. The span of all offsets covers the whole text
as long as the offsets reach its end. -/
theorem snippets_exact_and_additive (source : Source) :
    let size := source.content.utf8ByteSize
    (∀ span : Span,
      let stop := min span.stop.toNat size
      let start := min span.start.toNat stop
      let positions := (⟨start⟩ : String.Pos.Raw).IsValid source.content ∧
        (⟨stop⟩ : String.Pos.Raw).IsValid source.content
      (∃ front rest, source.content = front ++ source.snippet span ++ rest) ∧
        (source.snippet span).utf8ByteSize ≤ span.length.toNat ∧
        (positions → (source.snippet span).toByteArray =
          source.content.toByteArray.extract start stop) ∧
        (¬ positions → source.snippet span = "")) ∧
      (∀ first middle last : UInt32, first ≤ middle → middle ≤ last →
        source.SplitsNone first → source.SplitsNone middle → source.SplitsNone last →
        source.snippet ⟨first, middle⟩ ++ source.snippet ⟨middle, last⟩ =
          source.snippet ⟨first, last⟩) ∧
      (source.snippet ⟨0, 4294967295⟩ = source.content ↔ size < UInt32.size) := by
  intro size
  refine ⟨fun span ↦ ?_, fun first middle last ↦ snippet_append_snippet, snippet_all_eq_iff⟩
  exact ⟨exists_around_snippet span, utf8ByteSize_snippet_le span, toByteArray_snippet,
    snippet_eq_empty⟩

/-- A character of two bytes, at the bytes 4 and 5 of seven. -/
def assigned : Source := .ofContent "assigned" "x = é;"

/-- The character is covered whole or not at all, and what is covered up to it and from it on are
together the text, also if the second span begins or ends behind the text. -/
theorem assigned_snippets :
    assigned.snippet ⟨4, 6⟩ = "é" ∧ assigned.snippet ⟨4, 5⟩ = "" ∧
      (assigned.SplitsNone 4 ∧ assigned.SplitsNone 500) ∧
      assigned.snippet ⟨0, 4⟩ ++ assigned.snippet ⟨4, 500⟩ = assigned.snippet ⟨0, 500⟩ ∧
      assigned.snippet ⟨4, 500⟩ ++ assigned.snippet ⟨500, 600⟩ = assigned.snippet ⟨4, 600⟩ ∧
      assigned.snippet ⟨0, 4294967295⟩ = "x = é;" := by
  obtain ⟨hcovered, hadditive, hall⟩ := snippets_exact_and_additive assigned
  obtain ⟨-, -, hwhole, -⟩ := hcovered ⟨4, 6⟩
  obtain ⟨-, -, -, hsplit⟩ := hcovered ⟨4, 5⟩
  have hstart : assigned.SplitsNone 0 := .inl (by decide +kernel)
  have hfourth : assigned.SplitsNone 4 := .inl (by decide +kernel)
  have hbehind : assigned.SplitsNone 500 := .inr (by decide +kernel)
  refine ⟨?_, hsplit (by decide +kernel), ⟨hfourth, hbehind⟩, ?_, ?_, hall.mpr (by decide +kernel)⟩
  · exact String.toByteArray_inj.mp ((hwhole (by decide +kernel)).trans (by decide +kernel))
  · exact hadditive 0 4 500 (by decide) (by decide) hstart hfourth hbehind
  · exact hadditive 4 500 600 (by decide) (by decide) hfourth hbehind (.inr (by decide +kernel))

end Source

end LintCore
