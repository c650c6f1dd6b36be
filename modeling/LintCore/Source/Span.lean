/-!
A span is a half-open range of byte offsets in the analysed text. Its two offsets are kept exactly
as given: an inverted span, and one that reaches past the end of the text, are spans too.
-/

set_option autoImplicit false
set_option relaxedAutoImplicit false

namespace LintCore

structure Span where
  start : UInt32
  stop : UInt32
deriving DecidableEq

namespace Span

/-- The empty span at the head of the text. -/
instance : Inhabited Span := ⟨⟨0, 0⟩⟩

/-- From the start of `first` to the end of `last`, whichever of them comes first. -/
def between (first last : Span) : Span := ⟨first.start, last.stop⟩

/-- The least start and the greatest end. -/
def merge (span other : Span) : Span :=
  ⟨min span.start other.start, max span.stop other.stop⟩

/-- The number of bytes covered: none if the span is inverted. -/
def length (span : Span) : UInt32 :=
  if span.start ≤ span.stop then span.stop - span.start else 0

def isEmpty (span : Span) : Bool := decide (span.stop ≤ span.start)

theorem toNat_length (span : Span) : span.length.toNat = span.stop.toNat - span.start.toNat := by
  unfold length
  split
  · next h => exact UInt32.toNat_sub_of_le _ _ h
  · next h => simp only [UInt32.le_iff_toNat_le] at h; simp; omega

theorem start_merge (span other : Span) :
    (span.merge other).start = span.start ∨ (span.merge other).start = other.start := by
  have hmerge : (span.merge other).start =
      if span.start ≤ other.start then span.start else other.start := rfl
  rw [hmerge]
  split
  · exact .inl rfl
  · exact .inr rfl

theorem stop_merge (span other : Span) :
    (span.merge other).stop = span.stop ∨ (span.merge other).stop = other.stop := by
  have hmerge : (span.merge other).stop =
      if span.stop ≤ other.stop then other.stop else span.stop := rfl
  rw [hmerge]
  split
  · exact .inr rfl
  · exact .inl rfl

end Span

end LintCore
