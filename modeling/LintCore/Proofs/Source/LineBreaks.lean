import LintCore.Source.Text
import Mathlib.Data.List.Basic

/-!
# Line terminators in the bytes of a text

`breakEnds` reads bytes from the left and cuts off one line terminator after the other: a carriage
return with the line feed behind it, or one of the two alone. It knows nothing of characters.
`terminatorEnds`, which looks at characters and at the one behind each, finds the same ends in the
UTF-8 form of the text (`terminatorEnds_eq_breakEnds`), as no byte of a longer character is below
128 (`utf8EncodeChar_of_mem`). The ends lie after the start of the bytes, none lies past their end,
and each lies before the next.
-/

set_option autoImplicit false
set_option relaxedAutoImplicit false

namespace LintCore

/-! ### Terminators, byte by byte -/

/-- The offset after each line terminator of bytes that start at `offset`. -/
def breakEnds : Nat → List UInt8 → List Nat
  | _, [] => []
  | offset, 13 :: 10 :: rest => (offset + 2) :: breakEnds (offset + 2) rest
  | offset, byte :: rest =>
    if byte = 10 ∨ byte = 13 then (offset + 1) :: breakEnds (offset + 1) rest
    else breakEnds (offset + 1) rest

/-- Instead of taking two bytes at once, one may look ahead. -/
theorem breakEnds_cons (offset : Nat) (byte : UInt8) (rest : List UInt8) :
    breakEnds offset (byte :: rest) =
      if byte = 10 ∨ (byte = 13 ∧ rest.head? ≠ some 10) then
        (offset + 1) :: breakEnds (offset + 1) rest
      else breakEnds (offset + 1) rest := by
  by_cases hpair : byte = 13 ∧ rest.head? = some 10
  · obtain ⟨rfl, hhead⟩ := hpair
    obtain ⟨tail, rfl⟩ := List.head?_eq_some_iff.mp hhead
    simp [breakEnds]
  · rw [breakEnds]
    · by_cases hreturn : byte = 13
      · simp_all
      · simp [hreturn]
    · rintro tail rfl rfl
      exact hpair ⟨rfl, rfl⟩

theorem breakEnds_bounds {offset : Nat} {bytes : List UInt8} {stop : Nat}
    (hstop : stop ∈ breakEnds offset bytes) : offset < stop ∧ stop ≤ offset + bytes.length := by
  induction bytes generalizing offset with
  | nil => cases hstop
  | cons byte rest ih =>
    rw [breakEnds_cons] at hstop
    rw [List.length_cons]
    split at hstop
    · rcases List.mem_cons.mp hstop with rfl | hlater
      · omega
      · have := ih hlater
        omega
    · have := ih hstop
      omega

theorem pairwise_breakEnds (offset : Nat) (bytes : List UInt8) :
    (breakEnds offset bytes).Pairwise (· < ·) := by
  induction bytes generalizing offset with
  | nil => exact List.Pairwise.nil
  | cons byte rest ih =>
    rw [breakEnds_cons]
    split
    · exact List.pairwise_cons.mpr ⟨fun stop hstop ↦ (breakEnds_bounds hstop).1, ih _⟩
    · exact ih _

theorem length_breakEnds_le (offset : Nat) (bytes : List UInt8) :
    (breakEnds offset bytes).length ≤ bytes.length := by
  induction bytes generalizing offset with
  | nil => exact Nat.le_refl 0
  | cons byte rest ih =>
    rw [breakEnds_cons]
    split
    · exact Nat.succ_le_succ (ih _)
    · exact Nat.le_succ_of_le (ih _)

/-- Bytes that end no line only move the rest along. -/
theorem breakEnds_append_of_forall {offset : Nat} {skipped rest : List UInt8}
    (hskipped : ∀ byte ∈ skipped, byte ≠ 10 ∧ byte ≠ 13) :
    breakEnds offset (skipped ++ rest) = breakEnds (offset + skipped.length) rest := by
  induction skipped generalizing offset with
  | nil => rfl
  | cons byte tail ih =>
    obtain ⟨hfeed, hreturn⟩ := hskipped byte List.mem_cons_self
    rw [List.cons_append, breakEnds_cons, if_neg (by simp [hfeed, hreturn]),
      ih fun other hother ↦ hskipped other (List.mem_cons_of_mem _ hother), List.length_cons]
    congr 1
    omega

/-! ### The UTF-8 form of a character -/

/-- A byte below 128 is the whole of its character. -/
theorem utf8EncodeChar_of_mem {c : Char} {byte : UInt8} (hmem : byte ∈ String.utf8EncodeChar c)
    (hbyte : byte.toNat < 128) : String.utf8EncodeChar c = [byte] ∧ c.toNat = byte.toNat := by
  unfold String.utf8EncodeChar at hmem ⊢
  show _ ∧ c.val.toNat = _
  dsimp only at hmem ⊢
  split at hmem
  · next hsize =>
    rw [if_pos hsize]
    obtain rfl := List.mem_singleton.mp hmem
    exact ⟨rfl, by rw [UInt8.toNat_ofNat']; omega⟩
  · exfalso
    split_ifs at hmem <;> simp only [List.mem_cons, List.not_mem_nil, or_false] at hmem <;>
      rcases hmem with rfl | rfl | rfl | rfl <;> simp only [UInt8.toNat_ofNat'] at hbyte <;> omega

theorem utf8EncodeChar_lineFeed : String.utf8EncodeChar '\n' = [10] := rfl

theorem utf8EncodeChar_carriageReturn : String.utf8EncodeChar '\r' = [13] := rfl

/-- The bytes of other characters end no line. -/
theorem forall_mem_utf8EncodeChar {c : Char} (hfeed : c ≠ '\n') (hreturn : c ≠ '\r') :
    ∀ byte ∈ String.utf8EncodeChar c, byte ≠ 10 ∧ byte ≠ 13 := by
  intro byte hmem
  constructor
  · rintro rfl
    exact hfeed (Char.toNat_inj.mp (utf8EncodeChar_of_mem hmem (by decide)).2)
  · rintro rfl
    exact hreturn (Char.toNat_inj.mp (utf8EncodeChar_of_mem hmem (by decide)).2)

/-- A line feed byte comes first exactly when a line feed does. -/
theorem head?_flatMap_utf8EncodeChar (text : List Char) :
    (text.flatMap String.utf8EncodeChar).head? = some 10 ↔ text.head? = some '\n' := by
  cases text with
  | nil => exact iff_of_false (by simp) (by simp)
  | cons c rest =>
    rw [List.flatMap_cons, List.head?_append_of_ne_nil _ String.utf8EncodeChar_ne_nil]
    constructor
    · intro hhead
      have hmem := utf8EncodeChar_of_mem (List.mem_of_head? hhead) (by decide)
      exact congrArg some (Char.toNat_inj.mp hmem.2)
    · intro hhead
      cases hhead
      rfl

/-! ### Characters and bytes agree -/

theorem length_flatMap_utf8EncodeChar (text : List Char) :
    (text.flatMap String.utf8EncodeChar).length = Text.byteLength text := by
  induction text with
  | nil => rfl
  | cons c rest ih =>
    rw [List.flatMap_cons, List.length_append, String.length_utf8EncodeChar, ih, Text.byteLength]

theorem Text.byteLength_toList (text : String) : byteLength text.toList = text.utf8ByteSize := by
  rw [← length_flatMap_utf8EncodeChar, ← String.size_toByteArray, ← String.utf8Encode_toList,
    List.utf8Encode, List.size_toByteArray]

theorem terminatorEnds_eq_breakEnds (offset : Nat) (text : List Char) :
    terminatorEnds offset text = breakEnds offset (text.flatMap String.utf8EncodeChar) := by
  induction text generalizing offset with
  | nil => rfl
  | cons c rest ih =>
    rw [List.flatMap_cons, terminatorEnds]
    by_cases hfeed : c = '\n'
    · subst hfeed
      rw [utf8EncodeChar_lineFeed, List.singleton_append, breakEnds_cons, if_pos (Or.inl rfl), ← ih]
      rfl
    by_cases hreturn : c = '\r'
    · subst hreturn
      have hends : endsLine '\r' rest = true ↔ rest.head? ≠ some '\n' := by simp [endsLine]
      have hbytes := head?_flatMap_utf8EncodeChar rest
      rw [utf8EncodeChar_carriageReturn, List.singleton_append, breakEnds_cons, ← ih]
      by_cases hhead : rest.head? = some '\n'
      · rw [if_neg (by rw [hends]; exact not_not_intro hhead),
          if_neg (by simp [hbytes.mpr hhead])]
        rfl
      · rw [if_pos (hends.mpr hhead), if_pos (Or.inr ⟨rfl, hhead ∘ hbytes.mp⟩)]
        rfl
    · rw [breakEnds_append_of_forall (forall_mem_utf8EncodeChar hfeed hreturn),
        String.length_utf8EncodeChar, ← ih, if_neg]
      simp [endsLine, hfeed, hreturn]

end LintCore
