import LintCore.Proofs.Render.Carets

/-!
# Where the carets end

The carets of a fault should begin on its line and not reach past its end, where one caret may stand
behind the line (`WithinLine`). For a fault whose offsets, cut off at the end of the line, fall
between characters they do: they are laid out in characters, one for each that is covered. An
offset inside a character is no place in the text, and then bytes are counted instead. A line has at
least as many bytes as characters, so such carets can begin too far to the right, and there can be
too many of them. `underline_within_iff` says for all lines and offsets exactly when they stay on
the line, and `carets_overrun_line` is a fault whose carets do not.
-/

set_option autoImplicit false
set_option relaxedAutoImplicit false

namespace LintCore.Terminal

open Text

/-- Carets that begin on a line or right behind it, and end with it unless there is one alone. -/
structure WithinLine (line : List Char) (indent count : Nat) : Prop where
  count_pos : 0 < count
  indent_le : indent ≤ line.length
  end_le : indent + count ≤ max line.length (indent + 1)

/-! ### What is counted -/

section

variable {line : List Char} {start stop : Nat}

/-- Between two places of the text, characters are counted. -/
theorem width_of_slice {front middle rest : List Char} (hline : line = front ++ middle ++ rest)
    (hstart : byteLength front = start) (hstop : byteLength (front ++ middle) = stop) :
    width line start stop = middle.length := by
  rw [hline, ← hstart, ← hstop, width_append]

/-- So they are before a place of the text. -/
theorem width_of_front {front rest : List Char} (hline : line = front ++ rest)
    (hstart : byteLength front = start) : width line 0 start = front.length := by
  have hslice : line = [] ++ front ++ rest := hline
  exact width_of_slice hslice rfl hstart

/-- From an offset inside a character, or to one, bytes are counted. -/
theorem width_of_not_boundary (horder : start ≤ stop)
    (hsplit : ¬ (Boundary start line ∧ Boundary stop line)) :
    width line start stop = stop - start := by
  have hnone : sliceBytes? start stop line = none := by
    rw [← Option.not_isSome_iff_eq_none, isSome_sliceBytes_iff horder]
    exact hsplit
  rw [width, hnone]

/-- Two places of a text divide it in three. -/
theorem exists_slice (horder : start ≤ stop) (hstart : Boundary start line)
    (hstop : Boundary stop line) :
    ∃ front middle rest, line = front ++ middle ++ rest ∧ byteLength front = start ∧
      byteLength (front ++ middle) = stop := by
  obtain ⟨middle, hmiddle⟩ :=
    Option.isSome_iff_exists.mp ((isSome_sliceBytes_iff horder).mpr ⟨hstart, hstop⟩)
  obtain ⟨front, rest, hslice⟩ := sliceBytes_eq_some_iff.mp hmiddle
  exact ⟨front, middle, rest, hslice⟩

/-! ### Indent and end -/

theorem indent_le_iff :
    width line 0 start ≤ line.length ↔ Boundary start line ∨ start ≤ line.length := by
  by_cases hstart : Boundary start line
  · obtain ⟨front, rest, hline, hfront⟩ := hstart
    refine iff_of_true ?_ (.inl ⟨front, rest, hline, hfront⟩)
    rw [width_of_front hline hfront, hline, List.length_append]
    exact Nat.le_add_right _ _
  · have hindent : width line 0 start = start :=
      width_of_not_boundary (Nat.zero_le start) fun hboth ↦ hstart hboth.2
    rw [hindent]
    exact (or_iff_right hstart).symm

theorem end_le_iff (horder : start ≤ stop) :
    width line 0 start + max (width line start stop) 1 ≤
        max line.length (width line 0 start + 1) ↔
      Boundary start line ∧ Boundary stop line ∨ stop ≤ start + 1 ∨
        width line 0 start + (stop - start) ≤ line.length := by
  by_cases hboth : Boundary start line ∧ Boundary stop line
  · obtain ⟨front, middle, rest, hline, hfront, hmiddle⟩ :=
      exists_slice horder hboth.1 hboth.2
    have hindent : width line 0 start = front.length :=
      width_of_front (hline.trans (List.append_assoc _ _ _)) hfront
    have hcount : width line start stop = middle.length := width_of_slice hline hfront hmiddle
    have hlength : line.length = front.length + middle.length + rest.length := by
      rw [hline, List.length_append, List.length_append]
    refine iff_of_true ?_ (.inl hboth)
    omega
  · have hcount : width line start stop = stop - start := width_of_not_boundary horder hboth
    rw [or_iff_right hboth]
    omega

end

/-! ### All offsets -/

/-- Whatever a fault covers, there is at least one caret. If both offsets of the fault, cut off at
the end of the line, fall between characters, the carets are indented by as many characters as
stand before the fault and are as many as it covers. The carets stay on the line if two things
hold, and not otherwise: the start falls between characters, or has no more bytes before it than
the line has characters; and both offsets fall between characters, or no more than one byte is
covered, or the indent and the bytes covered are together no more than the characters of the
line. -/
theorem underline_within_iff (line : List Char) (column length : Nat) :
    let start := min column (byteLength line)
    let stop := min (start + length) (byteLength line)
    let indent := (underline line column length).1
    let count := (underline line column length).2
    0 < count ∧
      (∀ front covered back, line = front ++ covered ++ back → byteLength front = start →
        byteLength (front ++ covered) = stop →
        indent = front.length ∧ count = max covered.length 1) ∧
      (WithinLine line indent count ↔
        (Boundary start line ∨ start ≤ line.length) ∧
        (Boundary start line ∧ Boundary stop line ∨ stop ≤ start + 1 ∨
          indent + (stop - start) ≤ line.length)) := by
  intro start stop indent count
  have horder : start ≤ stop := Nat.le_min.mpr ⟨Nat.le_add_right _ _, Nat.min_le_right _ _⟩
  have hindent : indent = width line 0 start := rfl
  have hcount : count = max (width line start stop) 1 := rfl
  have hpos : 0 < count := Nat.le_max_right _ _
  refine ⟨hpos, fun front covered back hline hfront hcovered ↦ ?_, ?_⟩
  · rw [hindent, hcount, width_of_slice hline hfront hcovered]
    exact ⟨width_of_front (hline.trans (List.append_assoc _ _ _)) hfront, rfl⟩
  · rw [hindent, hcount, ← indent_le_iff, ← end_le_iff horder]
    exact ⟨fun h ↦ ⟨h.indent_le, h.end_le⟩, fun h ↦ ⟨hpos, h.1, h.2⟩⟩

/-- Two characters of two bytes each. -/
def accented : Source := .ofContent "app.js" "éé"

/-- An undeclared variable that ends inside the second of them. -/
def undeclaredInAccented : Diagnostic :=
  { kind := undeclaredInWide.kind, row := (⟨⟨0, 3⟩, "x"⟩, ()) }

/-- Three bytes are covered, so a line of two characters gets three carets. -/
theorem carets_overrun_line :
    ¬ WithinLine "éé".toList (underline "éé".toList 0 3).1 (underline "éé".toList 0 3).2 ∧
    render false accented undeclaredInAccented .warning =
      "warning[E057]: use of undeclared variable: x\n --> app.js:1:1\n  |\n1 | éé\n  | ^^^\n" := by
  have hcarets : underline "éé".toList 0 3 = (0, 3) := by decide +kernel
  refine ⟨fun hwithin ↦ ?_, by decide +kernel⟩
  rw [hcarets] at hwithin
  exact absurd hwithin.end_le (by decide +kernel)

end LintCore.Terminal
