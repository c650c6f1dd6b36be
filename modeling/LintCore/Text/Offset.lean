/-!
Byte offsets into a text. A text is a list of characters, and each character takes as many bytes as
its UTF-8 form (`Char.utf8Size`). An offset that falls inside a character is no place in the text:
`dropBytes?`, `takeBytes?` and `sliceBytes?` answer `none` there. `sliceBytes_eq_some_iff` says what
a slice is, and `isSome_sliceBytes_iff` where there is one.
-/

set_option autoImplicit false
set_option relaxedAutoImplicit false

namespace LintCore.Text

/-- The number of bytes that the characters take. -/
def byteLength : List Char → Nat
  | [] => 0
  | c :: rest => c.utf8Size + byteLength rest

/-- What follows the first `count` bytes. -/
def dropBytes? : Nat → List Char → Option (List Char)
  | 0, text => some text
  | _ + 1, [] => none
  | count + 1, c :: rest =>
    if c.utf8Size ≤ count + 1 then dropBytes? (count + 1 - c.utf8Size) rest else none

/-- The first `count` bytes. -/
def takeBytes? : Nat → List Char → Option (List Char)
  | 0, _ => some []
  | _ + 1, [] => none
  | count + 1, c :: rest =>
    if c.utf8Size ≤ count + 1 then (takeBytes? (count + 1 - c.utf8Size) rest).map (c :: ·) else none

/-- The characters from byte `start` up to byte `stop`, if both fall between characters. -/
def sliceBytes? (start stop : Nat) (text : List Char) : Option (List Char) :=
  if start ≤ stop then (dropBytes? start text).bind (takeBytes? (stop - start)) else none

/-- Whether a byte offset falls between characters, or at either end. -/
def Boundary (offset : Nat) (text : List Char) : Prop :=
  ∃ front rest, text = front ++ rest ∧ byteLength front = offset

@[simp] theorem dropBytes_zero (text : List Char) : dropBytes? 0 text = some text := by
  cases text <;> rfl

@[simp] theorem takeBytes_zero (text : List Char) : takeBytes? 0 text = some [] := by
  cases text <;> rfl

@[simp] theorem byteLength_append (first second : List Char) :
    byteLength (first ++ second) = byteLength first + byteLength second := by
  induction first with
  | nil => simp [byteLength]
  | cons c rest ih => simp [byteLength, ih, Nat.add_assoc]

theorem dropBytes_append (first second : List Char) :
    dropBytes? (byteLength first) (first ++ second) = some second := by
  induction first with
  | nil => simp [byteLength]
  | cons c rest ih =>
    obtain ⟨count, hcount⟩ : ∃ count, byteLength (c :: rest) = count + 1 :=
      ⟨byteLength (c :: rest) - 1, by
        have := Char.utf8Size_pos c
        simp only [byteLength]
        omega⟩
    have hsize : c.utf8Size ≤ count + 1 := by simp only [byteLength] at hcount; omega
    have hrest : count + 1 - c.utf8Size = byteLength rest := by
      simp only [byteLength] at hcount; omega
    rw [hcount, List.cons_append, dropBytes?, if_pos hsize, hrest, ih]

theorem takeBytes_append (first second : List Char) :
    takeBytes? (byteLength first) (first ++ second) = some first := by
  induction first with
  | nil => simp [byteLength]
  | cons c rest ih =>
    obtain ⟨count, hcount⟩ : ∃ count, byteLength (c :: rest) = count + 1 :=
      ⟨byteLength (c :: rest) - 1, by
        have := Char.utf8Size_pos c
        simp only [byteLength]
        omega⟩
    have hsize : c.utf8Size ≤ count + 1 := by simp only [byteLength] at hcount; omega
    have hrest : count + 1 - c.utf8Size = byteLength rest := by
      simp only [byteLength] at hcount; omega
    rw [hcount, List.cons_append, takeBytes?, if_pos hsize, hrest, ih, Option.map_some]

theorem sliceBytes_append (first middle last : List Char) :
    sliceBytes? (byteLength first) (byteLength (first ++ middle)) (first ++ middle ++ last) =
      some middle := by
  have hstop : byteLength (first ++ middle) - byteLength first = byteLength middle := by
    rw [byteLength_append, Nat.add_sub_cancel_left]
  rw [sliceBytes?, if_pos (by rw [byteLength_append]; exact Nat.le_add_right _ _), hstop,
    List.append_assoc, dropBytes_append, Option.bind_some, takeBytes_append]

/-- Of two front parts of a text, the one with fewer bytes is a front part of the other. -/
theorem append_eq_append_of_byteLength_le {first second first' second' : List Char}
    (htext : first ++ second = first' ++ second') (hlength : byteLength first ≤ byteLength first') :
    ∃ middle, first' = first ++ middle ∧ second = middle ++ second' := by
  rcases List.append_eq_append_iff.mp htext with
    ⟨middle, hfirst, hsecond⟩ | ⟨middle, hfirst, hsecond⟩
  · exact ⟨middle, hfirst, hsecond⟩
  · have hmiddle : middle = [] := by
      cases middle with
      | nil => rfl
      | cons c rest =>
        have := Char.utf8Size_pos c
        rw [hfirst, byteLength_append, byteLength] at hlength
        omega
    subst hmiddle
    exact ⟨[], by simpa using hfirst.symm, by simpa using hsecond.symm⟩

/-- An offset divides a text in one way only. -/
theorem append_inj_of_byteLength_eq {first second first' second' : List Char}
    (htext : first ++ second = first' ++ second') (hlength : byteLength first = byteLength first') :
    first = first' ∧ second = second' := by
  obtain ⟨middle, rfl, rfl⟩ := append_eq_append_of_byteLength_le htext (Nat.le_of_eq hlength)
  obtain ⟨others, hothers, -⟩ :=
    append_eq_append_of_byteLength_le htext.symm (Nat.le_of_eq hlength.symm)
  rw [List.append_assoc] at hothers
  obtain ⟨rfl, -⟩ := List.append_eq_nil_iff.mp (List.self_eq_append_right.mp hothers)
  exact ⟨(List.append_nil _).symm, rfl⟩

theorem exists_of_dropBytes_eq_some {count : Nat} {text rest : List Char}
    (h : dropBytes? count text = some rest) :
    ∃ front, text = front ++ rest ∧ byteLength front = count := by
  induction text generalizing count with
  | nil =>
    cases count with
    | zero => exact ⟨[], Option.some.inj h, rfl⟩
    | succ count => cases h
  | cons c text ih =>
    cases count with
    | zero => exact ⟨[], Option.some.inj h, rfl⟩
    | succ count =>
      rw [dropBytes?, Option.ite_none_right_eq_some] at h
      obtain ⟨hsize, hrest⟩ := h
      obtain ⟨front, rfl, hfront⟩ := ih hrest
      exact ⟨c :: front, rfl, by rw [byteLength, hfront]; omega⟩

theorem exists_of_takeBytes_eq_some {count : Nat} {text front : List Char}
    (h : takeBytes? count text = some front) :
    (∃ rest, text = front ++ rest) ∧ byteLength front = count := by
  induction text generalizing count front with
  | nil =>
    cases count with
    | zero =>
      obtain rfl := Option.some.inj h
      exact ⟨⟨[], rfl⟩, rfl⟩
    | succ count => cases h
  | cons c text ih =>
    cases count with
    | zero =>
      obtain rfl := Option.some.inj h
      exact ⟨⟨c :: text, rfl⟩, rfl⟩
    | succ count =>
      rw [takeBytes?, Option.ite_none_right_eq_some, Option.map_eq_some_iff] at h
      obtain ⟨hsize, front, hfront, rfl⟩ := h
      obtain ⟨⟨rest, rfl⟩, hlength⟩ := ih hfront
      exact ⟨⟨rest, rfl⟩, by rw [byteLength, hlength]; omega⟩

/-- A slice is what stands between its two offsets. -/
theorem sliceBytes_eq_some_iff {start stop : Nat} {text middle : List Char} :
    sliceBytes? start stop text = some middle ↔
      ∃ front rest, text = front ++ middle ++ rest ∧ byteLength front = start ∧
        byteLength (front ++ middle) = stop := by
  constructor
  · intro h
    rw [sliceBytes?, Option.ite_none_right_eq_some, Option.bind_eq_some_iff] at h
    obtain ⟨horder, later, hlater, hmiddle⟩ := h
    obtain ⟨front, rfl, hfront⟩ := exists_of_dropBytes_eq_some hlater
    obtain ⟨⟨rest, rfl⟩, hlength⟩ := exists_of_takeBytes_eq_some hmiddle
    refine ⟨front, rest, (List.append_assoc _ _ _).symm, hfront, ?_⟩
    rw [byteLength_append, hfront, hlength, Nat.add_sub_cancel' horder]
  · rintro ⟨front, rest, rfl, rfl, rfl⟩
    exact sliceBytes_append front middle rest

/-- Two slices, one behind the other, are one slice. -/
theorem sliceBytes_append_sliceBytes {start middle stop : Nat} {text left right : List Char}
    (hleft : sliceBytes? start middle text = some left)
    (hright : sliceBytes? middle stop text = some right) :
    sliceBytes? start stop text = some (left ++ right) := by
  obtain ⟨front, later, htext, hstart, hmiddle⟩ := sliceBytes_eq_some_iff.mp hleft
  obtain ⟨front', rest, htext', hfront', hstop⟩ := sliceBytes_eq_some_iff.mp hright
  rw [List.append_assoc] at htext'
  obtain ⟨rfl, rfl⟩ :=
    append_inj_of_byteLength_eq (htext.symm.trans htext') (hmiddle.trans hfront'.symm)
  refine sliceBytes_eq_some_iff.mpr ⟨front, rest, ?_, hstart, ?_⟩
  · rw [htext', List.append_assoc, List.append_assoc, List.append_assoc]
  · rw [← List.append_assoc]
    exact hstop

/-- There is a slice between two offsets if both fall between characters, and only then. -/
theorem isSome_sliceBytes_iff {start stop : Nat} {text : List Char} (horder : start ≤ stop) :
    (sliceBytes? start stop text).isSome = true ↔ Boundary start text ∧ Boundary stop text := by
  rw [Option.isSome_iff_exists]
  constructor
  · rintro ⟨middle, hmiddle⟩
    obtain ⟨front, rest, rfl, hstart, hstop⟩ := sliceBytes_eq_some_iff.mp hmiddle
    exact ⟨⟨front, middle ++ rest, List.append_assoc _ _ _, hstart⟩, front ++ middle, rest, rfl,
      hstop⟩
  · rintro ⟨⟨front, later, rfl, hstart⟩, head, rest, htext, hstop⟩
    obtain ⟨middle, rfl, rfl⟩ := append_eq_append_of_byteLength_le htext (by omega)
    refine ⟨middle, sliceBytes_eq_some_iff.mpr ⟨front, rest, ?_, hstart, hstop⟩⟩
    rw [List.append_assoc]

end LintCore.Text
