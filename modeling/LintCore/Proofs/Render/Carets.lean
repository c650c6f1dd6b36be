import LintCore.Proofs.Source.Lines
import LintCore.Render.Terminal

/-!
# Carets under the covered text

The excerpt of a diagnostic quotes the line that its fault starts on. If the fault starts inside the
text of this line, the carets stand under the characters of the quoted line that the fault covers,
up to the end of the line, one caret for each of them (`carets_under_covered`). The columns that the
carets are computed from count bytes, and `underline_eq` is where they become characters: the text
before the fault and the covered text are counted apart, however many bytes their characters take.
-/

set_option autoImplicit false
set_option relaxedAutoImplicit false

namespace LintCore.Terminal

open Text

/-! ### From bytes to characters -/

theorem width_append (first middle last : List Char) :
    width (first ++ middle ++ last) (byteLength first) (byteLength (first ++ middle)) =
      middle.length := by
  rw [width, sliceBytes_append]

/-- A fault that starts behind `front` and covers what follows up to `back`. -/
theorem underline_eq {front covered back : List Char} (hcovered : covered ≠ []) {length : Nat}
    (hlength : min (byteLength front + length) (byteLength (front ++ covered ++ back)) =
      byteLength (front ++ covered)) :
    underline (front ++ covered ++ back) (byteLength front) length =
      (front.length, covered.length) := by
  have hstart : min (byteLength front) (byteLength (front ++ covered ++ back)) =
      byteLength front := by
    rw [List.append_assoc, byteLength_append]
    exact Nat.min_eq_left (Nat.le_add_right _ _)
  have hindent : width (front ++ covered ++ back) 0 (byteLength front) = front.length := by
    rw [List.append_assoc]
    exact width_append [] front (covered ++ back)
  rw [underline, hstart, hlength, hindent, width_append,
    Nat.max_eq_left (List.length_pos_iff.mpr hcovered)]

/-! ### The excerpt -/

theorem excerpt_eq {source : Source} (hsmall : source.content.utf8ByteSize + 2 ≤ UInt32.size)
    {span : Span} (hnonempty : span.start < span.stop)
    {before front covered back : List Char} (hcovered : covered ≠ [])
    (hbefore : byteLength before = (source.lineStart span.start).toNat)
    (hstart : byteLength (before ++ front) = span.start.toNat)
    (hstop : byteLength (before ++ front ++ covered) =
      min span.stop.toNat (byteLength (before ++ (front ++ covered ++ back))))
    (hoffset : span.start.toNat ≤ source.content.utf8ByteSize)
    (hquoted : source.lineText span.start = String.ofList (front ++ covered ++ back)) :
    let number := toString (1 + (source.breaksUpTo span.start.toNat).length)
    let gutter := blanks number.length
    excerpt source span =
      [gutter ++ "--> " ++
          (source.path ++ ":" ++ number ++ ":" ++ toString (1 + byteLength front)),
        gutter ++ " |",
        number ++ " | " ++ String.ofList (front ++ covered ++ back),
        gutter ++ " | " ++ blanks front.length ++ carets covered.length] := by
  intro number gutter
  have hcolumn : (source.position span.start).column.toNat = 1 + byteLength front := by
    rw [Source.toNat_column_position hsmall,
      Source.min_length_of_le (Nat.lt_of_succ_lt hsmall) hoffset, ← hbefore, ← hstart,
      byteLength_append, Nat.add_sub_cancel_left, Nat.add_comm]
  have hlength : min (byteLength front + span.length.toNat)
      (byteLength (front ++ covered ++ back)) = byteLength (front ++ covered) := by
    rw [UInt32.lt_iff_toNat_lt] at hnonempty
    rw [Span.toNat_length]
    simp only [byteLength_append] at hstart hstop ⊢
    omega
  rw [excerpt]
  dsimp only
  rw [Location.render, Source.locate]
  dsimp only
  rw [Source.toNat_line_inside hsmall hoffset, hcolumn, hquoted, String.toList_ofList,
    Nat.add_sub_cancel_left, underline_eq hcovered hlength]

/-- Let the fault start inside the text of a line and not be empty, and let its start, and its stop
or else the end of the line's text, fall between characters. Then the location, the number in the
gutter and the quoted line are those of the line that the fault starts on, which begins behind the
last terminator up to there and ends before the next one. The row under it indents by the
characters of the line before the fault and has one caret for each character that the source has
from the start of the fault to its stop, or to the end of the line's text if that comes first. -/
theorem carets_under_covered (colored : Bool) (source : Source) (diagnostic : Diagnostic)
    (severity : Severity) (hsmall : source.content.utf8ByteSize + 2 ≤ UInt32.size)
    (hnonempty : diagnostic.primary.anchor.start < diagnostic.primary.anchor.stop)
    (hinside : diagnostic.primary.anchor.start.toNat <
      source.textStop diagnostic.primary.anchor.start.toNat)
    (hstart : Boundary diagnostic.primary.anchor.start.toNat source.chars)
    (hstop : Boundary (min diagnostic.primary.anchor.stop.toNat
      (source.textStop diagnostic.primary.anchor.start.toNat)) source.chars) :
    let span := diagnostic.primary.anchor
    let breaks := source.breaksUpTo span.start.toNat
    let number := toString (1 + breaks.length)
    let gutter := blanks number.length
    ∃ before front covered back after : List Char,
      source.chars = before ++ (front ++ covered ++ back) ++ after ∧
      byteLength before = breaks.getLastD 0 ∧
      Plain (front ++ covered ++ back) ∧ (∀ c ∈ after.head?, c = '\n' ∨ c = '\r') ∧
      byteLength (before ++ (front ++ covered ++ back)) = source.textStop span.start.toNat ∧
      byteLength (before ++ front) = span.start.toNat ∧
      byteLength (before ++ front ++ covered) =
        min span.stop.toNat (source.textStop span.start.toNat) ∧
      covered ≠ [] ∧
      render colored source diagnostic severity =
        String.join (([severityLabel colored severity ++ "[" ++ diagnostic.code.text ++ "]: " ++
            diagnostic.primary.format source,
          gutter ++ "--> " ++
            (source.path ++ ":" ++ number ++ ":" ++ toString (1 + byteLength front)),
          gutter ++ " |",
          number ++ " | " ++ String.ofList (front ++ covered ++ back),
          gutter ++ " | " ++ blanks front.length ++ carets covered.length] ++
            diagnostic.notes.flatMap (noteLines colored source gutter)).map (· ++ "\n")) := by
  intro span breaks number gutter
  have hshort := Nat.lt_of_succ_lt hsmall
  obtain ⟨before, front, rest, after, hchars, hplain, hafter, hbefore, hfront, htext, hquoted⟩ :=
    Source.exists_line_divided hshort hinside hstart
  have hoffset : span.start.toNat ≤ source.content.utf8ByteSize := by
    rw [← Source.byteLength_chars, hchars, ← hfront]
    simp only [byteLength_append]
    omega
  have hbreaks : byteLength before = breaks.getLastD 0 := by
    rw [hbefore]
    exact (Source.getLastD_breaksUpTo hshort span.start).symm
  -- The stop is no later than the end of the line's text, so it divides what follows the start.
  obtain ⟨head, tail, hhead, hstop⟩ := hstop
  obtain ⟨covered, back, rfl, rfl⟩ : ∃ covered back, rest = covered ++ back ∧
      head = before ++ front ++ covered := by
    have hstart : byteLength (before ++ front) ≤ byteLength head := by
      rw [UInt32.lt_iff_toNat_lt] at hnonempty
      omega
    have hjoined : before ++ front ++ (rest ++ after) = head ++ tail := by
      rw [← hhead, hchars]
      simp only [List.append_assoc]
    obtain ⟨covered, rfl, hrest⟩ := append_eq_append_of_byteLength_le hjoined hstart
    have hshorter : byteLength covered ≤ byteLength rest := by
      rw [← List.append_assoc] at htext
      rw [byteLength_append (before ++ front)] at htext hstop
      omega
    obtain ⟨back, rfl, -⟩ := append_eq_append_of_byteLength_le hrest.symm hshorter
    exact ⟨covered, back, rfl, rfl⟩
  rw [← List.append_assoc front] at hchars hplain htext hquoted
  have hcovered : covered ≠ [] := by
    rintro rfl
    rw [UInt32.lt_iff_toNat_lt] at hnonempty
    rw [List.append_nil, hfront] at hstop
    omega
  have hexcerpt := excerpt_eq hsmall hnonempty hcovered hbefore hfront (htext ▸ hstop) hoffset
    hquoted
  refine ⟨before, front, covered, back, after, hchars, hbreaks, hplain, hafter, htext, hfront,
    hstop, hcovered, ?_⟩
  have hline : (source.position span.start).line.toNat = 1 + breaks.length :=
    Source.toNat_line_inside hsmall hoffset
  rw [render, lines, hexcerpt, hline]

/-- A line with characters of one to four bytes, between two other lines. -/
def wide : Source := .ofContent "wide.js" "ab\r\n日本😀x = é;\r\nlast"

/-- An undeclared variable behind two wide characters of that line, with a stop on the next line. -/
def undeclaredInWide : Diagnostic :=
  { kind := ⟨⟨156, by decide +kernel⟩⟩, row := (⟨⟨10, 24⟩, "x"⟩, ()) }

theorem wide_carets_under_covered :
    undeclaredInWide.primary.anchor = ⟨10, 24⟩ ∧ wide.content.utf8ByteSize + 2 ≤ UInt32.size ∧
      wide.textStop 10 = 21 ∧ Boundary 10 wide.chars ∧ Boundary 21 wide.chars ∧
      render false wide undeclaredInWide .warning =
        "warning[E057]: " ++ undeclaredInWide.primary.format wide ++ "\n" ++
          " --> wide.js:2:7\n" ++
          "  |\n" ++
          "2 | 日本😀x = é;\n" ++
          "  |   ^^^^^^^\n" := by
  have hanchor : undeclaredInWide.primary.anchor = ⟨10, 24⟩ := by decide +kernel
  have hsmall : wide.content.utf8ByteSize + 2 ≤ UInt32.size := by decide +kernel
  have htext : wide.textStop (10 : UInt32).toNat = 21 := by decide +kernel
  have hbreaks : wide.breaksUpTo (10 : UInt32).toNat = [4] := by decide +kernel
  have hpieces : wide.chars = "ab\r\n".toList ++ ("日本".toList ++ ("😀x = é;".toList ++
      ([] ++ "\r\nlast".toList))) := by decide +kernel
  have hlengths : byteLength "ab\r\n".toList = 4 ∧ byteLength "日本".toList = 6 ∧
      byteLength "😀x = é;".toList = 11 := by decide +kernel
  have hstart : Boundary 10 wide.chars := by
    refine ⟨"ab\r\n".toList ++ "日本".toList, _, by rw [hpieces, List.append_assoc], ?_⟩
    decide +kernel
  have hstop : Boundary 21 wide.chars := by
    refine ⟨"ab\r\n日本😀x = é;".toList, "\r\nlast".toList, ?_, ?_⟩ <;> decide +kernel
  refine ⟨hanchor, hsmall, htext, hstart, hstop, ?_⟩
  have hrows := carets_under_covered false wide undeclaredInWide .warning hsmall
  rw [hanchor] at hrows
  obtain ⟨before, front, covered, back, after, hchars, hbefore, -, -, hline, hindent, hlast, -,
    hrender⟩ := hrows (by decide) (by rw [htext]; decide) hstart (by rw [htext]; exact hstop)
  -- The bytes that each piece takes leave no choice of the pieces.
  dsimp only at hbefore hline hindent hlast hrender
  rw [htext] at hline hlast
  rw [hbreaks] at hbefore hrender
  simp only [hpieces, List.append_assoc, byteLength_append] at hchars hline hindent hlast
  have hconstants : (10 : UInt32).toNat = 10 ∧ (24 : UInt32).toNat = 24 ∧
      [4].getLastD 0 = 4 ∧ byteLength [] = 0 := by decide
  obtain ⟨rfl, hrest⟩ := append_inj_of_byteLength_eq hchars (by omega)
  obtain ⟨rfl, hrest'⟩ := append_inj_of_byteLength_eq hrest (by omega)
  obtain ⟨rfl, hrest''⟩ := append_inj_of_byteLength_eq hrest' (by omega)
  obtain ⟨rfl, -⟩ := append_inj_of_byteLength_eq hrest'' (by omega)
  rw [hrender]
  decide +kernel

end LintCore.Terminal
