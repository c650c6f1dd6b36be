import LintCore.Json.Printer
import LintCore.Json.Reader
import Mathlib.Data.List.Forall2
import Mathlib.Data.List.Nodup
import Mathlib.Data.List.TakeWhile
import Mathlib.Data.List.Perm.Basic

/-!
# Reading what has been printed

The text of a value without floats, whose integers fit in 64 bits (`Plain`), is read as this value
with the entries of its objects sorted (`parse?_render`): a string comes back character for
character whatever it holds (`string?_print`), and so does an integer (`number?_printInt`). Sorting
only changes the order of entries as long as no key occurs twice (`sortedEntries_perm`).
-/

set_option autoImplicit false
set_option relaxedAutoImplicit false

namespace LintCore.Json

open Text (digitValue natOf signedBound)

/-! ### Strings -/

/-- The unit that an escaped character is read as. -/
def StringUnit.IsFor (unit : StringUnit) (c : Char) : Prop :=
  unit = .plain c ∨ unit = .word c.toNat ∧ c.toNat < 0x20

theorem natIn?_hexDigits : ∀ n < 0x20,
    Text.natIn? 16 ['0', '0', hexDigit (n / 16), hexDigit n] = some n := by
  decide

theorem units?_plain {c : Char} (hquote : c ≠ '"') (hbackslash : c ≠ '\\')
    (hcontrol : ¬c.toNat < 0x20) (rest : List Char) :
    units? (c :: rest) = (units? rest).map fun (units, rest) ↦ (.plain c :: units, rest) := by
  rw [units?]
  · exact if_neg hcontrol
  · exact hquote
  · rintro _ _ _ _ _ rfl
    exact absurd rfl hbackslash
  · rintro _ _ rfl
    exact absurd rfl hbackslash

theorem units?_escaped {letter c : Char} (hletter : unescape? letter = some c) (rest : List Char) :
    units? ('\\' :: letter :: rest) =
      (units? rest).map fun (units, rest) ↦ (.plain c :: units, rest) := by
  rw [units?, hletter]
  · cases units? rest <;> rfl
  · -- The letter of the long escape is not among those of the short ones.
    rintro _ _ _ _ _ rfl
    cases hletter

theorem units?_word {a b d e : Char} {value : Nat}
    (hword : Text.natIn? 16 [a, b, d, e] = some value) (rest : List Char) :
    units? ('\\' :: 'u' :: a :: b :: d :: e :: rest) =
      (units? rest).map fun (units, rest) ↦ (.word value :: units, rest) := by
  rw [units?, word?, hword]
  cases units? rest <;> rfl

theorem exists_unit (c : Char) : ∃ unit : StringUnit, unit.IsFor c ∧ ∀ rest,
    units? (escape c ++ rest) = (units? rest).map fun (units, rest) ↦ (unit :: units, rest) := by
  unfold escape
  split
  case h_8 hquote hbackslash _ _ _ _ _ =>
    split
    · next hcontrol =>
      exact ⟨_, .inr ⟨rfl, hcontrol⟩, units?_word (natIn?_hexDigits c.toNat hcontrol)⟩
    · next hplain => exact ⟨_, .inl rfl, units?_plain hquote hbackslash hplain⟩
  all_goals exact ⟨_, .inl rfl, units?_escaped rfl⟩

theorem exists_units (text : List Char) : ∃ units : List StringUnit,
    List.Forall₂ StringUnit.IsFor units text ∧
      ∀ rest, units? (text.flatMap escape ++ '"' :: rest) = some (units, rest) := by
  induction text with
  | nil => exact ⟨[], .nil, fun rest ↦ by simp [units?]⟩
  | cons c text ih =>
    obtain ⟨unit, hunit, hread⟩ := exists_unit c
    obtain ⟨units, hunits, hrest⟩ := ih
    refine ⟨unit :: units, .cons hunit hunits, fun rest ↦ ?_⟩
    rw [List.flatMap_cons, List.append_assoc, hread, hrest, Option.map_some]

/-- Escapes of control characters are no halves of pairs, so each stands for its own character. -/
theorem join?_eq {units : List StringUnit} {text : List Char}
    (hunits : List.Forall₂ StringUnit.IsFor units text) : join? units = some text := by
  induction hunits with
  | nil => rfl
  | @cons unit c units text hunit hunits ih =>
    rcases hunit with rfl | ⟨rfl, hcontrol⟩
    · rw [join?, ih, Option.map_some]
    · have hhigh : isHighSurrogate c.toNat = false := by simp [isHighSurrogate]; omega
      have hlow : isLowSurrogate c.toNat = false := by simp [isLowSurrogate]; omega
      rw [join?.eq_def]
      split
      · next heq => cases heq
      · next heq => cases heq
      · next heq =>
        cases heq
        rw [hhigh, hlow, ih]
        simp
      · next heq =>
        cases heq
        rw [hhigh, hlow, ih]
        simp

theorem string?_print (text : String) (rest : List Char) :
    string? (text.toList.flatMap escape ++ '"' :: rest) = some (text, rest) := by
  obtain ⟨units, hunits, hread⟩ := exists_units text.toList
  rw [string?, hread rest]
  simp [join?_eq hunits]

/-! ### Integers -/

theorem natOf_toDigits (n : Nat) : natOf (Nat.toDigits 10 n) = n := by
  have hfold := @Nat.ofDigitChars_ten_toDigits n
  rw [Nat.ofDigitChars_eq_foldl] at hfold
  simpa only [natOf, digitValue, Nat.mul_comm] using hfold

theorem head?_toDigits {n : Nat} (hpos : 0 < n) : (Nat.toDigits 10 n).head? ≠ some '0' := by
  induction n using Nat.strongRecOn with
  | ind n ih =>
    by_cases hlt : n < 10
    · rw [Nat.toDigits_of_lt_base hlt, List.head?_cons, Ne, Option.some.injEq,
        Nat.digitChar_eq_zero]
      exact Nat.ne_of_gt hpos
    · have hten : 10 ≤ n := Nat.le_of_not_lt hlt
      rw [Nat.toDigits_of_base_le (by decide) hten,
        List.head?_append_of_ne_nil _ Nat.toDigits_ne_nil]
      exact ih (n / 10) (by omega) (by omega)

theorem splitDigits_toDigits (n : Nat) :
    splitDigits (Nat.toDigits 10 n) = (Nat.toDigits 10 n, []) := by
  have hdigits : ∀ c ∈ Nat.toDigits 10 n, c.isDigit = true := fun c hc ↦
    Nat.isDigit_of_mem_toDigits (by decide) (by decide) hc
  rw [splitDigits, List.takeWhile_eq_self_iff.mpr hdigits, List.dropWhile_eq_nil_iff.mpr hdigits]

theorem unsigned?_toDigits (negative : Bool) (n : Nat) :
    unsigned? negative (Nat.toDigits 10 n) = integerOf? negative (Nat.toDigits 10 n) := by
  have hempty : (Nat.toDigits 10 n).isEmpty = false :=
    List.isEmpty_eq_false_iff.mpr Nat.toDigits_ne_nil
  have hzero : (decide (1 < (Nat.toDigits 10 n).length) &&
      (Nat.toDigits 10 n).head? == some '0') = false := by
    rcases Nat.eq_zero_or_pos n with rfl | hpos
    · rfl
    · rw [beq_eq_false_iff_ne.mpr (head?_toDigits hpos), Bool.and_false]
  rw [unsigned?, splitDigits_toDigits]
  simp only [hempty, hzero, Bool.or_self, Bool.false_eq_true, if_false]

/-- The integers that are read as such. -/
def Fits (value : Int) : Prop := -(signedBound : Int) ≤ value ∧ value < UInt64.size

theorem number?_printInt {value : Int} (hfits : Fits value) :
    number? (printInt value) = some (int value) := by
  obtain ⟨hlow, hhigh⟩ := hfits
  unfold printInt
  split
  · next hneg =>
    have hpos : value.natAbs ≠ 0 := by omega
    have hbound : value.natAbs ≤ signedBound := by omega
    rw [number?, unsigned?_toDigits, integerOf?, natOf_toDigits]
    simp only [if_true, if_neg hpos, if_pos hbound]
    exact congrArg (some ∘ int) (by omega)
  · next hneg =>
    have hbound : value.natAbs < UInt64.size := by omega
    rw [number?.eq_def]
    split
    · next digits heq =>
      have hminus : Char.isDigit '-' = true :=
        Nat.isDigit_of_mem_toDigits (by decide) (by decide) (heq ▸ List.mem_cons_self)
      cases hminus
    · rw [unsigned?_toDigits, integerOf?, natOf_toDigits]
      simp only [Bool.false_eq_true, if_false, if_pos hbound]
      exact congrArg (some ∘ int) (by omega)

theorem isNumberChar_of_mem_printInt {value : Int} {c : Char} (hmem : c ∈ printInt value) :
    isNumberChar c = true := by
  have hdigit : ∀ c ∈ Nat.toDigits 10 value.natAbs, isNumberChar c = true := fun c hc ↦ by
    have := Nat.isDigit_of_mem_toDigits (by decide) (by decide) hc
    simp [isNumberChar, this]
  unfold printInt at hmem
  split at hmem
  · rcases List.mem_cons.mp hmem with rfl | hmem
    · rfl
    · exact hdigit c hmem
  · exact hdigit c hmem

theorem printInt_ne_nil (value : Int) : printInt value ≠ [] := by
  unfold printInt
  split
  · exact List.cons_ne_nil _ _
  · exact Nat.toDigits_ne_nil

/-! ### Values -/

/-- No float occurs in the value, and every integer is one that is read as such. -/
inductive Plain : Json → Prop
  | null : Plain null
  | bool (value : Bool) : Plain (bool value)
  | int {value : Int} (hfits : Fits value) : Plain (int value)
  | str (text : String) : Plain (str text)
  | arr {items : List Json} (hitems : ∀ item ∈ items, Plain item) : Plain (arr items)
  | obj {entries : List (String × Json)} (hentries : ∀ entry ∈ entries, Plain entry.2) :
    Plain (obj entries)

mutual

/-- The value with the entries of its objects as the reader sorts them in. -/
def sorted : Json → Json
  | arr items => arr (sortedItems items)
  | obj entries => obj (sortedEntries [] entries)
  | value => value

def sortedItems : List Json → List Json
  | [] => []
  | item :: items => sorted item :: sortedItems items

/-- Entries sorted in, one after the other, among those before. -/
def sortedEntries : List (String × Json) → List (String × Json) → List (String × Json)
  | before, [] => before
  | before, (key, value) :: entries => sortedEntries (insert key (sorted value) before) entries

end

/-- No number before the text goes on in it. -/
def Stops (rest : List Char) : Prop := ∀ c ∈ rest.head?, isNumberChar c = false

/-- The text of the value is read as `read`, whatever follows it, if the fuel exceeds its length. -/
def ReadsAs (value read : Json) : Prop :=
  ∀ {fuel : Nat} {rest : List Char}, (print value).length < fuel → Stops rest →
    value? fuel (print value ++ rest) = some (read, rest)

theorem skipSpace_cons {c : Char} (hspace : isSpace c = false) (rest : List Char) :
    skipSpace (c :: rest) = c :: rest :=
  List.dropWhile_cons_of_neg (by simp [hspace])

/-- Reading takes some fuel, since no text is empty. -/
theorem readsAs_of_succ {value read : Json}
    (hread : ∀ fuel rest, (print value).length ≤ fuel → Stops rest →
      value? (fuel + 1) (print value ++ rest) = some (read, rest)) : ReadsAs value read := by
  intro fuel rest hfuel hrest
  cases fuel with
  | zero => cases hfuel
  | succ fuel => exact hread fuel rest (Nat.le_of_lt_succ hfuel) hrest

theorem readsAs_null : ReadsAs null null := readsAs_of_succ fun _ _ _ _ ↦ rfl

theorem readsAs_bool (value : Bool) : ReadsAs (bool value) (bool value) :=
  readsAs_of_succ fun _ _ _ _ ↦ by cases value <;> rfl

theorem readsAs_str (text : String) : ReadsAs (str text) (str text) := by
  refine readsAs_of_succ fun fuel rest _ _ ↦ ?_
  rw [print, printString, List.cons_append, List.append_assoc, value?, skipSpace_cons rfl]
  simp [string?_print]

theorem isSpace_of_isNumberChar {c : Char} (hc : isNumberChar c = true) : isSpace c = false := by
  rw [Bool.eq_false_iff]
  intro hspace
  simp only [isSpace, Bool.or_eq_true, beq_iff_eq] at hspace
  rcases hspace with ((rfl | rfl) | rfl) | rfl <;> cases hc

/-- A text that begins like a number is read as one. -/
theorem value?_number {c : Char} (hc : isNumberChar c = true) (fuel : Nat) (text : List Char) :
    value? (fuel + 1) (c :: text) = (number? ((c :: text).takeWhile isNumberChar)).map fun value ↦
      (value, (c :: text).dropWhile isNumberChar) := by
  rw [value?, skipSpace_cons (isSpace_of_isNumberChar hc)]
  split
  all_goals first | rfl | (next heq => cases heq; cases hc)

theorem Stops.takeWhile_append {rest text : List Char} (hrest : Stops rest)
    (htext : ∀ c ∈ text, isNumberChar c = true) : (text ++ rest).takeWhile isNumberChar = text := by
  rw [List.takeWhile_append_of_pos htext]
  cases rest with
  | nil => exact List.append_nil text
  | cons c rest =>
    rw [List.takeWhile_cons_of_neg (by simp [hrest c rfl]), List.append_nil]

theorem Stops.dropWhile_append {rest text : List Char} (hrest : Stops rest)
    (htext : ∀ c ∈ text, isNumberChar c = true) : (text ++ rest).dropWhile isNumberChar = rest := by
  rw [List.dropWhile_append_of_pos htext]
  cases rest with
  | nil => rfl
  | cons c rest => exact List.dropWhile_cons_of_neg (by simp [hrest c rfl])

theorem readsAs_int {value : Int} (hfits : Fits value) : ReadsAs (int value) (int value) := by
  refine readsAs_of_succ fun fuel rest _ hrest ↦ ?_
  have hchars : ∀ c ∈ printInt value, isNumberChar c = true := fun c ↦ isNumberChar_of_mem_printInt
  obtain ⟨c, text, htext⟩ := List.exists_cons_of_ne_nil (printInt_ne_nil value)
  have hc : isNumberChar c = true := hchars c (htext ▸ List.mem_cons_self)
  have hread := value?_number hc fuel (text ++ rest)
  rw [← List.cons_append, ← htext, hrest.takeWhile_append hchars, hrest.dropWhile_append hchars,
    number?_printInt hfits] at hread
  exact hread

/-- The text of a value does not begin like the end of an array. -/
theorem Plain.exists_head {value : Json} (hplain : value.Plain) :
    ∃ c text, print value = c :: text ∧ isSpace c = false ∧ c ≠ ']' := by
  cases hplain with
  | null => exact ⟨_, _, rfl, rfl, by decide⟩
  | bool value => cases value <;> exact ⟨_, _, rfl, rfl, by decide⟩
  | @int value hfits =>
    obtain ⟨c, text, htext⟩ := List.exists_cons_of_ne_nil (printInt_ne_nil value)
    have hc : isNumberChar c = true := isNumberChar_of_mem_printInt (htext ▸ List.mem_cons_self)
    refine ⟨c, text, htext, isSpace_of_isNumberChar hc, ?_⟩
    rintro rfl
    cases hc
  | str text => exact ⟨_, _, rfl, rfl, by decide⟩
  | arr hitems => exact ⟨_, _, rfl, rfl, by decide⟩
  | obj hentries => exact ⟨_, _, rfl, rfl, by decide⟩

theorem printItems_cons_cons (item second : Json) (items : List Json) :
    printItems (item :: second :: items) = print item ++ ',' :: printItems (second :: items) := by
  rw [printItems]
  exact nofun

theorem printEntries_cons_cons (entry second : String × Json) (entries : List (String × Json)) :
    printEntries (entry :: second :: entries) = printString entry.1.toList ++
      ':' :: (print entry.2 ++ ',' :: printEntries (second :: entries)) := by
  rw [printEntries]
  exact nofun

theorem exists_head_printItems {item : Json} (hplain : item.Plain) (items : List Json) :
    ∃ c text, printItems (item :: items) = c :: text ∧ isSpace c = false ∧ c ≠ ']' := by
  obtain ⟨c, text, htext, hc⟩ := hplain.exists_head
  cases items with
  | nil => exact ⟨c, text, htext, hc⟩
  | cons second items =>
    exact ⟨c, _, by rw [printItems_cons_cons, htext, List.cons_append], hc⟩

theorem exists_head_printEntries (entry : String × Json) (entries : List (String × Json)) :
    ∃ text, printEntries (entry :: entries) = '"' :: text := by
  cases entries with
  | nil => exact ⟨_, rfl⟩
  | cons second entries => exact ⟨_, printEntries_cons_cons entry second entries⟩

theorem items?_printItems {items : List Json} (hne : items ≠ [])
    (hitems : ∀ item ∈ items, ReadsAs item item.sorted) {fuel : Nat} {rest : List Char}
    (hfuel : (printItems items).length + 1 < fuel) :
    items? fuel (printItems items ++ ']' :: rest) = some (sortedItems items, rest) := by
  induction items generalizing fuel with
  | nil => exact absurd rfl hne
  | cons item items ih =>
    obtain ⟨hitem, hothers⟩ := List.forall_mem_cons.mp hitems
    cases fuel with
    | zero => cases hfuel
    | succ fuel =>
      cases items with
      | nil =>
        rw [printItems] at hfuel ⊢
        rw [items?, hitem (by omega) (by rintro c ⟨⟩; rfl)]
        rfl
      | cons second items =>
        rw [printItems_cons_cons, List.length_append, List.length_cons] at hfuel
        have hrest : items? fuel (printItems (second :: items) ++ ']' :: rest) =
            some (sortedItems (second :: items), rest) :=
          ih (List.cons_ne_nil _ _) hothers (by omega)
        rw [printItems_cons_cons, List.append_assoc, items?,
          hitem (by omega) (by rintro c ⟨⟩; rfl)]
        simp only [List.cons_append, Option.bind_eq_bind, Option.bind_some,
          skipSpace_cons (c := ',') rfl]
        rw [hrest]
        rfl

theorem entries?_printEntries {entries : List (String × Json)} (hne : entries ≠ [])
    (hentries : ∀ entry ∈ entries, ReadsAs entry.2 entry.2.sorted) {fuel : Nat}
    {before : List (String × Json)} {rest : List Char}
    (hfuel : (printEntries entries).length + 1 < fuel) :
    entries? fuel before (printEntries entries ++ '\x7d' :: rest) =
      some (sortedEntries before entries, rest) := by
  induction entries generalizing fuel before with
  | nil => exact absurd rfl hne
  | cons entry entries ih =>
    obtain ⟨key, value⟩ := entry
    have hvalue : ReadsAs value value.sorted := hentries _ List.mem_cons_self
    have hothers := (List.forall_mem_cons.mp hentries).2
    cases fuel with
    | zero => cases hfuel
    | succ fuel =>
      cases entries with
      | nil =>
        rw [printEntries] at hfuel ⊢
        simp only [List.length_append, List.length_cons] at hfuel
        simp only [printString, List.cons_append, List.append_assoc, List.nil_append]
        rw [entries?, skipSpace_cons rfl]
        simp only [string?_print, Option.bind_eq_bind, Option.bind_some,
          skipSpace_cons (c := ':') rfl]
        rw [hvalue (by omega) (by rintro c ⟨⟩; rfl)]
        rfl
      | cons second entries =>
        rw [printEntries_cons_cons] at hfuel ⊢
        simp only [List.length_append, List.length_cons] at hfuel
        have hrest : entries? fuel (insert key value.sorted before)
            (printEntries (second :: entries) ++ '\x7d' :: rest) =
              some (sortedEntries before ((key, value) :: second :: entries), rest) :=
          ih (List.cons_ne_nil _ _) hothers (by omega)
        simp only [printString, List.cons_append, List.append_assoc, List.nil_append]
        rw [entries?, skipSpace_cons rfl]
        simp only [string?_print, Option.bind_eq_bind, Option.bind_some,
          skipSpace_cons (c := ':') rfl]
        rw [hvalue (by omega) (by rintro c ⟨⟩; rfl)]
        simp only [Option.bind_some, skipSpace_cons (c := ',') rfl]
        exact hrest

theorem readsAs_arr {items : List Json} (hplain : ∀ item ∈ items, Plain item)
    (hitems : ∀ item ∈ items, ReadsAs item item.sorted) :
    ReadsAs (arr items) (arr (sortedItems items)) := by
  refine readsAs_of_succ fun fuel rest hfuel _ ↦ ?_
  rw [print, List.length_cons, List.length_append, List.length_singleton] at hfuel
  rw [print, List.cons_append, List.append_assoc, value?, skipSpace_cons rfl]
  cases items with
  | nil => rfl
  | cons item items =>
    have hread : items? fuel (printItems (item :: items) ++ ']' :: rest) =
        some (sortedItems (item :: items), rest) :=
      items?_printItems (List.cons_ne_nil item items) hitems hfuel
    obtain ⟨c, text, htext, hspace, hend⟩ :=
      exists_head_printItems (hplain item List.mem_cons_self) items
    rw [htext, List.cons_append] at hread
    simp only [htext, List.cons_append, List.nil_append, skipSpace_cons hspace]
    split
    · next heq =>
      cases heq
      exact absurd rfl hend
    · rw [hread]
      rfl

theorem readsAs_obj {entries : List (String × Json)}
    (hentries : ∀ entry ∈ entries, ReadsAs entry.2 entry.2.sorted) :
    ReadsAs (obj entries) (obj (sortedEntries [] entries)) := by
  refine readsAs_of_succ fun fuel rest hfuel _ ↦ ?_
  rw [print, List.length_cons, List.length_append, List.length_singleton] at hfuel
  rw [print, List.cons_append, List.append_assoc, value?, skipSpace_cons rfl]
  cases entries with
  | nil => rfl
  | cons entry entries =>
    have hread : entries? fuel [] (printEntries (entry :: entries) ++ '\x7d' :: rest) =
        some (sortedEntries [] (entry :: entries), rest) :=
      entries?_printEntries (List.cons_ne_nil entry entries) hentries hfuel
    obtain ⟨text, htext⟩ := exists_head_printEntries entry entries
    rw [htext, List.cons_append] at hread
    simp only [htext, List.cons_append, List.nil_append, skipSpace_cons (c := '"') rfl]
    exact congrArg (Option.map fun read ↦ (obj read.1, read.2)) hread

/-- A value without floats is read from its text, its objects sorted. -/
theorem readsAs_sorted {value : Json} (hplain : value.Plain) : ReadsAs value value.sorted := by
  induction hplain with
  | null => exact readsAs_null
  | bool value => exact readsAs_bool value
  | int hfits => exact readsAs_int hfits
  | str text => exact readsAs_str text
  | arr hitems ih => exact readsAs_arr hitems ih
  | obj hentries ih => exact readsAs_obj ih

theorem parse?_render {value : Json} (hplain : value.Plain) :
    parse? value.render = some value.sorted := by
  have hread : value? ((print value).length + 1) (print value ++ []) = some (value.sorted, []) :=
    readsAs_sorted hplain (Nat.lt_succ_self _) nofun
  rw [List.append_nil] at hread
  rw [parse?, render, String.toList_ofList, hread]
  rfl

/-! ### Sorting -/

theorem sortedItems_eq_map (items : List Json) : sortedItems items = items.map sorted := by
  induction items with
  | nil => rfl
  | cons item items ih => rw [sortedItems, List.map_cons, ih]

theorem insert_perm {key : String} (value : Json) {entries : List (String × Json)}
    (hfresh : key ∉ entries.map Prod.fst) :
    (insert key value entries).Perm ((key, value) :: entries) := by
  induction entries with
  | nil => exact .refl _
  | cons entry rest ih =>
    obtain ⟨name, old⟩ := entry
    obtain ⟨hname, hrest⟩ := not_or.mp (mt List.mem_cons.mpr hfresh)
    rw [insert, if_neg hname]
    split
    · exact .refl _
    · exact ((ih hrest).cons (name, old)).trans (.swap _ _ _)

/-- Entries with different keys are all kept. -/
theorem sortedEntries_perm {before entries : List (String × Json)}
    (hnodup : ((before ++ entries).map Prod.fst).Nodup) :
    (sortedEntries before entries).Perm
      (before ++ entries.map fun (key, value) ↦ (key, value.sorted)) := by
  induction entries generalizing before with
  | nil => rw [sortedEntries, List.map_nil, List.append_nil]
  | cons entry rest ih =>
    obtain ⟨key, value⟩ := entry
    rw [sortedEntries, List.map_cons]
    have hfresh : key ∉ before.map Prod.fst := by
      rw [List.map_append, List.map_cons] at hnodup
      exact fun hmem ↦ List.disjoint_of_nodup_append hnodup hmem List.mem_cons_self
    have hmoved (others : List (String × Json)) :
        (insert key value.sorted before ++ others).Perm (before ++ (key, value.sorted) :: others) :=
      ((insert_perm _ hfresh).append_right others).trans List.perm_middle.symm
    have hkeys : ((insert key value.sorted before ++ rest).map Prod.fst).Nodup := by
      rw [((hmoved rest).map Prod.fst).nodup_iff]
      simpa using hnodup
    exact (ih hkeys).trans (hmoved _)

end LintCore.Json
