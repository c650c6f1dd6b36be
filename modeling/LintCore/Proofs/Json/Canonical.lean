import LintCore.Proofs.Json.Text

/-!
# Canonical values

In a `Canonical` value the keys of every object ascend, so the reader, which sorts them, changes
nothing: the text of such a value is read as this very value (`parse?_render_canonical`), and two
canonical values with one text are one value (`Canonical.eq_of_render_eq`).

Two statements are about the text itself. That of a value without floats has no control character,
however many of them its strings hold, and so is a single line (`Plain.le_of_mem_print`). That of an
array is put together from those of its items (`render_arr`).
-/

set_option autoImplicit false
set_option relaxedAutoImplicit false

namespace LintCore.Json

/-! ### Ascending keys -/

/-- Plain, and with ascending keys in every object. -/
inductive Canonical : Json → Prop
  | null : Canonical null
  | bool (value : Bool) : Canonical (bool value)
  | int {value : Int} (hfits : Fits value) : Canonical (int value)
  | str (text : String) : Canonical (str text)
  | arr {items : List Json} (hitems : ∀ item ∈ items, Canonical item) : Canonical (arr items)
  | obj {entries : List (String × Json)} (hkeys : (entries.map Prod.fst).Pairwise (· < ·))
    (hentries : ∀ entry ∈ entries, Canonical entry.2) : Canonical (obj entries)

theorem Canonical.plain {value : Json} (h : value.Canonical) : value.Plain := by
  induction h with
  | null => exact .null
  | bool value => exact .bool value
  | int hfits => exact .int hfits
  | str text => exact .str text
  | arr _ ih => exact .arr ih
  | obj _ _ ih => exact .obj ih

/-- An entry whose key is behind all others is inserted last. -/
theorem insert_of_forall_lt {key : String} (value : Json) {entries : List (String × Json)}
    (hlast : ∀ name ∈ entries.map Prod.fst, name < key) :
    insert key value entries = entries ++ [(key, value)] := by
  induction entries with
  | nil => rfl
  | cons entry rest ih =>
    obtain ⟨name, old⟩ := entry
    obtain ⟨hname, hrest⟩ := List.forall_mem_cons.mp hlast
    have hne : key ≠ name := by
      rintro rfl
      exact String.lt_irrefl key hname
    rw [insert, if_neg hne, if_neg (String.lt_asymm hname), ih hrest, List.cons_append]

theorem sortedEntries_of_pairwise {before entries : List (String × Json)}
    (hkeys : ((before ++ entries).map Prod.fst).Pairwise (· < ·)) :
    sortedEntries before entries =
      before ++ entries.map fun (key, value) ↦ (key, value.sorted) := by
  induction entries generalizing before with
  | nil => rw [sortedEntries, List.map_nil, List.append_nil]
  | cons entry rest ih =>
    obtain ⟨key, value⟩ := entry
    have hlast : ∀ name ∈ before.map Prod.fst, name < key := by
      rw [List.map_append, List.pairwise_append] at hkeys
      exact fun name hname ↦ hkeys.2.2 name hname key List.mem_cons_self
    have hinserted := insert_of_forall_lt value.sorted hlast
    have hrest : (((before ++ [(key, value.sorted)]) ++ rest).map Prod.fst).Pairwise (· < ·) := by
      simpa using hkeys
    rw [sortedEntries, hinserted, ih hrest, List.map_cons, List.append_assoc, List.singleton_append]

theorem Canonical.sorted_eq {value : Json} (h : value.Canonical) : value.sorted = value := by
  induction h with
  | null => rfl
  | bool value => rfl
  | int hfits => rfl
  | str text => rfl
  | @arr items hitems ih =>
    have hsame : items.map sorted = items := (List.map_congr_left ih).trans (List.map_id' items)
    rw [sorted, sortedItems_eq_map, hsame]
  | @obj entries hkeys hentries ih =>
    have hentry : ∀ entry ∈ entries, (entry.1, entry.2.sorted) = entry := fun entry hentry ↦
      Prod.ext rfl (ih entry hentry)
    have hsame : entries.map (fun (key, value) ↦ (key, value.sorted)) = entries :=
      (List.map_congr_left hentry).trans (List.map_id' entries)
    have hsorted : sortedEntries [] entries = [] ++ entries.map fun (key, value) ↦
        (key, value.sorted) := sortedEntries_of_pairwise hkeys
    rw [sorted, hsorted, hsame, List.nil_append]

/-- A canonical value is read from its text. -/
theorem parse?_render_canonical {value : Json} (h : value.Canonical) :
    parse? value.render = some value := by
  rw [parse?_render h.plain, h.sorted_eq]

theorem Canonical.eq_of_render_eq {value other : Json} (hvalue : value.Canonical)
    (hother : other.Canonical) (htext : value.render = other.render) : value = other := by
  have hread := parse?_render_canonical hvalue
  rw [htext, parse?_render_canonical hother] at hread
  exact (Option.some.inj hread).symm

/-! ### No control characters -/

theorem le_toNat_hexDigit (n : Nat) : 0x20 ≤ (hexDigit n).toNat := by
  have hdigits : ∀ digit < 16, 0x20 ≤ (Nat.digitChar digit).toNat := by decide
  exact hdigits (n % 16) (Nat.mod_lt n (by decide))

theorem le_of_mem_escape {c written : Char} (hmem : written ∈ escape c) : 0x20 ≤ written.toNat := by
  unfold escape at hmem
  split at hmem
  case h_8 =>
    split at hmem
    · simp only [List.mem_cons, List.not_mem_nil, or_false] at hmem
      rcases hmem with rfl | rfl | rfl | rfl | rfl | rfl
      · decide
      · decide
      · decide
      · decide
      · exact le_toNat_hexDigit _
      · exact le_toNat_hexDigit _
    · next hcontrol =>
      rw [List.mem_singleton.mp hmem]
      exact Nat.le_of_not_lt hcontrol
  all_goals
    rcases List.mem_pair.mp hmem with rfl | rfl <;> decide

theorem le_of_mem_printString {text : List Char} {c : Char} (hmem : c ∈ printString text) :
    0x20 ≤ c.toNat := by
  rcases List.mem_cons.mp hmem with rfl | hmem
  · decide
  rcases List.mem_append.mp hmem with hmem | hmem
  · obtain ⟨source, -, hwritten⟩ := List.mem_flatMap.mp hmem
    exact le_of_mem_escape hwritten
  · rw [List.mem_singleton.mp hmem]
    decide

theorem le_of_isNumberChar {c : Char} (hc : isNumberChar c = true) : 0x20 ≤ c.toNat := by
  simp only [isNumberChar, Bool.or_eq_true, beq_iff_eq, Char.isDigit_iff_toNat] at hc
  rcases hc with ((((hdigit | rfl) | rfl) | rfl) | rfl) | rfl
  · exact Nat.le_trans (by decide) hdigit.1
  all_goals decide

theorem mem_printItems {items : List Json} {c : Char} (hmem : c ∈ printItems items) :
    c = ',' ∨ ∃ item ∈ items, c ∈ print item := by
  induction items with
  | nil => cases hmem
  | cons item rest ih =>
    cases rest with
    | nil =>
      rw [printItems] at hmem
      exact .inr ⟨item, List.mem_cons_self, hmem⟩
    | cons second rest =>
      rw [printItems_cons_cons, List.mem_append, List.mem_cons] at hmem
      rcases hmem with hfirst | hcomma | hlater
      · exact .inr ⟨item, List.mem_cons_self, hfirst⟩
      · exact .inl hcomma
      · rcases ih hlater with hcomma | ⟨other, hother, hc⟩
        · exact .inl hcomma
        · exact .inr ⟨other, List.mem_cons_of_mem item hother, hc⟩

theorem mem_printEntries {entries : List (String × Json)} {c : Char}
    (hmem : c ∈ printEntries entries) :
    c = ',' ∨ c = ':' ∨
      ∃ entry ∈ entries, c ∈ printString entry.1.toList ∨ c ∈ print entry.2 := by
  induction entries with
  | nil => cases hmem
  | cons entry rest ih =>
    cases rest with
    | nil =>
      obtain ⟨key, value⟩ := entry
      rw [printEntries, List.mem_append, List.mem_cons] at hmem
      rcases hmem with hkey | hcolon | hvalue
      · exact .inr (.inr ⟨_, List.mem_cons_self, .inl hkey⟩)
      · exact .inr (.inl hcolon)
      · exact .inr (.inr ⟨_, List.mem_cons_self, .inr hvalue⟩)
    | cons second rest =>
      rw [printEntries_cons_cons, List.mem_append, List.mem_cons, List.mem_append,
        List.mem_cons] at hmem
      rcases hmem with hkey | hcolon | hvalue | hcomma | hlater
      · exact .inr (.inr ⟨_, List.mem_cons_self, .inl hkey⟩)
      · exact .inr (.inl hcolon)
      · exact .inr (.inr ⟨_, List.mem_cons_self, .inr hvalue⟩)
      · exact .inl hcomma
      · rcases ih hlater with hcomma | hcolon | ⟨other, hother, hc⟩
        · exact .inl hcomma
        · exact .inr (.inl hcolon)
        · exact .inr (.inr ⟨other, List.mem_cons_of_mem entry hother, hc⟩)

/-- The text of a value without floats has no control character. -/
theorem Plain.le_of_mem_print {value : Json} (h : value.Plain) :
    ∀ c ∈ print value, 0x20 ≤ c.toNat := by
  induction h with
  | null => simp [print]
  | bool value => cases value <;> simp [print]
  | int hfits => exact fun c hc ↦ le_of_isNumberChar (isNumberChar_of_mem_printInt hc)
  | str text => exact fun c hc ↦ le_of_mem_printString hc
  | arr hitems ih =>
    intro c hc
    rw [print, List.mem_cons, List.mem_append, List.mem_singleton] at hc
    rcases hc with rfl | hc | rfl
    · decide
    · rcases mem_printItems hc with rfl | ⟨item, hitem, hc⟩
      · decide
      · exact ih item hitem c hc
    · decide
  | obj hentries ih =>
    intro c hc
    rw [print, List.mem_cons, List.mem_append, List.mem_singleton] at hc
    rcases hc with rfl | hc | rfl
    · decide
    · rcases mem_printEntries hc with rfl | rfl | ⟨entry, hentry, hkey | hvalue⟩
      · decide
      · decide
      · exact le_of_mem_printString hkey
      · exact ih entry hentry c hvalue
    · decide

/-! ### Arrays -/

theorem printItems_eq_intercalate (items : List Json) :
    printItems items = [','].intercalate (items.map print) := by
  induction items with
  | nil => rfl
  | cons item rest ih =>
    cases rest with
    | nil => rw [printItems, List.map_singleton, List.intercalate_singleton]
    | cons second rest =>
      rw [printItems_cons_cons, ih, List.map_cons, List.map_cons, List.map_cons,
        List.intercalate_cons_cons, List.append_assoc, List.singleton_append]

/-- The text of an array is the texts of its items between brackets, with commas between them. -/
theorem render_arr (items : List Json) :
    render (arr items) = "[" ++ String.intercalate "," (items.map render) ++ "]" := by
  have hitems : (items.map render).map String.toList = items.map print := by
    rw [List.map_map]
    exact List.map_congr_left fun item _ ↦ String.toList_ofList
  apply String.toList_injective
  rw [render, String.toList_ofList, print, String.toList_append, String.toList_append,
    String.toList_intercalate, hitems, printItems_eq_intercalate]
  rfl

end LintCore.Json
