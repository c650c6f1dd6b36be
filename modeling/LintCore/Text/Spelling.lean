/-!
Texts written out in a definition, told apart by their characters. `Spelled` ties a list of such
texts to the lists of their characters, and `nodup_of_spelled` compares one number for each. A text
without control characters is `Printed`.
-/

set_option autoImplicit false
set_option relaxedAutoImplicit false

namespace LintCore.Text

/-- Each text with its characters. -/
inductive Spelled : List String → List (List Char) → Prop
  | nil : Spelled [] []
  | cons {word : List Char} {texts : List String} {words : List (List Char)} :
    Spelled texts words → Spelled (String.ofList word :: texts) (word :: words)

theorem Spelled.eq_map {texts : List String} {words : List (List Char)} (h : Spelled texts words) :
    texts = words.map String.ofList := by
  induction h with
  | nil => rfl
  | cons _ ih => rw [List.map_cons, ← ih]

theorem Spelled.cons_of_eq {text : String} {word : List Char} {texts : List String}
    {words : List (List Char)} (htext : text = String.ofList word) (h : Spelled texts words) :
    Spelled (text :: texts) (word :: words) := by
  rw [htext]
  exact .cons h

/-- A text written out in two parts. -/
theorem append_eq_ofList {first second : String} {word other : List Char}
    (hfirst : first = String.ofList word) (hsecond : second = String.ofList other) :
    first ++ second = String.ofList (word ++ other) := by
  rw [hfirst, hsecond, String.ofList_append]

/-- A test of each item together with the characters of its text. -/
theorem all_of_spelled {α : Type} {items : List α} {text : α → String}
    {test : α → List Char → Bool}
    (h : ∃ words, Spelled (items.map text) words ∧
      (items.zip words).all (fun pair ↦ test pair.1 pair.2) = true) :
    ∀ item ∈ items, test item (text item).toList = true := by
  obtain ⟨words, hspelled, htest⟩ := h
  have hwords : words = items.map fun item ↦ (text item).toList := by
    have htexts := congrArg (List.map String.toList) hspelled.eq_map
    rw [List.map_map, List.map_map] at htexts
    simpa [Function.comp_def] using htexts.symm
  have hpairs : items.zip words = items.map fun item ↦ (item, (text item).toList) := by
    rw [hwords, List.zip_eq_zipWith, List.zipWith_map_right, List.zipWith_self]
  rw [hpairs, List.all_map, List.all_eq_true] at htest
  exact htest

/-- There are no control characters in the text. -/
def Printed (text : String) : Prop := ∀ c ∈ text.toList, 0x20 ≤ c.toNat

theorem printed_iff {text : String} :
    (text.toList.all fun c ↦ 0x20 ≤ c.toNat) = true ↔ Printed text := by
  simp only [Printed, List.all_eq_true, decide_eq_true_eq]

instance : DecidablePred Printed := fun _ ↦ decidable_of_iff _ printed_iff

theorem Printed.not_mem {text : String} {c : Char} (h : Printed text) (hc : c.toNat < 0x20) :
    c ∉ text.toList := fun hmem ↦ Nat.not_le.mpr hc (h c hmem)

/-- A number for a word. -/
def wordKey (word : List Char) : Nat := word.foldl (fun key c ↦ key * 0x110000 + c.toNat) 0

theorem nodup_of_spelled {texts : List String}
    (h : ∃ words, Spelled texts words ∧ (words.map wordKey).Nodup) : texts.Nodup := by
  obtain ⟨words, hspelled, hkeys⟩ := h
  have hwords : words.Nodup :=
    List.Pairwise.of_map wordKey (fun _ _ hne heq ↦ hne (congrArg wordKey heq)) hkeys
  rw [hspelled.eq_map]
  exact List.Pairwise.map String.ofList (fun _ _ hne heq ↦ hne (String.ofList_injective heq)) hwords

end LintCore.Text
