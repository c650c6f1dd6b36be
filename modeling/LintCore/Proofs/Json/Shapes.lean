import LintCore.Proofs.Json.Records

/-!
# The shapes of values that are read

What a decoder accepts is described here without it. A record has the shape of its fields if it is
an object that has a value of the right sort under each of their keys, whatever else it has, or the
array of just as many values of the right sorts (`Json.Shaped`). Reading a record is told in these
terms for the values that are read (`record_eq_ok_iff_shaped`), and whether there are such values is
up to each field by itself (`exists_row_shaped_iff`). An offset is an integer of 32 bits and is read
as this integer (`offset_eq_ok_iff`); a choice is a name, or an object that gives the name a null
(`oneOf_eq_ok_iff`).
-/

set_option autoImplicit false
set_option relaxedAutoImplicit false

universe u

namespace LintCore.Json

open Shape

/-! ### Single values -/

/-- An integer of 32 bits without sign. -/
def IsOffset (value : Json) : Prop :=
  ∃ number : Int, value = int number ∧ 0 ≤ number ∧ number < UInt32.size

def IsText (value : Json) : Prop := ∃ text, value = str text

/-- A name alone, or an object with nothing but a null under the name. -/
def IsName (name : String) (value : Json) : Prop := value = str name ∨ value = obj [(name, null)]

theorem natBelow_eq_ok_iff {bound number : Nat} {expected : Expected} {value : Json} :
    natBelow bound expected value = .ok number ↔ value = int number ∧ number < bound := by
  cases value with
  | int value =>
    rw [natBelow, int.injEq]
    split_ifs with hrange
    · rw [Except.ok.injEq]
      omega
    · refine iff_of_false nofun ?_
      omega
  | _ => exact iff_of_false nofun fun h ↦ nomatch h.1

/-- An offset is read from just its number. -/
theorem offset_eq_ok_iff {value : Json} {word : UInt32} :
    offset value = .ok word ↔ value = int word.toNat := by
  rw [offset, map_eq_ok_iff]
  simp only [natBelow_eq_ok_iff]
  constructor
  · rintro ⟨number, ⟨rfl, hnumber⟩, rfl⟩
    rw [UInt32.toNat_ofNat_of_lt' hnumber]
  · rintro rfl
    exact ⟨word.toNat, ⟨rfl, word.toNat_lt⟩, UInt32.ofNat_toNat⟩

theorem isOffset_iff {value : Json} : value.IsOffset ↔ ∃ word : UInt32, value = int word.toNat := by
  constructor
  · rintro ⟨number, rfl, hnonneg, hbound⟩
    refine ⟨.ofNat number.toNat, ?_⟩
    have hsmall : number.toNat < UInt32.size := by omega
    rw [UInt32.toNat_ofNat_of_lt' hsmall, Int.toNat_of_nonneg hnonneg]
  · rintro ⟨word, rfl⟩
    exact ⟨word.toNat, rfl, Int.natCast_nonneg _, Int.ofNat_lt.mpr word.toNat_lt⟩

theorem text_eq_ok_iff {value : Json} {word : String} :
    text value = .ok word ↔ value = str word := by
  cases value with
  | str value => rw [text, Except.ok.injEq, str.injEq]
  | _ => exact iff_of_false nofun nofun

theorem character_eq_ok_iff {value : Json} {c : Char} :
    character value = .ok c ↔ value = str (String.singleton c) := by
  cases value with
  | str value =>
    have hsingle : value.toList = [c] ↔ value = String.singleton c := by
      rw [← String.toList_inj, String.toList_singleton]
    rw [str.injEq, ← hsingle, character]
    split
    · next hchar => rw [Except.ok.injEq, hchar, List.singleton_inj]
    · next hother => exact iff_of_false nofun (hother c)
  | _ => exact iff_of_false nofun nofun

/-! ### Choices -/

/-- A name alone is a text, and a name with a value an object that has nothing else. -/
theorem nameAndValue_eq_ok_iff {value : Json} {name : String} {value? : Option Json} :
    nameAndValue value = .ok (name, value?) ↔
      value = str name ∧ value? = none ∨
        ∃ inner, value = obj [(name, inner)] ∧ value? = some inner := by
  cases value with
  | str text => simp [nameAndValue, eq_comm]
  | obj entries =>
    match entries with
    | [] => simp [nameAndValue]
    | [(key, inner)] => simp [nameAndValue, eq_comm]
    | _ :: _ :: _ => simp [nameAndValue]
  | _ => simp [nameAndValue]

section Choice

variable {α : Type} {choices : List α} {name : α → String} (hnodup : (choices.map name).Nodup)

include hnodup

theorem find?_name_eq_some_iff {given : String} {choice : α} :
    choices.find? (fun other ↦ name other == given) = some choice ↔
      choice ∈ choices ∧ name choice = given := by
  constructor
  · intro hfound
    exact ⟨List.mem_of_find?_eq_some hfound,
      eq_of_beq (List.find?_some (p := fun other ↦ name other == given) hfound)⟩
  · rintro ⟨hmem, rfl⟩
    cases hfound : choices.find? (fun other ↦ name other == name choice) with
    | none => exact absurd (beq_self_eq_true _) (List.find?_eq_none.mp hfound choice hmem)
    | some found =>
      have hname := List.find?_some (p := fun other ↦ name other == name choice) hfound
      rw [List.inj_on_of_nodup_map hnodup (List.mem_of_find?_eq_some hfound) hmem (eq_of_beq hname)]

/-- A choice is read from its name, with a null or without. -/
theorem oneOf_eq_ok_iff {value : Json} {choice : α} :
    oneOf choices name value = .ok choice ↔ choice ∈ choices ∧ value.IsName (name choice) := by
  rw [oneOf, bind_eq_ok_iff]
  constructor
  · rintro ⟨⟨given, value?⟩, hgiven, hchoice⟩
    rw [nameAndValue_eq_ok_iff] at hgiven
    dsimp only at hchoice
    split at hchoice
    · cases hchoice
    · next hfound =>
      cases hchoice
      obtain ⟨hmem, rfl⟩ := (find?_name_eq_some_iff hnodup).mp hfound
      rcases hgiven with ⟨hvalue, -⟩ | ⟨_, -, hsome⟩
      · exact ⟨hmem, .inl hvalue⟩
      · cases hsome
    · next hfound =>
      cases hchoice
      obtain ⟨hmem, rfl⟩ := (find?_name_eq_some_iff hnodup).mp hfound
      rcases hgiven with ⟨-, hnone⟩ | ⟨_, hvalue, hsome⟩
      · cases hnone
      · cases hsome
        exact ⟨hmem, .inr hvalue⟩
    · cases hchoice
  · rintro ⟨hmem, hvalue⟩
    have hfound := (find?_name_eq_some_iff hnodup).mpr ⟨hmem, rfl⟩
    rcases hvalue with rfl | rfl
    · exact ⟨(name choice, none), rfl, by simp only [hfound]⟩
    · exact ⟨(name choice, some null), rfl, by simp only [hfound]⟩

end Choice

/-! ### Records -/

/-- An object with a value of the right sort under each key, or the array of such values. -/
def Shaped (fields : List (String × (Json → Prop))) : Json → Prop
  | obj entries => ∀ field ∈ fields, ∃ value, get? field.1 entries = some value ∧ field.2 value
  | arr items => List.Forall₂ (fun field item ↦ field.2 item) fields items
  | _ => False

section Record

variable {ι : Type u} {β : ι → Type} (label : ι → String) {fields : List ι}

theorem record_eq_ok_iff_shaped (read : (field : ι) → Decoder (β field)) {row : Row β fields}
    {name : String} {value : Json} :
    record label read name fields value = .ok row ↔
      Shaped (row.cells.map fun cell ↦ (label cell.1, fun json ↦ read cell.1 json = .ok cell.2))
        value := by
  rw [record_eq_ok_iff]
  cases value with
  | obj entries =>
    rw [Shaped, List.forall_mem_map]
    simp only [obj.injEq, exists_eq_left', reduceCtorEq, false_and, exists_false, or_false]
  | arr items =>
    rw [Shaped, List.forall₂_map_left_iff]
    simp only [arr.injEq, exists_eq_left', reduceCtorEq, false_and, exists_false, false_or]
  | _ => simp [Shaped]

/-- A value that is made of two members is read from a record of them. -/
theorem bind_members_eq_ok_iff {α γ δ : Type} {first : Decoder α} {second : Decoder γ}
    {key key' name : String} {make : α → γ → δ} {value : Json} {result : δ} :
    (do
      let (a, b, ()) ← members name [⟨key, α, first⟩, ⟨key', γ, second⟩] value
      return make a b) = Except.ok result ↔
      ∃ a b, make a b = result ∧
        Shaped [(key, fun json ↦ first json = .ok a), (key', fun json ↦ second json = .ok b)]
          value := by
  have hmembers (a : α) (b : γ) :
      members name [⟨key, α, first⟩, ⟨key', γ, second⟩] value = .ok (a, b, ()) ↔
        Shaped [(key, fun json ↦ first json = .ok a), (key', fun json ↦ second json = .ok b)]
          value :=
    record_eq_ok_iff_shaped Member.key Member.read
  rw [bind_eq_ok_iff]
  simp only [← hmembers]
  constructor
  · rintro ⟨⟨a, b, ⟨⟩⟩, hrow, hmake⟩
    exact ⟨a, b, Except.ok.inj hmake, hrow⟩
  · rintro ⟨a, b, rfl, hrow⟩
    exact ⟨(a, b, ()), hrow, rfl⟩

/-- There are two values if there is one and there is another. -/
theorem exists_pair_shaped_iff {α γ : Type} {first : α → Json → Prop} {second : γ → Json → Prop}
    {key key' : String} {value : Json} :
    (∃ a b, Shaped [(key, first a), (key', second b)] value) ↔
      Shaped [(key, fun json ↦ ∃ a, first a json), (key', fun json ↦ ∃ b, second b json)]
        value := by
  cases value with
  | obj entries =>
    simp only [Shaped, List.forall_mem_cons, List.not_mem_nil, false_implies, implies_true,
      and_true]
    constructor
    · rintro ⟨a, b, ⟨json, hget, ha⟩, json', hget', hb⟩
      exact ⟨⟨json, hget, a, ha⟩, json', hget', b, hb⟩
    · rintro ⟨⟨json, hget, a, ha⟩, json', hget', b, hb⟩
      exact ⟨a, b, ⟨json, hget, ha⟩, json', hget', hb⟩
  | arr items =>
    constructor
    · rintro ⟨a, b, hitems⟩
      cases hitems with
      | cons ha hrest =>
        cases hrest with
        | cons hb hnil => exact .cons ⟨a, ha⟩ (.cons ⟨b, hb⟩ hnil)
    · intro hitems
      cases hitems with
      | cons hfirst hrest =>
        cases hrest with
        | cons hsecond hnil =>
          obtain ⟨a, ha⟩ := hfirst
          obtain ⟨b, hb⟩ := hsecond
          exact ⟨a, b, .cons ha (.cons hb hnil)⟩
  | _ => exact iff_of_false (fun ⟨_, _, hpair⟩ ↦ hpair) id

/-- There are values for all the fields if there is one for each. -/
theorem exists_row_shaped_iff (sort : (field : ι) → β field → Json → Prop) {value : Json} :
    (∃ row : Row β fields,
      Shaped (row.cells.map fun cell ↦ (label cell.1, sort cell.1 cell.2)) value) ↔
      Shaped (fields.map fun field ↦ (label field, fun json ↦ ∃ a, sort field a json)) value := by
  cases value with
  | obj entries =>
    simp only [Shaped, List.forall_mem_map]
    induction fields with
    | nil => exact iff_of_true ⟨(), nofun⟩ nofun
    | cons field fields ih =>
      rw [List.forall_mem_cons, ← ih]
      constructor
      · rintro ⟨⟨a, row⟩, hrow⟩
        obtain ⟨⟨json, hget, ha⟩, hrest⟩ := List.forall_mem_cons.mp hrow
        exact ⟨⟨json, hget, a, ha⟩, row, hrest⟩
      · rintro ⟨⟨json, hget, a, ha⟩, row, hrest⟩
        exact ⟨(a, row), List.forall_mem_cons.mpr ⟨⟨json, hget, ha⟩, hrest⟩⟩
  | arr items =>
    simp only [Shaped, List.forall₂_map_left_iff]
    induction fields generalizing items with
    | nil =>
      rw [List.forall₂_nil_left_iff]
      exact ⟨fun ⟨_, hrow⟩ ↦ List.forall₂_nil_left_iff.mp hrow, fun hnil ↦ ⟨(), hnil ▸ .nil⟩⟩
    | cons field fields ih =>
      rw [List.forall₂_cons_left_iff]
      constructor
      · rintro ⟨⟨a, row⟩, hrow⟩
        obtain ⟨item, rest, ha, hrest, rfl⟩ := List.forall₂_cons_left_iff.mp hrow
        exact ⟨item, rest, ⟨a, ha⟩, (ih rest).mp ⟨row, hrest⟩, rfl⟩
      · rintro ⟨item, rest, ⟨a, ha⟩, hrest, rfl⟩
        obtain ⟨row, hrow⟩ := (ih rest).mpr hrest
        exact ⟨(a, row), .cons ha hrow⟩
  | _ => exact iff_of_false (fun ⟨_, hrow⟩ ↦ hrow) id

end Record

end LintCore.Json
