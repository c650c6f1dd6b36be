import LintCore.Json.Decode
import Mathlib.Data.List.Forall2
import Mathlib.Data.List.Nodup
import Mathlib.Data.List.Perm.Basic

/-!
# Reading records

A record is read from an object that has its fields under their keys, or from the array of their
values, and from nothing else (`record_eq_ok_iff`). What is read is told cell by cell, a cell being
a value with its field (`Shape.Row.cells`). Of an object it does not matter in which order its
entries stand, as long as no two have the same key: if values are read from the entries that they
are written as, then the record is read from these entries in any order, and from their values
alone in the order of the fields (`record_of_isRecord`).
-/

set_option autoImplicit false
set_option relaxedAutoImplicit false

universe u

namespace LintCore

/-! ### Cells -/

namespace Shape.Row

variable {ι : Type u} {β : ι → Type} {α γ : Type}

/-- The values, each with its field. -/
def cells : {fields : List ι} → Row β fields → List (Sigma β)
  | [], _ => []
  | field :: _, (value, rest) => ⟨field, value⟩ :: cells rest

variable {fields : List ι} (row : Row β fields)

theorem map_cells (view : (field : ι) → β field → α) :
    row.cells.map (fun cell ↦ view cell.1 cell.2) = row.toList view := by
  induction fields with
  | nil => rfl
  | cons field fields ih => exact congrArg (List.cons _) (ih row.2)

theorem map_toList (view : (field : ι) → β field → α) (f : α → γ) :
    (row.toList view).map f = row.toList fun field value ↦ f (view field value) := by
  rw [← map_cells, ← map_cells, List.map_map]
  rfl

theorem map_fst_cells : row.cells.map Sigma.fst = fields := by
  induction fields with
  | nil => rfl
  | cons field fields ih => exact congrArg (List.cons _) (ih row.2)

theorem map_eq_of_forall₂_cells {label : ι → γ} {view : α → γ} {items : List α}
    (hitems : List.Forall₂ (fun cell item ↦ view item = label cell.1) row.cells items) :
    items.map view = fields.map label := by
  have hcells : row.cells.map (fun cell ↦ label cell.1) = fields.map label := by
    conv_rhs => rw [← row.map_fst_cells, List.map_map]
    rfl
  rw [← hcells, ← List.forall₂_eq_eq_eq, List.forall₂_map_left_iff, List.forall₂_map_right_iff]
  exact hitems.flip

theorem forall₂_cells_toList {related : Sigma β → α → Prop} {view : (field : ι) → β field → α}
    (hview : ∀ field value, related ⟨field, value⟩ (view field value)) :
    List.Forall₂ related row.cells (row.toList view) := by
  rw [← map_cells, List.forall₂_map_right_iff, List.forall₂_same]
  exact fun cell _ ↦ hview cell.1 cell.2

end Shape.Row

namespace Json

open Shape

/-! ### Entries and keys -/

theorem exists_mem_of_forall₂ {α γ : Type*} {related : α → γ → Prop} {items : List α}
    {others : List γ} (h : List.Forall₂ related items others) :
    ∀ item ∈ items, ∃ other ∈ others, related item other := by
  induction h with
  | nil => exact nofun
  | cons hitem _ ih =>
    refine List.forall_mem_cons.mpr ⟨⟨_, List.mem_cons_self, hitem⟩, fun item hmem ↦ ?_⟩
    obtain ⟨other, hother, hrelated⟩ := ih item hmem
    exact ⟨other, List.mem_cons_of_mem _ hother, hrelated⟩

theorem get?_of_mem {key : String} {value : Json} {entries : List (String × Json)}
    (hnodup : (entries.map Prod.fst).Nodup) (hmem : (key, value) ∈ entries) :
    get? key entries = some value := by
  induction entries with
  | nil => cases hmem
  | cons entry rest ih =>
    obtain ⟨name, first⟩ := entry
    obtain ⟨hfresh, hrest⟩ := List.nodup_cons.mp hnodup
    rw [get?]
    rcases List.mem_cons.mp hmem with heq | hlater
    · cases heq
      exact if_pos rfl
    · have hname : name ≠ key := by
        rintro rfl
        exact hfresh (List.mem_map.mpr ⟨(name, value), hlater, rfl⟩)
      rw [if_neg hname, ih hrest hlater]

/-! ### Records, field by field -/

/-- A record is written as an object with the given entries, in any order, or as the array of their
values, in the given order. -/
def IsRecord (fields : List (String × Json)) : Json → Prop
  | obj entries => entries.Perm fields
  | arr items => items = fields.map Prod.snd
  | _ => False

section Record

variable {ι : Type u} {β : ι → Type} (label : ι → String) (read : (field : ι) → Decoder (β field))

variable {fields : List ι} {row : Row β fields}

theorem bind_ok_pair_eq_ok_iff {α δ ε : Type} {first : Except ε α} {second : Except ε δ}
    {a : α} {b : δ} :
    (do
      let a ← first
      let b ← second
      .ok (a, b)) = Except.ok (a, b) ↔ first = .ok a ∧ second = .ok b := by
  cases first with
  | error mismatch => exact iff_of_false nofun fun hboth ↦ by cases hboth.1
  | ok a' =>
    cases second with
    | error mismatch => exact iff_of_false nofun fun hboth ↦ by cases hboth.2
    | ok b' => simp [bind, Except.bind]

theorem rowOfItems_eq_ok_iff (name : String) (index : Nat) (items : List Json) :
    rowOfItems read name index fields items = .ok row ↔
      List.Forall₂ (fun cell item ↦ read cell.1 item = .ok cell.2) row.cells items := by
  induction fields generalizing index items with
  | nil =>
    cases items with
    | nil => exact iff_of_true rfl .nil
    | cons item items => exact iff_of_false nofun nofun
  | cons field fields ih =>
    obtain ⟨value, rest⟩ := row
    cases items with
    | nil => exact iff_of_false nofun nofun
    | cons item items =>
      change _ ↔ List.Forall₂ _ (⟨field, value⟩ :: rest.cells) _
      rw [List.forall₂_cons, ← ih (index + 1)]
      exact bind_ok_pair_eq_ok_iff

theorem rowOfEntries_eq_ok_iff (entries : List (String × Json)) :
    rowOfEntries label read entries fields = .ok row ↔ ∀ cell ∈ row.cells,
      ∃ json, get? (label cell.1) entries = some json ∧ read cell.1 json = .ok cell.2 := by
  induction fields with
  | nil => exact iff_of_true rfl nofun
  | cons field fields ih =>
    obtain ⟨value, rest⟩ := row
    change _ ↔ ∀ cell ∈ (⟨field, value⟩ :: rest.cells : List (Sigma β)), _
    rw [List.forall_mem_cons, ← ih, rowOfEntries]
    cases hget : get? (label field) entries with
    | none => exact iff_of_false nofun fun ⟨⟨_, hfound, _⟩, _⟩ ↦ nomatch hfound
    | some json =>
      simp only [Option.some.injEq, exists_eq_left']
      exact bind_ok_pair_eq_ok_iff

theorem faults_eq_nil {entries : List (String × Json)}
    (hrow : rowOfEntries label read entries fields = .ok row) :
    faults label read entries fields = [] := by
  rw [rowOfEntries_eq_ok_iff] at hrow
  rw [faults, List.filterMap_eq_nil_iff]
  intro field hfield
  rw [← row.map_fst_cells] at hfield
  obtain ⟨cell, hcell, rfl⟩ := List.mem_map.mp hfield
  obtain ⟨json, hget, hread⟩ := hrow cell hcell
  simp only [hget, hread]

/-- A record is read from an object that has its fields and from the array of its values. -/
theorem record_eq_ok_iff {name : String} {value : Json} :
    record label read name fields value = .ok row ↔
      (∃ entries, value = obj entries ∧ ∀ cell ∈ row.cells,
        ∃ json, get? (label cell.1) entries = some json ∧ read cell.1 json = .ok cell.2) ∨
      ∃ items, value = arr items ∧
        List.Forall₂ (fun cell item ↦ read cell.1 item = .ok cell.2) row.cells items := by
  cases value with
  | obj entries =>
    simp only [obj.injEq, exists_eq_left', reduceCtorEq, false_and, exists_false, or_false]
    rw [← rowOfEntries_eq_ok_iff, record]
    constructor
    · intro hread
      split at hread
      · cases hread
      · exact hread
    · intro hrow
      rw [faults_eq_nil label read hrow]
      exact hrow
  | arr items =>
    simp only [arr.injEq, exists_eq_left', reduceCtorEq, false_and, exists_false, false_or]
    exact rowOfItems_eq_ok_iff read name 0 items
  | _ => simp [record]

/-- A record is read from the entries that its fields are read from, in whatever order they stand,
and from the values of these entries. -/
theorem record_of_isRecord {name : String} {written : List (String × Json)} {value : Json}
    (hlabels : (fields.map label).Nodup)
    (hwritten : List.Forall₂ (fun cell entry ↦
      entry.1 = label cell.1 ∧ read cell.1 entry.2 = .ok cell.2) row.cells written)
    (hvalue : IsRecord written value) : record label read name fields value = .ok row := by
  rw [record_eq_ok_iff]
  cases value with
  | obj entries =>
    have hperm : entries.Perm written := hvalue
    have hkeys : written.map Prod.fst = fields.map label :=
      row.map_eq_of_forall₂_cells (hwritten.imp fun _ _ hentry ↦ hentry.1)
    have hnodup : (entries.map Prod.fst).Nodup := by
      rw [(hperm.map Prod.fst).nodup_iff, hkeys]
      exact hlabels
    refine .inl ⟨entries, rfl, fun cell hcell ↦ ?_⟩
    obtain ⟨entry, hentry, hkey, hread⟩ := exists_mem_of_forall₂ hwritten cell hcell
    refine ⟨entry.2, get?_of_mem hnodup ?_, hread⟩
    rw [← hkey]
    exact hperm.symm.subset hentry
  | arr items =>
    obtain rfl : items = written.map Prod.snd := hvalue
    refine .inr ⟨_, rfl, List.forall₂_map_right_iff.mpr ?_⟩
    exact hwritten.imp fun _ _ hentry ↦ hentry.2
  | _ => cases hvalue

end Record

end Json

end LintCore
