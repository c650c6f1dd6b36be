import LintCore.Shape.Mismatch

/-!
TOML documents as trees. The entries of a table keep the order of the document. The value of a date
or time is not kept, only that there is one. Whether two trees are equal is decided along their
parts (`Toml.same_iff`).
-/

set_option autoImplicit false
set_option relaxedAutoImplicit false

namespace LintCore

inductive Toml where
  | string (value : String)
  | integer (value : Int)
  | float (value : Binary64)
  | boolean (value : Bool)
  | dateTime
  | array (items : List Toml)
  | table (entries : List (String × Toml))
deriving Inhabited

namespace Toml

/-! ### Equality -/

-- It cannot be derived for trees that are nested in lists.
mutual

/-- Whether two trees are the same. -/
def same : Toml → Toml → Bool
  | string value, string other => value = other
  | integer value, integer other => value = other
  | float value, float other => value = other
  | boolean value, boolean other => value = other
  | dateTime, dateTime => true
  | array items, array others => sameItems items others
  | table entries, table others => sameEntries entries others
  | _, _ => false

def sameItems : List Toml → List Toml → Bool
  | [], [] => true
  | item :: items, other :: others => same item other && sameItems items others
  | _, _ => false

def sameEntries : List (String × Toml) → List (String × Toml) → Bool
  | [], [] => true
  | (key, value) :: entries, (key', value') :: others =>
    key = key' && same value value' && sameEntries entries others
  | _, _ => false

end

mutual

theorem same_iff (value other : Toml) : same value other = true ↔ value = other := by
  cases value with
  | array items => cases other <;> simp [same, sameItems_iff items]
  | table entries => cases other <;> simp [same, sameEntries_iff entries]
  | _ => cases other <;> simp [same]

theorem sameItems_iff (items others : List Toml) :
    sameItems items others = true ↔ items = others := by
  cases items with
  | nil => cases others <;> simp [sameItems]
  | cons item items => cases others <;> simp [sameItems, same_iff item, sameItems_iff items]

theorem sameEntries_iff (entries others : List (String × Toml)) :
    sameEntries entries others = true ↔ entries = others := by
  cases entries with
  | nil => cases others <;> simp [sameEntries]
  | cons entry entries =>
    obtain ⟨key, value⟩ := entry
    cases others <;> simp [sameEntries, same_iff value, sameEntries_iff entries, Prod.ext_iff]

end

instance : DecidableEq Toml := fun value other ↦ decidable_of_iff _ (same_iff value other)

/-! ### What is found -/

/-- Floats have no exponent. -/
def floatStyle : Binary64.Style := ⟨.upper, none⟩

example : (Binary64.ofDecimal false 15 (-1)).render floatStyle = "1.5" := by decide +kernel
example : (Binary64.ofDecimal true 1 16).render floatStyle = "-10000000000000000.0" := by
  decide +kernel

/-- A date or time is told as a table. -/
def found : Toml → Shape.Found
  | string value => .text value
  | integer value => .integer value
  | float value => .float floatStyle value
  | boolean value => .boolean value
  | dateTime => .table
  | array _ => .sequence
  | table _ => .table

end Toml

end LintCore
