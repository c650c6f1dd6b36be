/-!
A row holds one value for each of a list of fields, each of the type that its field has. It is a
nested pair, so a row over a known list of fields can be taken apart like a tuple.
-/

set_option autoImplicit false
set_option relaxedAutoImplicit false

universe u

namespace LintCore.Shape

/-- One value of type `β field` for each field, in order. -/
def Row {ι : Type u} (β : ι → Type) : List ι → Type
  | [] => Unit
  | field :: fields => β field × Row β fields

namespace Row

variable {ι : Type u} {β : ι → Type}

/-- The values as a list, once each field says how to show its own. -/
def toList {α : Type} (view : (field : ι) → β field → α) :
    {fields : List ι} → Row β fields → List α
  | [], () => []
  | field :: _, (value, rest) => view field value :: toList view rest

def decEq (eq : (field : ι) → DecidableEq (β field)) :
    {fields : List ι} → (row other : Row β fields) → Decidable (row = other)
  | [], (), () => isTrue rfl
  | field :: _, (value, rest), (value', rest') =>
    match eq field value value', decEq eq rest rest' with
    | isTrue h, isTrue h' => isTrue (by rw [h, h'])
    | isFalse h, _ => isFalse fun heq ↦ h (congrArg Prod.fst heq)
    | _, isFalse h => isFalse fun heq ↦ h (congrArg Prod.snd heq)

end Row

end LintCore.Shape
