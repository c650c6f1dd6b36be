import LintCore.Json.Basic
import LintCore.Shape.Row

/-!
Reading typed values out of JSON values. A record is an object that has its fields, whatever else it
has, or the array of their values in order. A name from a list of choices is a string, or an object
with the name as its only key.

Of several faults one is told: in an object the one under the least key, and a missing field only if
there is no other; in an array the first.
-/

set_option autoImplicit false
set_option relaxedAutoImplicit false

universe u

namespace LintCore.Json

open Shape

abbrev Decoder (α : Type) := Json → Except Mismatch α

/-! ### Single values -/

/-- An integer from zero up to a bound, which it may not reach. -/
def natBelow (bound : Nat) (expected : Expected) : Decoder Nat
  | int value =>
    if 0 ≤ value ∧ value < bound then .ok value.toNat
    else .error (.wrongValue (.integer value) expected)
  | value => .error (.wrongType value.found expected)

def offset : Decoder UInt32 := fun value ↦
  (natBelow UInt32.size .offset value).map UInt32.ofNat

/-- A number of bytes. -/
def size : Decoder Nat := natBelow UInt64.size .size

def text : Decoder String
  | str value => .ok value
  | value => .error (.wrongType value.found .text)

def character : Decoder Char
  | str value =>
    match value.toList with
    | [c] => .ok c
    | _ => .error (.wrongValue (.text value) .character)
  | value => .error (.wrongType value.found .character)

def sequence {α : Type} (item : Decoder α) : Decoder (List α)
  | arr items => items.mapM item
  | value => .error (.wrongType value.found .sequence)

def pair {α β : Type} (first : Decoder α) (second : Decoder β) : Decoder (α × β)
  | arr [] => .error (.wrongLength 0 .pair)
  | arr [a] => do
    let _ ← first a
    .error (.wrongLength 1 .pair)
  | arr (a :: b :: rest) => do
    let a ← first a
    let b ← second b
    if rest.isEmpty then .ok (a, b) else .error (.wrongLength (rest.length + 2) .fewerElements)
  | value => .error (.wrongType value.found .pair)

/-! ### Choices -/

/-- A name, with the value that an object gives it. -/
def nameAndValue : Decoder (String × Option Json)
  | str name => .ok (name, none)
  | obj [(name, value)] => .ok (name, some value)
  | obj _ => .error (.wrongValue .table .singleKey)
  | value => .error (.wrongType value.found .nameOrTable)

/-- One of `choices`, by its name alone. An object may give it a null. -/
def oneOf {α : Type} (choices : List α) (name : α → String) : Decoder α := fun value ↦ do
  let (given, value?) ← nameAndValue value
  match choices.find? (fun choice ↦ name choice == given), value? with
  | none, _ => .error (.unknownVariant given (choices.map name))
  | some choice, none => .ok choice
  | some choice, some null => .ok choice
  | some _, some value => .error (.wrongType value.found .nothing)

/-! ### Records -/

section Record

variable {ι : Type u} {β : ι → Type} (label : ι → String) (read : (field : ι) → Decoder (β field))

/-- The faults of the values that an object has for the fields, each with its key. -/
def faults (entries : List (String × Json)) (fields : List ι) : List (String × Mismatch) :=
  fields.filterMap fun field ↦
    match get? (label field) entries with
    | none => none
    | some value =>
      match read field value with
      | .ok _ => none
      | .error mismatch => some (label field, mismatch)

/-- The fault under the least key. -/
def leastFault? : List (String × Mismatch) → Option (String × Mismatch)
  | [] => none
  | fault :: rest =>
    match leastFault? rest with
    | none => some fault
    | some other => if other.1 < fault.1 then some other else some fault

/-- The values that an object has for the fields. -/
def rowOfEntries (entries : List (String × Json)) :
    (fields : List ι) → Except Mismatch (Row β fields)
  | [] => .ok ()
  | field :: fields =>
    match get? (label field) entries with
    | none => .error (.missingField (label field))
    | some value => do
      let value ← read field value
      let rest ← rowOfEntries entries fields
      .ok (value, rest)

/-- The values in an array, of which `index` came before. -/
def rowOfItems (name : String) (index : Nat) :
    (fields : List ι) → (items : List Json) → Except Mismatch (Row β fields)
  | [], [] => .ok ()
  | [], items => .error (.wrongLength (index + items.length) .fewerElements)
  | field :: fields, [] =>
    .error (.wrongLength index (.elements name (index + (field :: fields).length)))
  | field :: fields, item :: items => do
    let value ← read field item
    let rest ← rowOfItems name (index + 1) fields items
    .ok (value, rest)

/-- A record of the given name and fields. -/
def record (name : String) (fields : List ι) : Decoder (Row β fields)
  | obj entries =>
    match leastFault? (faults label read entries fields) with
    | some (_, mismatch) => .error mismatch
    | none => rowOfEntries label read entries fields
  | arr items => rowOfItems read name 0 fields items
  | value => .error (.wrongType value.found (.record name))

end Record

/-- A field of a record that is written out in place. -/
structure Member where
  key : String
  Value : Type
  read : Decoder Value

/-- A record whose fields are written out in place. -/
def members (name : String) (fields : List Member) : Decoder (Row Member.Value fields) :=
  record Member.key Member.read name fields

end LintCore.Json
