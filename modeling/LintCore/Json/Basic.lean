import LintCore.Shape.Mismatch

/-!
JSON values. The reader keeps the entries of an object sorted by key, and of two entries with one
key the later; a value built by hand may hold them in any order, and then the first entry of a key
is the one that counts (`Json.get?`).
-/

set_option autoImplicit false
set_option relaxedAutoImplicit false

namespace LintCore

inductive Json where
  | null
  | bool (value : Bool)
  | int (value : Int)
  | float (value : Binary64)
  | str (value : String)
  | arr (items : List Json)
  | obj (entries : List (String × Json))
deriving Inhabited

namespace Json

/-- The value of a key. -/
def get? (key : String) : List (String × Json) → Option Json
  | [] => none
  | (name, value) :: rest => if name = key then some value else get? key rest

/-- The entries with one more, sorted by key. An entry of the same key gives way. -/
def insert (key : String) (value : Json) : List (String × Json) → List (String × Json)
  | [] => [(key, value)]
  | (name, old) :: rest =>
    if key = name then (key, value) :: rest
    else if key < name then (key, value) :: (name, old) :: rest
    else (name, old) :: insert key value rest

/-- Floats from `10 ^ 16` on, and below `10 ^ (-5)`, have an exponent. -/
def floatStyle : Binary64.Style := ⟨.even, some (-5, 16)⟩

example : (Binary64.ofDecimal false 1 16).render floatStyle = "1e+16" := by decide +kernel
example : (Binary64.ofDecimal true 999 (-8)).render floatStyle = "-9.99e-6" := by decide +kernel
example : (Binary64.ofDecimal false 1 (-5)).render floatStyle = "0.00001" := by decide +kernel

def found : Json → Shape.Found
  | null => .null
  | bool value => .boolean value
  | int value => .integer value
  | float value => .float floatStyle value
  | str value => .text value
  | arr _ => .sequence
  | obj _ => .table

end Json

end LintCore
