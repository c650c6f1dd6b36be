import LintCore.Decimal.Style
import LintCore.Text.Quoted

/-!
The ways in which a value misses the shape that its reader expects, and how each is told. Readers
of JSON values and of configuration documents share them.
-/

set_option autoImplicit false
set_option relaxedAutoImplicit false

namespace LintCore.Shape

/-- What a value turned out to be. -/
inductive Found where
  | null
  | boolean (value : Bool)
  | integer (value : Int)
  | float (style : Binary64.Style) (value : Binary64)
  | text (value : String)
  | sequence
  | table
  /-- A bare name where a name with a value belongs. -/
  | bareName
deriving DecidableEq

/-- What the reader was ready for. -/
inductive Expected where
  | record (name : String)
  /-- A record given as the list of its values. -/
  | elements (name : String) (count : Nat)
  | offset
  | size
  | text
  | character
  | sequence
  | pair
  | nothing
  | nameOrTable
  | namedValue
  | singleKey
  | fewerElements
deriving DecidableEq

inductive Mismatch where
  | wrongType (found : Found) (expected : Expected)
  | wrongValue (found : Found) (expected : Expected)
  | wrongLength (length : Nat) (expected : Expected)
  | missingField (name : String)
  | unknownField (name : String) (known : List String)
  | unknownVariant (name : String) (known : List String)
deriving DecidableEq

/-- Between back quotes. -/
def marked (text : String) : String := "\x60" ++ text ++ "\x60"

def Found.describe : Found → String
  | null => "null"
  | boolean value => "boolean " ++ marked (if value then "true" else "false")
  | integer value => "integer " ++ marked (toString value)
  | float style value => "floating point " ++ marked (value.render style)
  | text value => "string " ++ Text.quote value
  | sequence => "sequence"
  | table => "map"
  | bareName => "unit variant"

def Expected.describe : Expected → String
  | record name => "struct " ++ name
  | elements name count =>
    "struct " ++ name ++ " with " ++ toString count
      ++ (if count = 1 then " element" else " elements")
  | offset => "u32"
  | size => "usize"
  | text => "a string"
  | character => "a character"
  | sequence => "a sequence"
  | pair => "a tuple of size 2"
  | nothing => "unit"
  | nameOrTable => "string or map"
  | namedValue => "newtype variant"
  | singleKey => "map with a single key"
  | fewerElements => "fewer elements in array"

/-- The names one may choose from. -/
def choice : List String → String
  | [] => "there are no names"
  | [only] => "expected " ++ marked only
  | [first, second] => "expected " ++ marked first ++ " or " ++ marked second
  | names => "expected one of " ++ ", ".intercalate (names.map marked)

def Mismatch.message : Mismatch → String
  | wrongType found expected =>
    "invalid type: " ++ found.describe ++ ", expected " ++ expected.describe
  | wrongValue found expected =>
    "invalid value: " ++ found.describe ++ ", expected " ++ expected.describe
  | wrongLength length expected =>
    "invalid length " ++ toString length ++ ", expected " ++ expected.describe
  | missingField name => "missing field " ++ marked name
  | unknownField name known => "unknown field " ++ marked name ++ ", " ++ choice known
  | unknownVariant name known => "unknown variant " ++ marked name ++ ", " ++ choice known

/-! ### Reading one thing after another -/

/-- What is read after something else is read only if that was. -/
theorem bind_eq_ok_iff {α β : Type} {first : Except Mismatch α} {later : α → Except Mismatch β}
    {result : β} : (first >>= later) = .ok result ↔ ∃ value, first = .ok value ∧
      later value = .ok result := by
  cases first with
  | error mismatch => exact iff_of_false nofun fun ⟨_, hvalue, _⟩ ↦ nomatch hvalue
  | ok value =>
    constructor
    · exact fun hresult ↦ ⟨value, rfl, hresult⟩
    · rintro ⟨_, ⟨⟩, hresult⟩
      exact hresult

theorem map_eq_ok_iff {α β : Type} {read : Except Mismatch α} {make : α → β} {result : β} :
    read.map make = .ok result ↔ ∃ value, read = .ok value ∧ make value = result := by
  cases read with
  | error mismatch => exact iff_of_false nofun fun ⟨_, hvalue, _⟩ ↦ nomatch hvalue
  | ok value =>
    constructor
    · exact fun hresult ↦ ⟨value, rfl, Except.ok.inj hresult⟩
    · rintro ⟨_, ⟨⟩, rfl⟩
      rfl

end LintCore.Shape
