import LintCore.Json.Basic
import LintCore.Text.Digits

/-!
Numbers as JSON writes them. A number without point and exponent that fits in 64 bits, signed or
unsigned, is an integer; any other is a float. Of a float's digits only the leading ones that fit in
64 bits count. They are rounded once, and the product or quotient with the power of ten once more,
so the result may differ from the nearest float in its last bit.
-/

set_option autoImplicit false
set_option relaxedAutoImplicit false

namespace LintCore.Json

open Text (digitValue natOf signedBound)

/-- The digits of a number as they are taken in: what fits in 64 bits, and the power of ten that is
still missing. -/
structure Digits where
  value : Nat := 0
  power : Int := 0
  /-- Whether a digit has been left out. -/
  full : Bool := false

namespace Digits

/-- Takes in a digit of the whole part. One left out still counts for the power of ten. -/
def pushWhole (digits : Digits) (digit : Nat) : Digits :=
  if digits.full || UInt64.size ≤ digits.value * 10 + digit then
    { digits with power := digits.power + 1, full := true }
  else { digits with value := digits.value * 10 + digit }

/-- Takes in a digit behind the point. The first one that does not fit ends the number. -/
def pushPlace (digits : Digits) (digit : Nat) : Digits :=
  if digits.full || UInt64.size ≤ digits.value * 10 + digit then { digits with full := true }
  else { digits with value := digits.value * 10 + digit, power := digits.power - 1 }

/-- Whole digits and digits behind the point, one after the other. -/
def ofTexts (whole places : List Nat) : Digits :=
  places.foldl pushPlace { whole.foldl pushWhole {} with full := false }

end Digits

/-- The greatest power of ten that is a float. -/
def maxPower : Nat := 308

/-- The float nearest to a power of ten, as a quotient. -/
def powerOfTen (power : Nat) : Nat × Nat := (Binary64.ofDecimal false 1 power).ratio?.getD (0, 1)

/-- A quotient divided by a power of ten. -/
def divideOnce (negative : Bool) (ratio : Nat × Nat) (power : Nat) : Binary64 :=
  let scale := powerOfTen power
  Binary64.ofRatio negative (ratio.1 * scale.2) (ratio.2 * scale.1)

/-- A quotient divided by a power of ten, by at most `maxPower` in one step. More than `steps` of
them leave nothing. -/
def divideBy (negative : Bool) : (steps : Nat) → (ratio : Nat × Nat) → (power : Nat) → Binary64
  | 0, _, _ => .finite negative 0 (-1074)
  | steps + 1, ratio, power =>
    if maxPower < power then
      match (divideOnce negative ratio maxPower).ratio? with
      | some ratio => divideBy negative steps ratio (power - maxPower)
      | none => .nan
    else divideOnce negative ratio power

/-- The float for `value · 10 ^ power`, with one rounding for each factor, if it is finite. -/
def scale? (negative : Bool) (value : Nat) (power : Int) : Option Binary64 :=
  if value = 0 then some (.finite negative 0 (-1074)) else
    match (Binary64.ofRatio false value 1).ratio? with
    | none => none
    | some ratio =>
      if power < 0 then some (divideBy negative 3 ratio (-power).toNat)
      else if maxPower < power.toNat then none
      else
        let scale := powerOfTen power.toNat
        match Binary64.ofRatio negative (ratio.1 * scale.1) (ratio.2 * scale.2) with
        | .infinite _ => none
        | result => some result

/-- The digits at the head of a text, and what follows them. -/
def splitDigits (text : List Char) : List Char × List Char :=
  (text.takeWhile Char.isDigit, text.dropWhile Char.isDigit)

/-- The power of ten of an exponent part, if the text is one from end to end. -/
def exponent? : List Char → Option Int
  | [] => some 0
  | mark :: rest =>
    if mark == 'e' || mark == 'E' then
      let (negative, digits) :=
        match rest with
        | '-' :: digits => (true, digits)
        | '+' :: digits => (false, digits)
        | digits => (false, digits)
      match splitDigits digits with
      | ([], _) => none
      | (digits, []) => some (if negative then -(natOf digits : Int) else natOf digits)
      | _ => none
    else none

/-- A number with these whole digits, places and power of ten, as a float. -/
def floatOf? (negative : Bool) (whole places : List Char) (power : Int) : Option Json :=
  let digits := Digits.ofTexts (whole.map digitValue) (places.map digitValue)
  (scale? negative digits.value (digits.power + power)).map .float

/-- A number of whole digits only. Zero with a sign is a float, for an integer has only one zero. -/
def integerOf? (negative : Bool) (whole : List Char) : Option Json :=
  let value := natOf whole
  if negative then
    if value = 0 then some (.float (.finite true 0 (-1074)))
    else if value ≤ signedBound then some (.int (-value))
    else floatOf? negative whole [] 0
  else if value < UInt64.size then some (.int value)
  else floatOf? negative whole [] 0

/-- The number that a text without its sign writes. -/
def unsigned? (negative : Bool) (text : List Char) : Option Json :=
  let (whole, rest) := splitDigits text
  if whole.isEmpty || (1 < whole.length && whole.head? == some '0') then none else
    match rest with
    | [] => integerOf? negative whole
    | '.' :: rest =>
      match splitDigits rest with
      | ([], _) => none
      | (places, rest) => (exponent? rest).bind (floatOf? negative whole places)
    | rest => (exponent? rest).bind (floatOf? negative whole [])

def number? : List Char → Option Json
  | '-' :: text => unsigned? true text
  | text => unsigned? false text

end LintCore.Json
