import LintCore.Decimal.Shortest

/-!
Numbers as text. Every number is written with the fewest digits that read back as it. A style says
where the digits are followed by an exponent: the exponent of a number is that of its first digit,
and it has a sign.
-/

set_option autoImplicit false
set_option relaxedAutoImplicit false

namespace LintCore.Binary64

/-- How numbers are written. -/
structure Style where
  tie : Tie
  /-- The numbers whose exponents lie in this range, the second end excluded, are written without
  one. Where there is no range, all are. -/
  plainRange : Option (Int × Int)
deriving DecidableEq

/-- Whether a number of this exponent is written without one. -/
def Style.isPlain (style : Style) (exponent : Int) : Bool :=
  match style.plainRange with
  | none => true
  | some (first, stop) => first ≤ exponent && exponent < stop

/-- Digits with a point behind the first `count`, or none if nothing would follow it. -/
def pointAfter (count : Nat) (digits : List Char) : List Char :=
  if digits.length ≤ count then digits else digits.take count ++ '.' :: digits.drop count

/-- `digits · 10 ^ power` without an exponent. Zeros are filled in on either side of the digits, and
a whole number has a zero behind its point. -/
def plain (digits : List Char) (power : Int) : List Char :=
  if 0 ≤ power then digits ++ List.replicate power.toNat '0' ++ ['.', '0']
  else
    let places := (-power).toNat
    let padded := List.replicate (places + 1 - digits.length) '0' ++ digits
    pointAfter (padded.length - places) padded

/-- Digits before an exponent, with the point behind the first of them. -/
def scientific (digits : List Char) (exponent : Int) : List Char :=
  pointAfter 1 digits ++ 'e' :: (if exponent < 0 then '-' else '+')
    :: Nat.toDigits 10 exponent.natAbs

/-- The text of `digits · 10 ^ power`. -/
def Style.write (style : Style) (digits : Nat) (power : Int) : List Char :=
  let text := Nat.toDigits 10 digits
  let exponent := power + text.length - 1
  if style.isPlain exponent then plain text power else scientific text exponent

def render (style : Style) : Binary64 → String
  | .nan => "NaN"
  | .infinite negative => if negative then "-inf" else "inf"
  | .finite negative mantissa exponent =>
    let (digits, power) := if mantissa = 0 then (0, 0) else shortest style.tie mantissa exponent
    let text := style.write digits power
    String.ofList (if negative then '-' :: text else text)

end LintCore.Binary64
