/-!
Binary floating-point numbers of 64 bits, by value. A finite number is `mantissa · 2 ^ exponent`
with a mantissa below `2 ^ 53` and an exponent of at least `-1074`, and the mantissa is at least
`2 ^ 52` unless the exponent is the least one. `ofRatio` rounds a quotient to the nearest of them,
a tie to the even mantissa; the quotient is exact, so every rounding is one rounding.
-/

set_option autoImplicit false
set_option relaxedAutoImplicit false

namespace LintCore

inductive Binary64 where
  | finite (negative : Bool) (mantissa : Nat) (exponent : Int)
  | infinite (negative : Bool)
  | nan
deriving DecidableEq

namespace Binary64

def zero : Binary64 := .finite false 0 (-1074)

/-- The nearest integer to a quotient, the even one of two. -/
def roundDiv (numerator denominator : Nat) : Nat :=
  let floor := numerator / denominator
  let twice := 2 * (numerator % denominator)
  if twice < denominator then floor
  else if denominator < twice then floor + 1
  else floor + floor % 2

/-- The exponent at which a positive quotient has a mantissa of 53 bits. -/
def exponentOf (numerator denominator : Nat) : Int :=
  let guess : Int := (numerator.log2 : Int) - (denominator.log2 : Int)
  let reached :=
    if 0 ≤ guess then denominator * Nat.pow 2 guess.toNat ≤ numerator
    else denominator ≤ numerator * Nat.pow 2 (-guess).toNat
  max (if reached then guess - 52 else guess - 53) (-1074)

/-- The number nearest to a quotient. -/
def ofRatio (negative : Bool) (numerator denominator : Nat) : Binary64 :=
  if numerator = 0 then .finite negative 0 (-1074) else
    let exponent := exponentOf numerator denominator
    let mantissa := if 0 ≤ exponent then roundDiv numerator (denominator * Nat.pow 2 exponent.toNat)
      else roundDiv (numerator * Nat.pow 2 (-exponent).toNat) denominator
    let (mantissa, exponent) :=
      if mantissa = Nat.pow 2 53 then (Nat.pow 2 52, exponent + 1) else (mantissa, exponent)
    if 971 < exponent then .infinite negative else .finite negative mantissa exponent

/-- The number nearest to `digits · 10 ^ power`. From `10 ^ 309` on that is infinity, and below
`10 ^ (-324)` it is zero. -/
def ofDecimal (negative : Bool) (digits : Nat) (power : Int) : Binary64 :=
  let length : Int := (Nat.toDigits 10 digits).length
  if digits = 0 ∨ power + length ≤ -324 then .finite negative 0 (-1074)
  else if 310 ≤ power + length then .infinite negative
  else if 0 ≤ power then ofRatio negative (digits * Nat.pow 10 power.toNat) 1
  else ofRatio negative digits (Nat.pow 10 (-power).toNat)

/-- The magnitude of a number as a quotient, or nothing if it has none. -/
def ratio? : Binary64 → Option (Nat × Nat)
  | .finite _ mantissa exponent =>
    if 0 ≤ exponent then some (mantissa * Nat.pow 2 exponent.toNat, 1)
    else some (mantissa, Nat.pow 2 (-exponent).toNat)
  | _ => none

example : ofDecimal false 15 (-1) = .finite false (3 * Nat.pow 2 51) (-52) := by decide +kernel
example : ofDecimal true 5 (-324) = .finite true 1 (-1074) := by decide +kernel
example : ofDecimal false 1 309 = .infinite false := by decide +kernel

end Binary64

end LintCore
