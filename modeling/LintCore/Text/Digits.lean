/-!
The numbers that digits write.
-/

set_option autoImplicit false
set_option relaxedAutoImplicit false

namespace LintCore.Text

/-- The value of a decimal digit. -/
def digitValue (c : Char) : Nat := c.toNat - '0'.toNat

/-- The number that decimal digits write, the first of them in front. -/
def natOf (digits : List Char) : Nat := digits.foldl (fun number c ↦ number * 10 + digitValue c) 0

/-- The value of a hexadecimal digit, of either case. -/
def hexValue? (c : Char) : Option Nat :=
  if c.isDigit then some (digitValue c)
  else if 'a' ≤ c ∧ c ≤ 'f' then some (c.toNat - 'a'.toNat + 10)
  else if 'A' ≤ c ∧ c ≤ 'F' then some (c.toNat - 'A'.toNat + 10)
  else none

/-- The number that digits write in a base of at most sixteen. -/
def natIn? (base : Nat) (digits : List Char) : Option Nat :=
  digits.foldlM (fun number c ↦ (hexValue? c).map fun value ↦ number * base + value) 0

/-- Integers of 64 bits with sign lie below this number, and not below its negative. -/
def signedBound : Nat := 0x8000000000000000

end LintCore.Text
