import LintCore.Decimal.Binary64

/-!
The shortest decimal that reads back as a given number.

The reals that round to `mantissa · 2 ^ exponent` form an interval around it. For one digit, two
digits, and so on, the two neighbours of the value on that decimal grid are tried; the first grid
with a neighbour in the interval wins, and of two such neighbours the nearer. Two can be equally
near; then a rule for ties decides.
-/

set_option autoImplicit false
set_option relaxedAutoImplicit false

namespace LintCore.Binary64

/-- The value of a number and the ends of its interval, as multiples of one unit
`1 / denominator`. -/
structure Interval where
  value : Nat
  low : Nat
  high : Nat
  denominator : Nat
  /-- Whether the ends belong to it. -/
  closed : Bool
deriving DecidableEq

/-- The interval of `mantissa · 2 ^ exponent`. Below a power of two the neighbours lie twice as
dense. -/
def interval (mantissa : Nat) (exponent : Int) : Interval :=
  let scale := if 0 ≤ exponent then Nat.pow 2 exponent.toNat else 1
  let below := if mantissa = Nat.pow 2 52 ∧ -1074 < exponent then 1 else 2
  { value := 4 * mantissa * scale
    low := (4 * mantissa - below) * scale
    high := (4 * mantissa + 2) * scale
    denominator := 4 * (if 0 ≤ exponent then 1 else Nat.pow 2 (-exponent).toNat)
    closed := mantissa % 2 == 0 }

/-- Whether `point / scale` lies in the interval. -/
def Interval.holds (interval : Interval) (point scale : Nat) : Bool :=
  let place := point * interval.denominator
  if interval.closed then interval.low * scale ≤ place && place ≤ interval.high * scale
  else interval.low * scale < place && place < interval.high * scale

/-- Which of two equally near decimals is taken. -/
inductive Tie where
  | upper
  | even
deriving DecidableEq

/-- Whether the lower of two equally near multiples of a power of ten is taken. -/
def Tie.takesLower : Tie → Nat → Bool
  | upper, _ => false
  | even, lower => lower % 2 == 0

/-- The neighbour of the value, on the grid of multiples of `10 ^ power`, that lies in the interval;
the nearer if both do. -/
def Interval.onGrid? (interval : Interval) (tie : Tie) (power : Int) : Option Nat :=
  let up := if 0 ≤ power then Nat.pow 10 power.toNat else 1
  let down := if 0 ≤ power then 1 else Nat.pow 10 (-power).toNat
  let step := interval.denominator * up
  let floor := interval.value * down / step
  let twice := 2 * (interval.value * down % step)
  let lower := interval.holds (floor * up) down
  let upper := interval.holds ((floor + 1) * up) down
  let lowerFirst := twice < step || (twice == step && tie.takesLower floor)
  if lower && (!upper || lowerFirst) then some floor
  else if upper then some (floor + 1)
  else none

/-- The least `power` with `value < 10 ^ power`, searched upwards. -/
def magnitude (interval : Interval) (power : Int) : Nat → Int
  | 0 => power
  | fuel + 1 =>
    let below := if 0 ≤ power then interval.value < interval.denominator * Nat.pow 10 power.toNat
      else interval.value * Nat.pow 10 (-power).toNat < interval.denominator
    if below then power else magnitude interval (power + 1) fuel

/-- The grids are refined one digit at a time: `digits` remain to be tried. -/
def refine (interval : Interval) (tie : Tie) (power : Int) : Nat → Nat × Int
  | 0 => (interval.value / interval.denominator, 0)
  | digits + 1 =>
    match interval.onGrid? tie power with
    | some point => (point, power)
    | none => refine interval tie (power - 1) digits

/-- Digits and power of ten of the shortest decimal for a positive value. The first grid is the one
of the power of ten above the value, which may lie in the interval itself. -/
def shortest (tie : Tie) (mantissa : Nat) (exponent : Int) : Nat × Int :=
  let interval := interval mantissa exponent
  refine interval tie (magnitude interval (-330) 700) 18

example : shortest .even (Nat.pow 2 52) (-77) = (29802322387695312, -24) := by decide +kernel
example : shortest .upper (Nat.pow 2 52) (-77) = (29802322387695313, -24) := by decide +kernel

end LintCore.Binary64
