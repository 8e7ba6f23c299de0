import StackTemplate.Binary64

/-! The shortest decimal that reads back as a given number. The candidates with
a given number of digits are the two decimals around the exact value; the first
number of digits at which one of them rounds to the number is the shortest. -/
namespace StackTemplate.Binary64

/-- A decimal `digits · 10 ^ exponent`. -/
structure Decimal where
  digits : Nat
  exponent : Int
  deriving DecidableEq, Repr

/-- Moves trailing zeros into the exponent. -/
def Decimal.strip (decimal : Decimal) : Decimal :=
  if _ : decimal.digits ≠ 0 ∧ decimal.digits % 10 = 0 then
    strip ⟨decimal.digits / 10, decimal.exponent + 1⟩
  else decimal
termination_by decimal.digits
decreasing_by omega

/-- A positive number in quarters of its last place, with the bounds between
which a decimal reads back as it. -/
structure Interval where
  low : Nat
  middle : Nat
  high : Nat
  /-- The power of two that one quarter is. -/
  exponent : Int
  /-- Whether the bounds themselves read back. -/
  closed : Bool
  deriving Repr

/-- The neighbour below is nearer at a power of two. -/
def interval (x : Binary64) : Interval :=
  let below := if x.significand = Nat.pow 2 52 ∧ x.exponent > minExponent then 1 else 2
  { low := 4 * x.significand - below
    middle := 4 * x.significand
    high := 4 * x.significand + 2
    exponent := x.exponent - 2
    closed := x.significand % 2 == 0 }

/-- Numerator and denominator of `base ^ exponent`. -/
def powerFraction (base : Nat) (exponent : Int) : Nat × Nat :=
  if 0 ≤ exponent then (Nat.pow base exponent.toNat, 1)
  else (1, Nat.pow base (-exponent).toNat)

/-- The decimal with a given last place that reads back as the number, if there
is one; of two the nearer, and of two equally near the even one. -/
def candidate? (bounds : Interval) (place : Int) : Option Decimal :=
  let (two, half) := powerFraction 2 bounds.exponent
  let (ten, tenth) := powerFraction 10 place
  -- A quarter count `q` and a digit count `d` are compared as `q * unit` and `d * step`.
  let unit := two * tenth
  let step := ten * half
  let exact := bounds.middle * unit
  let within (digits : Nat) : Bool :=
    let value := digits * step
    if bounds.closed then bounds.low * unit ≤ value && value ≤ bounds.high * unit
    else bounds.low * unit < value && value < bounds.high * unit
  let down := exact / step
  let up := down + 1
  let upNearer := 2 * (exact % step) > step || (2 * (exact % step) == step && down % 2 == 1)
  match within down, within up with
  | true, true => some ⟨if upNearer then up else down, place⟩
  | true, false => some ⟨down, place⟩
  | false, true => some ⟨up, place⟩
  | false, false => none

/-- The power of ten of the first digit of a positive number. -/
def leadingPower (x : Binary64) : Int :=
  let bits : Int := Nat.log2 x.significand + x.exponent
  let guess := Int.fdiv (bits * 30103) 100000
  let (num, den) := x.fraction
  let (ten, tenth) := powerFraction 10 (guess + 1)
  if ten * den ≤ num * tenth then guess + 1 else guess

/-- The shortest decimal that reads back as a positive number; 17 digits always do. -/
def shortest (x : Binary64) : Decimal :=
  let top := x.leadingPower
  let bounds := x.interval
  match (List.range 17).findSome? fun (more : Nat) => candidate? bounds (top - more) with
  | some decimal => decimal.strip
  | none => ⟨0, 0⟩

end StackTemplate.Binary64
