/-! Double-precision numbers as exact values `± significand · 2 ^ exponent`.
Every operation rounds the exact result to the nearest such number, a tie going
to the even significand, and is computed in natural numbers throughout. -/
namespace StackTemplate

/-- A number that fits 53 significant bits. -/
structure Binary64 where
  negative : Bool
  significand : Nat
  exponent : Int
  deriving DecidableEq, Repr, Inhabited

namespace Binary64

/-- The exponent of the smallest positive number. -/
def minExponent : Int := -1074

/-- The exponent of the largest number. -/
def maxExponent : Int := 971

/-- Zero of either sign. -/
def zero (negative : Bool) : Binary64 :=
  ⟨negative, 0, minExponent⟩

/-- The quotient of `num * 2 ^ (-exponent)` by `den` as a fraction. -/
def scaled (num den : Nat) (exponent : Int) : Nat × Nat :=
  if 0 ≤ exponent then (num, den * Nat.pow 2 exponent.toNat)
  else (num * Nat.pow 2 (-exponent).toNat, den)

/-- The whole number nearest to a fraction, a tie going to the even one. -/
def nearest (num den : Nat) : Nat :=
  let quotient := num / den
  let twice := 2 * (num % den)
  if twice > den ∨ (twice = den ∧ quotient % 2 = 1) then quotient + 1 else quotient

/-- The exponent at which a positive fraction has 53 bits before the point, or
the least exponent if it is too small for that. -/
def exponentOf (num den : Nat) : Int :=
  let guess : Int := Nat.log2 num - Nat.log2 den - 53
  let (top, bottom) := scaled num den guess
  max minExponent (if top / bottom < Nat.pow 2 53 then guess else guess + 1)

/-- The number nearest to a fraction; none if it is beyond the largest number. -/
def ofFraction (negative : Bool) (num den : Nat) : Option Binary64 :=
  if num = 0 then some (zero negative)
  else
    let exponent := exponentOf num den
    let (top, bottom) := scaled num den exponent
    let rounded := nearest top bottom
    let (significand, exponent) :=
      if rounded = Nat.pow 2 53 then (Nat.pow 2 52, exponent + 1) else (rounded, exponent)
    if exponent > maxExponent then none else some ⟨negative, significand, exponent⟩

/-- The magnitude as a fraction. -/
def fraction (x : Binary64) : Nat × Nat :=
  if 0 ≤ x.exponent then (x.significand * Nat.pow 2 x.exponent.toNat, 1)
  else (x.significand, Nat.pow 2 (-x.exponent).toNat)

/-- The product of two magnitudes with the sign of the first. -/
def mul (x y : Binary64) : Option Binary64 :=
  let (num, den) := x.fraction
  let (num', den') := y.fraction
  ofFraction x.negative (num * num') (den * den')

/-- The quotient of two magnitudes with the sign of the first. -/
def div (x y : Binary64) : Option Binary64 :=
  let (num, den) := x.fraction
  let (num', den') := y.fraction
  ofFraction x.negative (num * den') (den * num')

/-- The number nearest to a natural number. -/
def ofNat (negative : Bool) (n : Nat) : Option Binary64 :=
  ofFraction negative n 1

/-- The number nearest to a power of ten. -/
def powerOfTen (n : Nat) : Option Binary64 :=
  ofNat false (Nat.pow 10 n)

/-- The largest power of ten that is used in one step. -/
def largestPower : Nat := 308

/-- Divides by the largest power of ten a number of times, or until nothing is left. -/
def divLargest (x : Binary64) : Nat → Option Binary64
  | 0 => some x
  | times + 1 =>
    if x.significand = 0 then some x
    else do (← x.div (← powerOfTen largestPower)).divLargest times

/-- Divides by a power of ten, by the largest one first for a power that is
itself out of range. -/
def divPowerOfTen (x : Binary64) (n : Nat) : Option Binary64 := do
  let times := (n - 1) / largestPower
  (← x.divLargest times).div (← powerOfTen (n - times * largestPower))

/-- The number written as `significand · 10 ^ exponent`, found by rounding the
significand and then multiplying or dividing by a rounded power of ten. -/
def ofDecimal (negative : Bool) (significand : Nat) (exponent : Int) : Option Binary64 := do
  let x ← ofNat negative significand
  if exponent < 0 then x.divPowerOfTen (-exponent).toNat
  else if exponent.toNat ≤ largestPower then x.mul (← powerOfTen exponent.toNat)
  else if significand = 0 then some x
  else none

end Binary64

end StackTemplate
