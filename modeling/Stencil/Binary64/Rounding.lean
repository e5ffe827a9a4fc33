import Stencil.Binary64.Basic

/-!
# Rounding to binary64

## Nearest numbers

The number nearest to a ratio of natural numbers is found exactly: the ratio is
scaled to units, the step between neighbouring numbers at its size is taken from
its leading bit, and the number of steps is rounded, with a tie going to the even
neighbour.  Because the exponent field sits above the fraction field, a word is
its step exponent times the exponent unit plus the rounded number of steps, also
when rounding carries into the next exponent.
-/

namespace Stencil

namespace Binary64

/-- The quotient rounded to the nearest whole number, a tie to the even one. -/
def roundHalfEven (num den : Nat) : Nat :=
  let quotient := num / den
  let twice := 2 * (num % den)
  if twice < den then quotient
  else if twice = den then quotient + quotient % 2
  else quotient + 1

def infinityBits : Nat := 2047 * exponentUnit

/-- The binary64 number nearest to `num / den`, with the given sign. -/
def ofRatio (negative : Bool) (num den : Nat) : Binary64 :=
  let units := num * one
  let shift := (units / den).log2 - 52
  let steps := roundHalfEven units (den * Nat.pow 2 shift)
  ofSignAndBits negative (min (shift * exponentUnit + steps) infinityBits)

def ofNat (n : Nat) : Binary64 :=
  ofRatio false n 1

def mul (x y : Binary64) : Binary64 :=
  ofRatio (x.isNegative != y.isNegative) (x.magnitude * y.magnitude) (one * one)

/-- The quotient of two finite numbers, the second of them not zero. -/
def div (x y : Binary64) : Binary64 :=
  ofRatio (x.isNegative != y.isNegative) x.magnitude y.magnitude

/-!
## Widening of 32-bit numbers

Every binary32 number is a binary64 number.  A NaN keeps its payload.
-/

def ofBinary32 (word : UInt32) : Binary64 :=
  let negative : Bool := Nat.pow 2 31 ≤ word.toNat
  let exponent := word.toNat / Nat.pow 2 23 % 256
  let fraction := word.toNat % Nat.pow 2 23
  if exponent = 255 then
    ofSignAndBits negative (infinityBits + fraction * Nat.pow 2 29)
  else
    let significand := if exponent = 0 then fraction else Nat.pow 2 23 + fraction
    ofRatio negative (significand * Nat.pow 2 (exponent - 1)) (Nat.pow 2 149)

end Binary64

end Stencil
