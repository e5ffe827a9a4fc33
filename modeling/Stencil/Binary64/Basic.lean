/-!
# Binary64 numbers

## Words and magnitudes

A binary64 number is its 64-bit word.  The magnitude of a finite number is a
whole number of units, where a unit is the least positive number, `2 ^ (-1074)`;
so exact arithmetic on magnitudes is arithmetic on natural numbers.
-/

namespace Stencil

structure Binary64 where
  bits : UInt64
deriving DecidableEq, Inhabited

namespace Binary64

/-- The weight of the lowest exponent bit in a word. -/
def exponentUnit : Nat := Nat.pow 2 52

def signUnit : Nat := Nat.pow 2 63

/-- The number of units in one. -/
def one : Nat := Nat.pow 2 1074

def isNegative (x : Binary64) : Bool :=
  signUnit ≤ x.bits.toNat

def exponentField (x : Binary64) : Nat :=
  x.bits.toNat / exponentUnit % 2048

def fractionField (x : Binary64) : Nat :=
  x.bits.toNat % exponentUnit

def isNaN (x : Binary64) : Bool :=
  x.exponentField = 2047 && x.fractionField ≠ 0

def isInfinite (x : Binary64) : Bool :=
  x.exponentField = 2047 && x.fractionField = 0

def isZero (x : Binary64) : Bool :=
  x.exponentField = 0 && x.fractionField = 0

/-- The significand as a whole number; normal numbers have a leading bit that
the word does not hold. -/
def significand (x : Binary64) : Nat :=
  if x.exponentField = 0 then x.fractionField else exponentUnit + x.fractionField

/-- The number of units between a finite number and the next larger magnitude. -/
def gap (x : Binary64) : Nat :=
  Nat.pow 2 (x.exponentField - 1)

def magnitude (x : Binary64) : Nat :=
  x.significand * x.gap

def ofSignAndBits (negative : Bool) (rest : Nat) : Binary64 :=
  ⟨UInt64.ofNat (if negative then signUnit + rest else rest)⟩

def neg (x : Binary64) : Binary64 :=
  ofSignAndBits (!x.isNegative) (x.bits.toNat % signUnit)

/-- Numeric equality: NaN differs from everything, the two zeros are equal. -/
def numEq (x y : Binary64) : Bool :=
  !x.isNaN && !y.isNaN && (x = y || x.isZero && y.isZero)

end Binary64

end Stencil
