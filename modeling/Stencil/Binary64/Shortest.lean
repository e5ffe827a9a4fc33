import Stencil.Binary64.Basic

/-!
# Shortest decimals

## Decimals that read back

A decimal reads back as a number if it lies in the interval of reals that round
to the number; the ends of the interval belong to it if the significand is even.
The shortest decimal of a number is found on the coarsest grid of multiples of a
power of ten that meets the interval: if any point of a grid lies there, so does
one of the number's two neighbours on that grid.  Of two such neighbours the
nearer is taken, and the upper one if they are equally near.
-/

namespace Stencil

structure Decimal where
  coefficient : Nat
  power : Int
deriving DecidableEq

namespace Decimal

def numerator (d : Decimal) : Nat :=
  d.coefficient * Nat.pow 10 d.power.toNat

def denominator (d : Decimal) : Nat :=
  Nat.pow 10 (-d.power).toNat

end Decimal

namespace Binary64

/-- Four times the distance, in units, from the number down to the end of its
rounding interval.  Below a power of two the numbers are twice as dense. -/
def roomBelow (x : Binary64) : Nat :=
  if x.fractionField = 0 && 1 < x.exponentField then x.gap else 2 * x.gap

/-- Four times the distance, in units, up to the other end. -/
def roomAbove (x : Binary64) : Nat :=
  2 * x.gap

/-- A decimal lies in the interval of reals that round to the magnitude of a
finite number other than zero. -/
def ReadsBack (x : Binary64) (d : Decimal) : Prop :=
  let point := 4 * one * d.numerator
  let low := (4 * x.magnitude - x.roomBelow) * d.denominator
  let high := (4 * x.magnitude + x.roomAbove) * d.denominator
  if x.significand % 2 = 0 then low ≤ point ∧ point ≤ high
  else low < point ∧ point < high

instance (x : Binary64) (d : Decimal) : Decidable (x.ReadsBack d) := by
  unfold ReadsBack
  infer_instance

def distance (x : Binary64) (d : Decimal) : Nat :=
  let point := one * d.numerator
  let exact := x.magnitude * d.denominator
  (point - exact) + (exact - point)

/-- The lower neighbour of a number on the grid of multiples of `10 ^ power`. -/
def neighbourBelow (x : Binary64) (power : Int) : Decimal :=
  ⟨x.magnitude * Nat.pow 10 (-power).toNat / (one * Nat.pow 10 power.toNat), power⟩

def neighbourAbove (x : Binary64) (power : Int) : Decimal :=
  ⟨(x.neighbourBelow power).coefficient + 1, power⟩

/-- The best decimal on a grid, if one of them reads back. -/
def onGrid? (x : Binary64) (power : Int) : Option Decimal :=
  let below := x.neighbourBelow power
  let above := x.neighbourAbove power
  if x.ReadsBack below then
    if x.ReadsBack above ∧ x.distance above ≤ x.distance below then some above
    else some below
  else if x.ReadsBack above then some above
  else none

def exactDecimal (x : Binary64) : Decimal :=
  ⟨x.magnitude * Nat.pow 5 1074, -1074⟩

/-- Tries a number of grids, each ten times finer than the one before. -/
def searchGrids (x : Binary64) : Nat -> Int -> Decimal
  | 0, _ => x.exactDecimal
  | grids + 1, power =>
      match x.onGrid? power with
      | some d => d
      | none => x.searchGrids grids (power - 1)

/-- A power of ten above or just below the magnitude of a number, estimated from
its leading bit by `log 2 = 0.30103`. -/
def coarsestPower (x : Binary64) : Int :=
  ((x.magnitude.log2 : Int) - 1073) * 30103 / 100000 + 1

/-- The shortest decimal that reads back as the magnitude of a finite number
other than zero.  Seventeen digits suffice, and the estimate of the coarsest
power is off by at most two. -/
def shortest (x : Binary64) : Decimal :=
  x.searchGrids 20 x.coarsestPower

end Binary64

end Stencil
