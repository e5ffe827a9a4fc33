import Stencil.Text.Numeral
import Stencil.Binary64.Shortest

/-!
# The text of binary64 numbers

## Two layouts of the same digits

A finite number is written with the digits of its shortest decimal.  The
positional layout has no exponent and no superfluous point.  The scientific
layout has one digit before the point, a sign before the exponent and at least
two exponent digits.  By default a number is written positionally if its decimal
exponent is at least -4 and below 6.
-/

namespace Stencil

namespace Decimal

def digits (d : Decimal) : Text :=
  Text.ofNat d.coefficient

/-- The decimal exponent of the first digit. -/
def exponent (d : Decimal) : Int :=
  d.power + d.digits.length - 1

/-- Digits with a point before the last `places` of them. -/
def pointBeforeLast (places : Nat) (digits : Text) : Text :=
  let padded := List.replicate (places + 1 - digits.length) '0' ++ digits
  let whole := padded.length - places
  padded.take whole ++ '.' :: padded.drop whole

def positional (d : Decimal) : Text :=
  if 0 ≤ d.power then d.digits ++ List.replicate d.power.toNat '0'
  else pointBeforeLast d.power.natAbs d.digits

def mantissa (d : Decimal) : Text :=
  match d.digits with
  | first :: second :: rest => first :: '.' :: second :: rest
  | digits => digits

def scientific (d : Decimal) : Text :=
  let sign := if d.exponent < 0 then '-' else '+'
  d.mantissa ++ 'e' :: sign :: Text.atLeastTwoDigits d.exponent.natAbs

end Decimal

namespace Binary64

def withSign (x : Binary64) (s : Text) : Text :=
  if x.isNegative then '-' :: s else s

def positional (x : Binary64) : Text :=
  if x.isNaN then "NaN".toList
  else if x.isInfinite then x.withSign "inf".toList
  else if x.isZero then x.withSign ['0']
  else x.withSign x.shortest.positional

/-- The default text of a number, as templates print it. -/
def display (x : Binary64) : Text :=
  if x.isNaN then "NaN".toList
  else if x.isInfinite then
    (if x.isNegative then '-' else '+') :: "Inf".toList
  else if x.isZero then x.withSign ['0']
  else
    let d := x.shortest
    x.withSign (if -4 ≤ d.exponent ∧ d.exponent < 6 then d.positional else d.scientific)

end Binary64

end Stencil
