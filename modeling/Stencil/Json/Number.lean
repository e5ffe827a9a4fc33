import Stencil.Data.Scalar
import Stencil.Json.Taken

/-!
# JSON numbers

## From digits to scalars

A whole number is kept exactly if it fits a 64-bit word: unsigned if it has no
sign, signed if it is negative.  Any other number becomes a binary64 number.  Its
digits are gathered in a significand as long as they fit a 64-bit word, the
remaining ones are dropped, and the significand is scaled by a power of ten.  The
scaling rounds once more, so that the result need not be the nearest number.
-/

namespace Stencil

namespace Json

def significandLimit : Nat := Nat.pow 2 64 - 1

def powerLimit : Nat := 308

/-- Gathers digits as long as the significand stays within its bound, and counts
the digits that were gathered. -/
def gather (significand : Nat) : Text -> Nat × Nat
  | [] => (significand, 0)
  | c :: rest =>
      let next := significand * 10 + digitValue c
      if next ≤ significandLimit then
        match gather next rest with
        | (gathered, count) => (gathered, count + 1)
      else (significand, 0)

/-- Divides by a power of ten, in steps if the power is beyond the limit. -/
def scaleDown (x : Binary64) (power : Nat) : Binary64 :=
  if power ≤ powerLimit then x.div (Binary64.ofNat (Nat.pow 10 power))
  else if x.isZero then x
  else scaleDown (x.div (Binary64.ofNat (Nat.pow 10 powerLimit))) (power - powerLimit)
termination_by power
decreasing_by
  rename_i hpower _
  exact Nat.sub_lt (Nat.zero_lt_of_lt (Nat.lt_of_not_le hpower)) (Nat.succ_pos 307)

/-- Multiplies by a power of ten, unless the product is too large. -/
def scaleUp? (x : Binary64) (power : Nat) : Option Binary64 :=
  if power ≤ powerLimit then
    let product := x.mul (Binary64.ofNat (Nat.pow 10 power))
    if product.isInfinite then none else some product
  else if x.isZero then some x
  else none

def scale? (significand : Nat) (power : Int) : Option Binary64 :=
  match power with
  | Int.ofNat n => scaleUp? (Binary64.ofNat significand) n
  | Int.negSucc n => some (scaleDown (Binary64.ofNat significand) (n + 1))

structure Numeral where
  negative : Bool
  significand : Nat
  power : Int
  -- There is no fraction and no exponent, and all digits are in the significand.
  whole : Bool

namespace Numeral

/-- The numeral with the given digits before and after its point and the given
exponent.  Digits before the point that are dropped add to the power of ten. -/
def ofParts (negative : Bool) (whole fraction : Text) (exponent? : Option Int) :
    Numeral :=
  match gather 0 whole with
  | (upper, count) =>
      match gather upper fraction with
      | (significand, places) =>
          { negative := negative
            significand := significand
            power := (whole.length : Int) - count - places + exponent?.getD 0
            whole := count = whole.length && fraction = [] && exponent?.isNone }

def float? (n : Numeral) : Option Scalar :=
  (scale? n.significand n.power).map fun x =>
    Scalar.float64 (if n.negative then x.neg else x)

/-- The scalar of a numeral, unless it is out of range.  Zero with a sign is a binary64
number. -/
def scalar? (n : Numeral) : Option Scalar :=
  if n.whole then
    if !n.negative then some (Scalar.nat64 (UInt64.ofNat n.significand))
    else if 0 < n.significand ∧ n.significand ≤ Nat.pow 2 63 then
      some (Scalar.int64 (Int64.ofInt (-(n.significand : Int))))
    else n.float?
  else n.float?

end Numeral

/-!
## The parts of a numeral
-/

def digits (s : Text) : Reading Text s :=
  match _h : s with
  | [] => Except.error (Halt.before JsonCause.endInValue [])
  | c :: rest =>
      if isDigit c then
        Except.ok ⟨c :: rest.takeWhile isDigit, rest.dropWhile isDigit, by
          have hle := (List.dropWhile_sublist (l := rest) isDigit).length_le
          simp
          omega⟩
      else Except.error (Halt.behindByte JsonCause.invalidNumber (c :: rest))

/-- The digits before the point; a leading zero stands alone. -/
def wholeDigits (s : Text) : Reading Text s :=
  match digits s with
  | Except.error fault => Except.error fault
  | Except.ok taken =>
      match taken.item with
      | '0' :: _ :: _ =>
          Except.error (Halt.behindByte JsonCause.invalidNumber (s.drop 1))
      | _ => Except.ok taken

def fractionDigits (s : Text) : Except Halt (Text × Rest s) :=
  match s with
  | '.' :: rest =>
      match digits rest with
      | Except.error fault => Except.error fault
      | Except.ok taken =>
          Except.ok (taken.item, Rest.ofTaken taken _)
  | s => Except.ok ([], Rest.whole s)

def natOfDigits (ds : Text) : Nat :=
  ds.foldl (fun n c => n * 10 + digitValue c) 0

def signedExponent (s : Text) : Reading Int s :=
  match s with
  | '+' :: rest =>
      match digits rest with
      | Except.error fault => Except.error fault
      | Except.ok taken =>
          Except.ok ((taken.withItem (natOfDigits taken.item : Int)).behind _)
  | '-' :: rest =>
      match digits rest with
      | Except.error fault => Except.error fault
      | Except.ok taken =>
          Except.ok ((taken.withItem (-(natOfDigits taken.item : Int))).behind _)
  | s =>
      match digits s with
      | Except.error fault => Except.error fault
      | Except.ok taken =>
          Except.ok (taken.withItem (natOfDigits taken.item : Int))

def exponent? (s : Text) : Except Halt (Option Int × Rest s) :=
  match s with
  | [] => Except.ok (none, Rest.whole [])
  | c :: rest =>
      if c = 'e' ∨ c = 'E' then
        match signedExponent rest with
        | Except.error fault => Except.error fault
        | Except.ok taken =>
            Except.ok (some taken.item, Rest.ofTaken taken _)
      else Except.ok (none, Rest.whole (c :: rest))

def exponentLimit : Nat := Nat.pow 2 31 - 1

/-- What is left behind the digit that takes an exponent over its limit, or behind its
digits if none does. -/
def behindExponent (power : Nat) : Text -> Text
  | [] => []
  | c :: rest =>
      let next := power * 10 + digitValue c
      if !isDigit c then c :: rest
      else if exponentLimit < next then rest
      else behindExponent next rest

/-- What is left where a number turns out to be out of range.  That is its end, unless a
positive exponent is too large by itself. -/
def behindRange (exponent? : Option Int) (mark rest : Text) : Text :=
  match exponent?, mark with
  | none, _ => rest
  | _, _ :: '-' :: _ => rest
  | _, _ :: '+' :: ds => behindExponent 0 ds
  | _, ds => behindExponent 0 (ds.drop 1)

def unsignedNumber (negative : Bool) (s : Text) : Reading Scalar s :=
  match wholeDigits s with
  | Except.error halt => Except.error halt
  | Except.ok whole =>
      match fractionDigits whole.rest with
      | Except.error halt => Except.error halt
      | Except.ok (fraction, afterFraction) =>
          match exponent? afterFraction.val with
          | Except.error halt => Except.error halt
          | Except.ok (exponent, rest) =>
              match (Numeral.ofParts negative whole.item fraction exponent).scalar? with
              | none =>
                  Except.error (Halt.before JsonCause.numberOutOfRange
                    (behindRange exponent afterFraction.val rest.val))
              | some x =>
                  Except.ok ⟨x, rest.val, by
                    have hfraction := afterFraction.property
                    have hrest := rest.property
                    have hshort := whole.shorter
                    omega⟩

def number (s : Text) : Reading Scalar s :=
  match s with
  | '-' :: rest =>
      match unsignedNumber true rest with
      | Except.error halt => Except.error halt
      | Except.ok taken => Except.ok (taken.behind _)
  | s => unsignedNumber false s

end Json

end Stencil
