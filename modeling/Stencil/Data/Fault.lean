import Stencil.Value.Display

/-!
# Faults of described data

## Data that no value stands for

Turning described data into a value fails at the first part that has no place in
template data: a number wider than 64 bits, a map key that is not a scalar, a
part of a kind that was not expected, or a failure of the description itself.
-/

namespace Stencil

inductive Found where
  | bool (b : Bool)
  | integer (n : Int)
  | signedWide (n : Int)
  | unsignedWide (n : Nat)
  | float (x : Binary64)
  | unit
  | option
  | sequence
  | map
  | newtype
  | enumeration
deriving DecidableEq

inductive Wanted where
  | key
  | value
deriving DecidableEq

inductive DataFault where
  | signedTooWide
  | unsignedTooWide
  | keyNotScalar
  | valueWithoutKey
  | unexpected (found : Found) (wanted : Wanted)
  | keyNotText
  | custom (message : Text)
deriving DecidableEq

namespace Found

/-- A word followed by a text between backquotes. -/
def backquoted (word : Text) (s : Text) : Text :=
  word ++ ' ' :: '\x60' :: s ++ ['\x60']

/-- The positional text of a number, always with a point if it is finite. -/
def pointed (x : Binary64) : Text :=
  let s := x.positional
  if x.isNaN || x.isInfinite || s.contains '.' then s else s ++ ['.', '0']

def description : Found -> Text
  | bool b => backquoted "boolean".toList (Value.displayBool b)
  | integer n => backquoted "integer".toList (Text.ofInt n)
  | signedWide n => backquoted "integer".toList (Text.ofInt n) ++ " as i128".toList
  | unsignedWide n => backquoted "integer".toList (Text.ofNat n) ++ " as u128".toList
  | float x => backquoted "floating point".toList (pointed x)
  | unit => "unit value".toList
  | option => "Option value".toList
  | sequence => "sequence".toList
  | map => "map".toList
  | newtype => "newtype struct".toList
  | enumeration => "enum".toList

end Found

namespace Wanted

def description : Wanted -> Text
  | key => "a string".toList
  | value => "any template data value".toList

end Wanted

namespace DataFault

def message : DataFault -> Text
  | signedTooWide => "i128 is not supported".toList
  | unsignedTooWide => "u128 is not supported".toList
  | keyNotScalar => "Map key must be a scalar".toList
  | valueWithoutKey => "Missing key for value".toList
  | unexpected found wanted =>
      "invalid type: ".toList ++ found.description ++
        ", expected ".toList ++ wanted.description
  | keyNotText =>
      "invalid value: byte array, expected ".toList ++ Wanted.key.description
  | custom message => message

end DataFault

end Stencil
