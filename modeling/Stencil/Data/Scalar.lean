import Stencil.Value.Basic
import Stencil.Binary64.Rounding

/-!
# Scalars of described data

## Fixed-width numbers widen

Data that is turned into template data comes with numbers of several widths.  The
value of a number has 64 bits: integers keep their number and their signedness,
floating-point numbers are widened exactly.
-/

namespace Stencil

inductive Scalar where
  | bool (b : Bool)
  | int8 (n : Int8)
  | int16 (n : Int16)
  | int32 (n : Int32)
  | int64 (n : Int64)
  | nat8 (n : UInt8)
  | nat16 (n : UInt16)
  | nat32 (n : UInt32)
  | nat64 (n : UInt64)
  | float32 (bits : UInt32)
  | float64 (x : Binary64)
  | char (c : Char)
  | str (s : Text)
deriving DecidableEq

namespace Scalar

def value : Scalar -> Value
  | bool b => Value.bool b
  | int8 n => Value.int n.toInt64
  | int16 n => Value.int n.toInt64
  | int32 n => Value.int n.toInt64
  | int64 n => Value.int n
  | nat8 n => Value.nat n.toUInt64
  | nat16 n => Value.nat n.toUInt64
  | nat32 n => Value.nat n.toUInt64
  | nat64 n => Value.nat n
  | float32 bits => Value.float (Binary64.ofBinary32 bits)
  | float64 x => Value.float x
  | char c => Value.char c
  | str s => Value.str s

end Scalar

end Stencil
