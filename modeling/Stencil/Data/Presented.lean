import Stencil.Data.Fault
import Stencil.Data.Scalar
import Stencil.Table

/-!
# Presented data

## What a reader is shown

A source of data presents itself part by part, and a value is read from what it
presents.  The keys of a map are read as texts: texts, characters and bytes that
are UTF-8 are accepted, everything else is refused.  A key is read before its
value, and of equal keys the last one stays.
-/

namespace Stencil

inductive Presented where
  | scalar (s : Scalar)
  | bytes (bs : List UInt8)
  | absent
  | present (inside : Presented)
  | unit
  | newtype (inside : Presented)
  | row (items : List Presented)
  | map (entries : List (Presented × Presented))
  | enumeration
  | signedWide (n : Int)
  | unsignedWide (n : Nat)
  | failing (message : Text)

namespace Presented

/-- A scalar that was found where a text was expected, or the text. -/
def scalarKey : Scalar -> Except DataFault Text
  | Scalar.str s => Except.ok s
  | Scalar.char c => Except.ok [c]
  | Scalar.bool b => Except.error (DataFault.unexpected (Found.bool b) Wanted.key)
  | Scalar.int8 n => refuse n.toInt
  | Scalar.int16 n => refuse n.toInt
  | Scalar.int32 n => refuse n.toInt
  | Scalar.int64 n => refuse n.toInt
  | Scalar.nat8 n => refuse n.toNat
  | Scalar.nat16 n => refuse n.toNat
  | Scalar.nat32 n => refuse n.toNat
  | Scalar.nat64 n => refuse n.toNat
  | Scalar.float32 bits => refuseFloat (Binary64.ofBinary32 bits)
  | Scalar.float64 x => refuseFloat x
where
  refuse (n : Int) : Except DataFault Text :=
    Except.error (DataFault.unexpected (Found.integer n) Wanted.key)
  refuseFloat (x : Binary64) : Except DataFault Text :=
    Except.error (DataFault.unexpected (Found.float x) Wanted.key)

def key : Presented -> Except DataFault Text
  | scalar s => scalarKey s
  | bytes bs =>
      match Text.ofUtf8? bs with
      | some s => Except.ok s
      | none => Except.error DataFault.keyNotText
  | absent => refuse Found.option
  | present _ => refuse Found.option
  | unit => refuse Found.unit
  | newtype _ => refuse Found.newtype
  | row _ => refuse Found.sequence
  | map _ => refuse Found.map
  | enumeration => refuse Found.enumeration
  | signedWide n => refuse (Found.signedWide n)
  | unsignedWide n => refuse (Found.unsignedWide n)
  | failing message => Except.error (DataFault.custom message)
where
  refuse (found : Found) : Except DataFault Text :=
    Except.error (DataFault.unexpected found Wanted.key)

mutual

def value : Presented -> Except DataFault Value
  | scalar s => Except.ok s.value
  | bytes bs => Except.ok (Value.bytes bs)
  | absent => Except.ok Value.null
  | present inside => value inside
  | unit => Except.ok Value.null
  | newtype inside => value inside
  | row items =>
      match valueItems items with
      | Except.error fault => Except.error fault
      | Except.ok vs => Except.ok (Value.list vs)
  | map entries =>
      match valueEntries [] entries with
      | Except.error fault => Except.error fault
      | Except.ok table => Except.ok (Value.map table)
  | enumeration =>
      Except.error (DataFault.unexpected Found.enumeration Wanted.value)
  | signedWide n =>
      Except.error (DataFault.unexpected (Found.signedWide n) Wanted.value)
  | unsignedWide n =>
      Except.error (DataFault.unexpected (Found.unsignedWide n) Wanted.value)
  | failing message => Except.error (DataFault.custom message)

def valueItems : List Presented -> Except DataFault (List Value)
  | [] => Except.ok []
  | item :: rest =>
      match value item with
      | Except.error fault => Except.error fault
      | Except.ok v =>
          match valueItems rest with
          | Except.error fault => Except.error fault
          | Except.ok vs => Except.ok (v :: vs)

def valueEntries (table : Table Value) :
    List (Presented × Presented) -> Except DataFault (Table Value)
  | [] => Except.ok table
  | (k, item) :: rest =>
      match key k with
      | Except.error fault => Except.error fault
      | Except.ok name =>
          match value item with
          | Except.error fault => Except.error fault
          | Except.ok v => valueEntries (Table.insert name v table) rest

end

end Presented

end Stencil
