import Stencil.Data.Fault
import Stencil.Data.Scalar
import Stencil.Value.Display

/-!
# Serialized data

## What a producer hands over

A producer hands its data over part by part.  The entries of a map come as single
keys and values, in any order the producer likes: a value is bound to the last
key before it, and a key that gets no value is forgotten.  Keys must be scalars
and are taken as they print.  Wrappers and the tags of variants disappear.
-/

namespace Stencil

inductive Wrapper where
  | optional
  | newtype
  | variant
deriving DecidableEq

inductive RowForm where
  | sequence
  | tuple
  | tupleRecord
  | tupleVariant
deriving DecidableEq

inductive RecordForm where
  | record
  | variant
deriving DecidableEq

inductive Slot where
  | key
  | value
deriving DecidableEq

inductive Serial where
  | scalar (s : Scalar)
  | bytes (bs : List UInt8)
  | absent
  | unit
  | unitRecord
  | unitVariant (name : Text)
  | wrapped (wrapper : Wrapper) (inside : Serial)
  | row (form : RowForm) (items : List Serial)
  | record (form : RecordForm) (fields : List (Text × Serial))
  | slots (parts : List (Slot × Serial))
  | signedWide (n : Int)
  | unsignedWide (n : Nat)
  | failing (message : Text)

namespace Serial

/-- A map whose entries are whole: each key is followed by its value. -/
def map (entries : List (Serial × Serial)) : Serial :=
  slots (entries.flatMap fun entry => [(Slot.key, entry.1), (Slot.value, entry.2)])

end Serial

structure MapBuilder where
  entries : Table Value
  pending : Option Text

namespace MapBuilder

def empty : MapBuilder :=
  ⟨[], none⟩

/-- Takes a key, which must be a scalar other than bytes. -/
def putKey (b : MapBuilder) : Value -> Except DataFault MapBuilder
  | Value.map _ => Except.error DataFault.keyNotScalar
  | Value.list _ => Except.error DataFault.keyNotScalar
  | Value.bytes _ => Except.error DataFault.keyNotScalar
  | key => Except.ok { b with pending := some key.display }

def putValue (b : MapBuilder) (v : Value) : Except DataFault MapBuilder :=
  match b.pending with
  | none => Except.error DataFault.valueWithoutKey
  | some key => Except.ok ⟨Table.insert key v b.entries, none⟩

def put (b : MapBuilder) (v : Value) : Slot -> Except DataFault MapBuilder
  | Slot.key => b.putKey v
  | Slot.value => b.putValue v

end MapBuilder

namespace Serial

mutual

def value : Serial -> Except DataFault Value
  | scalar s => Except.ok s.value
  | bytes bs => Except.ok (Value.bytes bs)
  | absent => Except.ok Value.null
  | unit => Except.ok Value.null
  | unitRecord => Except.ok Value.null
  | unitVariant name => Except.ok (Value.str name)
  | wrapped _ inside => value inside
  | row _ items =>
      match valueItems items with
      | Except.error fault => Except.error fault
      | Except.ok vs => Except.ok (Value.list vs)
  | record _ fields =>
      match valueFields [] fields with
      | Except.error fault => Except.error fault
      | Except.ok entries => Except.ok (Value.map entries)
  | slots parts =>
      match valueSlots MapBuilder.empty parts with
      | Except.error fault => Except.error fault
      | Except.ok b => Except.ok (Value.map b.entries)
  | signedWide _ => Except.error DataFault.signedTooWide
  | unsignedWide _ => Except.error DataFault.unsignedTooWide
  | failing message => Except.error (DataFault.custom message)

def valueItems : List Serial -> Except DataFault (List Value)
  | [] => Except.ok []
  | item :: rest =>
      match value item with
      | Except.error fault => Except.error fault
      | Except.ok v =>
          match valueItems rest with
          | Except.error fault => Except.error fault
          | Except.ok vs => Except.ok (v :: vs)

def valueFields (entries : Table Value) :
    List (Text × Serial) -> Except DataFault (Table Value)
  | [] => Except.ok entries
  | (name, field) :: rest =>
      match value field with
      | Except.error fault => Except.error fault
      | Except.ok v => valueFields (Table.insert name v entries) rest

def valueSlots (b : MapBuilder) : List (Slot × Serial) -> Except DataFault MapBuilder
  | [] => Except.ok b
  | (slot, part) :: rest =>
      match value part with
      | Except.error fault => Except.error fault
      | Except.ok v =>
          match b.put v slot with
          | Except.error fault => Except.error fault
          | Except.ok next => valueSlots next rest

end

end Serial

end Stencil
