import Stencil.Table
import Stencil.Binary64.Basic

/-!
# Template data

## Values

A template is rendered against a value: a scalar, a list of values, or a map
from texts to values.  Rendering tells only three kinds of values apart.
-/

namespace Stencil

inductive Value where
  | null
  | bool (b : Bool)
  | char (c : Char)
  | str (s : Text)
  | int (n : Int64)
  | nat (n : UInt64)
  | float (x : Binary64)
  | bytes (bs : List UInt8)
  | list (items : List Value)
  | map (entries : List (Text × Value))
deriving Inhabited

inductive Kind where
  | mapping
  | sequence
  | scalar
deriving DecidableEq

namespace Value

def kind : Value -> Kind
  | map _ => Kind.mapping
  | list _ => Kind.sequence
  | _ => Kind.scalar

def isNull : Value -> Bool
  | null => true
  | _ => false

def asMap? : Value -> Option (Table Value)
  | map entries => some entries
  | _ => none

def asList? : Value -> Option (List Value)
  | list items => some items
  | _ => none

def get? (key : Text) (v : Value) : Option Value :=
  v.asMap?.bind fun entries => Table.find? key entries

end Value

end Stencil
