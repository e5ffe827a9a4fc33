import Stencil.Data.Scalar
import Stencil.Table

/-!
# Native data

## Data that always has a value

Native data is built from scalars, lists and maps with texts as keys.  Optional
data and references stand for what is inside them.  Every such datum has a value.
-/

namespace Stencil

inductive Native where
  | scalar (s : Scalar)
  | pointerInt (n : Int64)
  | pointerNat (n : UInt64)
  | unit
  | absent
  | present (inside : Native)
  | reference (inside : Native)
  | value (v : Value)
  | list (items : List Native)
  | map (entries : List (Text × Native))

namespace Native

mutual

def toValue : Native -> Value
  | scalar s => s.value
  | pointerInt n => Value.int n
  | pointerNat n => Value.nat n
  | unit => Value.null
  | absent => Value.null
  | present inside => toValue inside
  | reference inside => toValue inside
  | value v => v
  | list items => Value.list (toValues items)
  | map entries => Value.map (insertEntries [] entries)

def toValues : List Native -> List Value
  | [] => []
  | item :: rest => toValue item :: toValues rest

def insertEntries (table : Table Value) : List (Text × Native) -> Table Value
  | [] => table
  | (key, item) :: rest => insertEntries (Table.insert key (toValue item) table) rest

end

end Native

end Stencil
