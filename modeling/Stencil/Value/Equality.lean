import Stencil.Value.Display

/-!
# Two equalities on values

## Sameness and likeness

Two values are the same if they are built alike from the same scalars, where
numbers are compared numerically.  They are alike if a template cannot tell them
apart: maps and lists are compared part by part, all other values by what they
print.
-/

namespace Stencil

namespace Value

mutual

def same : Value -> Value -> Bool
  | null, null => true
  | bool a, bool b => a = b
  | char a, char b => a = b
  | str a, str b => a = b
  | int a, int b => a = b
  | nat a, nat b => a = b
  | float a, float b => a.numEq b
  | bytes a, bytes b => a = b
  | list as, list bs => sameItems as bs
  | map as, map bs => sameEntries as bs
  | _, _ => false

def sameItems : List Value -> List Value -> Bool
  | [], [] => true
  | a :: as, b :: bs => same a b && sameItems as bs
  | _, _ => false

def sameEntries : List (Text × Value) -> List (Text × Value) -> Bool
  | [], [] => true
  | (j, a) :: as, (k, b) :: bs => j = k && same a b && sameEntries as bs
  | _, _ => false

end

mutual

def alike : Value -> Value -> Bool
  | map as, map bs => alikeEntries as bs
  | list as, list bs => alikeItems as bs
  | a, b => a.kind = Kind.scalar && b.kind = Kind.scalar && a.display = b.display

def alikeItems : List Value -> List Value -> Bool
  | [], [] => true
  | a :: as, b :: bs => alike a b && alikeItems as bs
  | _, _ => false

def alikeEntries : List (Text × Value) -> List (Text × Value) -> Bool
  | [], [] => true
  | (j, a) :: as, (k, b) :: bs => j = k && alike a b && alikeEntries as bs
  | _, _ => false

end

end Value

end Stencil
