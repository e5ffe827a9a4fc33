import Stencil.Value.Basic
import Stencil.Binary64.Layout

/-!
# The default rendering of values

## What a template prints

Null prints as nothing and texts print as they are.  Bytes and lists stand in
brackets, maps in brackets after the word `map`, with the entries in the order
of their keys.
-/

namespace Stencil

namespace Value

def bracketed (parts : List Text) : Text :=
  '[' :: List.intercalate [' '] parts ++ [']']

def displayBool : Bool -> Text
  | true => "true".toList
  | false => "false".toList

mutual

def display : Value -> Text
  | null => []
  | bool b => displayBool b
  | char c => [c]
  | str s => s
  | int n => Text.ofInt n.toInt
  | nat n => Text.ofNat n.toNat
  | float x => x.display
  | bytes bs => bracketed (bs.map fun b => Text.ofNat b.toNat)
  | list items => bracketed (displayItems items)
  | map entries => "map".toList ++ bracketed (displayEntries entries)

def displayItems : List Value -> List Text
  | [] => []
  | item :: rest => display item :: displayItems rest

def displayEntries : List (Text × Value) -> List Text
  | [] => []
  | (key, item) :: rest => (key ++ ':' :: display item) :: displayEntries rest

end

theorem displayEntries_eq_map (entries : List (Text × Value)) :
    displayEntries entries =
      entries.map fun entry => entry.1 ++ ':' :: display entry.2 := by
  induction entries with
  | nil => rfl
  | cons entry rest ih => simp [displayEntries, ih]

end Value

end Stencil
