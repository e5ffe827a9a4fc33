import Stencil.Json.Reader
import Stencil.Value.Display

/-!
# JSON trees

## Documents before they are written

A JSON tree is what a compact JSON document is written from.  It has no floating-point
numbers, its whole numbers fit 64-bit words, and its objects keep their members in the
order of writing, also if a key is repeated.

A tree is written without any white space.  What its document presents knows the width
of a number no longer, and in the template data that it stands for there is nothing left
of a member that a later member with the same key replaces.
-/

namespace Stencil

namespace Json

inductive Tree where
  | null
  | bool (b : Bool)
  | integer (n : Int64)
  | natural (n : UInt64)
  | str (s : Text)
  | list (items : List Tree)
  | object (members : List (Text × Tree))

def escaped : Char -> Text
  | '"' => ['\\', '"']
  | '\\' => ['\\', '\\']
  | '\x08' => ['\\', 'b']
  | '\x0c' => ['\\', 'f']
  | '\n' => ['\\', 'n']
  | '\r' => ['\\', 'r']
  | '\t' => ['\\', 't']
  | c =>
      if c < ' ' then
        ['\\', 'u', '0', '0', (c.toNat / 16).digitChar, (c.toNat % 16).digitChar]
      else [c]

def quoted (s : Text) : Text :=
  '"' :: s.flatMap escaped ++ ['"']

namespace Tree

def isObject : Tree -> Bool
  | object _ => true
  | _ => false

mutual

def print : Tree -> Text
  | null => "null".toList
  | bool b => Value.displayBool b
  | integer n => Text.ofInt n.toInt
  | natural n => Text.ofNat n.toNat
  | str s => quoted s
  | list items => '[' :: List.intercalate [','] (printItems items) ++ [']']
  | object members =>
      '\x7b' :: List.intercalate [','] (printMembers members) ++ ['\x7d']

def printItems : List Tree -> List Text
  | [] => []
  | item :: rest => print item :: printItems rest

def printMembers : List (Text × Tree) -> List Text
  | [] => []
  | (key, item) :: rest => (quoted key ++ ':' :: print item) :: printMembers rest

end

mutual

def depth : Tree -> Nat
  | list items => depthItems items + 1
  | object members => depthMembers members + 1
  | _ => 0

def depthItems : List Tree -> Nat
  | [] => 0
  | item :: rest => Nat.max (depth item) (depthItems rest)

def depthMembers : List (Text × Tree) -> Nat
  | [] => 0
  | (_, item) :: rest => Nat.max (depth item) (depthMembers rest)

end

/-- A signed number is read as an unsigned one unless it is negative. -/
def ofInteger (n : Int64) : Scalar :=
  if n.toInt < 0 then Scalar.int64 n else Scalar.nat64 (UInt64.ofNat n.toInt.toNat)

theorem ofInteger_cases (n : Int64) :
    (exists k, n.toInt = Int.negSucc k ∧ ofInteger n = Scalar.int64 n) ∨
      exists m : UInt64, n.toInt = Int.ofNat m.toNat ∧ ofInteger n = Scalar.nat64 m := by
  cases h : n.toInt with
  | negSucc k =>
      left
      exists k
      constructor
      · rfl
      · unfold ofInteger
        rw [h, if_pos (Int.negSucc_lt_zero k)]
  | ofNat k =>
      right
      have hlt := n.toInt_lt
      rw [h, Int.ofNat_eq_natCast] at hlt
      have hk : (UInt64.ofNat k).toNat = k := by
        apply UInt64.toNat_ofNat_of_lt
        show k < 2 ^ 64
        omega
      have hge : ¬ Int.ofNat k < 0 := Int.not_lt.mpr (Int.natCast_nonneg k)
      refine ⟨UInt64.ofNat k, ?_, ?_⟩
      · rw [hk]
      · unfold ofInteger
        rw [h, if_neg hge]
        rfl

mutual

def presented : Tree -> Presented
  | null => Presented.unit
  | bool b => Presented.scalar (Scalar.bool b)
  | integer n => Presented.scalar (ofInteger n)
  | natural n => Presented.scalar (Scalar.nat64 n)
  | str s => Presented.scalar (Scalar.str s)
  | list items => Presented.row (presentedItems items)
  | object members => Presented.ofMembers (presentedMembers members)

def presentedItems : List Tree -> List Presented
  | [] => []
  | item :: rest => presented item :: presentedItems rest

def presentedMembers : List (Text × Tree) -> List (Text × Presented)
  | [] => []
  | (key, item) :: rest => (key, presented item) :: presentedMembers rest

end

mutual

def value : Tree -> Value
  | null => Value.null
  | bool b => Value.bool b
  | integer n => (ofInteger n).value
  | natural n => Value.nat n
  | str s => Value.str s
  | list items => Value.list (valueItems items)
  | object members => Value.map (Table.ofEntries (valueMembers members))

def valueItems : List Tree -> List Value
  | [] => []
  | item :: rest => value item :: valueItems rest

def valueMembers : List (Text × Tree) -> List (Text × Value)
  | [] => []
  | (key, item) :: rest => (key, value item) :: valueMembers rest

end

mutual

theorem value_presented : forall tree : Tree,
    tree.presented.value = Except.ok tree.value
  | null => rfl
  | bool _ => rfl
  | integer _ => rfl
  | natural _ => rfl
  | str _ => rfl
  | list items => by
      rw [presented, Presented.value, valueItems_presented items, value]
  | object members => by
      rw [presented, Presented.ofMembers, Presented.value,
        valueEntries_presented members [], value]
      rfl

theorem valueItems_presented : forall items : List Tree,
    Presented.valueItems (presentedItems items) = Except.ok (valueItems items)
  | [] => rfl
  | item :: rest => by
      rw [presentedItems, Presented.valueItems, value_presented item]
      dsimp only
      rw [valueItems_presented rest, valueItems]

theorem valueEntries_presented : forall (members : List (Text × Tree))
    (table : Table Value),
    Presented.valueEntries table ((presentedMembers members).map fun member =>
        (Presented.scalar (Scalar.str member.1), member.2)) =
      Except.ok (Table.insertAll table (valueMembers members))
  | [], _ => rfl
  | (key, item) :: rest, table => by
      rw [presentedMembers, List.map_cons, Presented.valueEntries, Presented.key,
        Presented.scalarKey, value_presented item]
      exact valueEntries_presented rest (Table.insert key item.value table)

end

end Tree

end Json

end Stencil
