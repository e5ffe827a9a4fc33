import Stencil.Text.Basic

/-!
# Tables

## Entries in the order of their keys

A table binds texts to items.  It is kept as the list of its entries in
increasing order of keys, by code points, so that two tables with the same
bindings are the same list, and printing a table needs no sorting.
-/

namespace Stencil

abbrev Table (item : Type) := List (Text × item)

namespace Table

variable {item : Type}

def find? (key : Text) (table : Table item) : Option item :=
  table.lookup key

def insert (key : Text) (new : item) : Table item -> Table item
  | [] => [(key, new)]
  | (k, old) :: rest =>
      if key < k then (key, new) :: (k, old) :: rest
      else if key = k then (key, new) :: rest
      else (k, old) :: insert key new rest

def erase (key : Text) (table : Table item) : Table item :=
  table.filter fun entry => entry.1 ≠ key

def keys (table : Table item) : List Text :=
  table.map Prod.fst

/-- Adds entries in turn; of equal keys the last one stays. -/
def insertAll (table : Table item) (entries : List (Text × item)) : Table item :=
  entries.foldl (fun acc entry => insert entry.1 entry.2 acc) table

def ofEntries (entries : List (Text × item)) : Table item :=
  insertAll [] entries

def Sorted (table : Table item) : Prop :=
  table.Pairwise fun a b => a.1 < b.1

@[simp] theorem find?_nil (key : Text) : find? key ([] : Table item) = none := rfl

theorem find?_cons (key k : Text) (value : item) (rest : Table item) :
    find? key ((k, value) :: rest) =
      if key = k then some value else find? key rest := by
  unfold find?
  rw [List.lookup_cons]
  by_cases h : key = k
  · simp [h]
  · have hbeq : (key == k) = false := beq_eq_false_iff_ne.mpr h
    rw [hbeq, if_neg h]

theorem find?_insert_self (key : Text) (new : item) (table : Table item) :
    find? key (insert key new table) = some new := by
  induction table with
  | nil =>
      simp [insert, find?_cons]
  | cons entry rest ih =>
      rcases entry with ⟨k, old⟩
      unfold insert
      split
      · simp [find?_cons]
      · split
        · simp [find?_cons]
        · rename_i hne
          simp [find?_cons, hne, ih]

theorem find?_insert_of_ne {key other : Text} (hne : other ≠ key) (new : item)
    (table : Table item) :
    find? other (insert key new table) = find? other table := by
  induction table with
  | nil =>
      simp [insert, find?_cons, hne]
  | cons entry rest ih =>
      rcases entry with ⟨k, old⟩
      unfold insert
      split
      · simp [find?_cons, hne]
      · split
        · rename_i heq
          subst heq
          simp [find?_cons, hne]
        · simp [find?_cons, ih]

end Table

end Stencil
