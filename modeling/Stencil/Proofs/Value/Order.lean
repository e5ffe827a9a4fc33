import Stencil.Proofs.Value.Likeness

/-!
# Visiting the entries of a map

## Sorted keys

The entries of a map can be visited in any order, if their keys are different.  A map that
is visited in a given order is printed by sorting its keys and looking each of them up; it
is compared with another map by counting the entries of both, and by looking up in the
other map what each visited entry binds.  This finds out about the map what its table
tells, which has the entries in the order of their keys; so the order of the visit makes
no difference.
-/

namespace Stencil

namespace Table

variable {item : Type} {entries : List (Text × item)}

def sortedKeys (entries : List (Text × item)) : List Text :=
  (keys entries).mergeSort fun j k => !decide (k < j)

theorem not_lt_trans {j k l : Text} (hjk : ¬ k < j) (hkl : ¬ l < k) : ¬ l < j := by
  intro hlj
  by_cases hkj : j < k
  · exact hkl (List.lt_trans hlj hkj)
  · cases Std.Trichotomous.trichotomous (r := (· < ·)) j k hkj hjk
    exact hkl hlj

theorem pairwise_sortedKeys (entries : List (Text × item)) :
    (sortedKeys entries).Pairwise fun j k => ¬ k < j := by
  have htrans : forall j k l : Text, (!decide (k < j)) = true -> (!decide (l < k)) = true ->
      (!decide (l < j)) = true := by
    intro j k l hjk hkl
    rw [Bool.not_eq_true', decide_eq_false_iff_not] at hjk hkl ⊢
    exact not_lt_trans hjk hkl
  have htotal : forall j k : Text, (!decide (k < j) || !decide (j < k)) = true := by
    intro j k
    rw [Bool.or_eq_true, Bool.not_eq_true', Bool.not_eq_true', decide_eq_false_iff_not,
      decide_eq_false_iff_not]
    exact or_not_of_imp List.lt_asymm
  apply (List.pairwise_mergeSort htrans htotal (keys entries)).imp
  intro j k h
  rwa [Bool.not_eq_true', decide_eq_false_iff_not] at h

theorem keys_ofEntries (hkeys : (keys entries).Nodup) :
    keys (ofEntries entries) = sortedKeys entries := by
  have hperm : (keys (ofEntries entries)).Perm (sortedKeys entries) :=
    ((ofEntries_perm hkeys).map Prod.fst).trans (List.mergeSort_perm _ _).symm
  have htable : (keys (ofEntries entries)).Pairwise fun j k => ¬ k < j :=
    (sorted_ofEntries entries).pairwise_keys.imp List.lt_asymm
  exact hperm.eq_of_pairwise
    (fun j k _ _ hjk hkj => Std.Trichotomous.trichotomous (r := (· < ·)) j k hkj hjk) htable
    (pairwise_sortedKeys entries)

end Table

namespace Value

variable {entries others : List (Text × Value)}

/-!
## Printing and comparing
-/

/-- A map is printed by sorting the keys of its entries and looking each of them up. -/
def displayVisited (entries : List (Text × Value)) : Text :=
  "map".toList ++ bracketed ((Table.sortedKeys entries).map fun key =>
    key ++ ':' :: ((Table.find? key entries).map display).getD [])

/-- Maps are compared by counting their entries, and by looking up in the second one what
each entry of the first one binds. -/
def alikeVisited (entries others : List (Text × Value)) : Bool :=
  entries.length = others.length &&
    entries.all fun entry =>
      (Table.find? entry.1 others).any fun other => entry.2.alike other

theorem display_ofEntries (hkeys : (Table.keys entries).Nodup) :
    (map (Table.ofEntries entries)).display = displayVisited entries := by
  rw [display, displayEntries_eq_map, displayVisited, ← Table.keys_ofEntries hkeys,
    Table.keys, List.map_map]
  congr 2
  apply List.map_congr_left
  intro entry hmem
  have hfind := (Table.sorted_ofEntries entries).find?_of_mem hmem
  rw [Table.find?_ofEntries hkeys] at hfind
  show _ = entry.1 ++ ':' :: ((Table.find? entry.1 entries).map display).getD []
  rw [hfind]
  rfl

theorem alike_ofEntries (hkeys : (Table.keys entries).Nodup)
    (hothers : (Table.keys others).Nodup) :
    (map (Table.ofEntries entries)).alike (map (Table.ofEntries others)) =
      alikeVisited entries others := by
  rw [alike, alikeVisited, Bool.eq_iff_iff, alikeEntries_iff_forall₂,
    Table.forall₂_ofEntries (fun a b : Value => a.alike b = true) hkeys hothers,
    Bool.and_eq_true, decide_eq_true_eq, List.all_eq_true]
  simp only [Option.any_eq_true]

structure Visited (entries : List (Text × Value)) : Prop where
  display : (map (Table.ofEntries entries)).display = displayVisited entries
  get? : forall key, (map (Table.ofEntries entries)).get? key = Table.find? key entries
  alike : forall others, (Table.keys others).Nodup ->
    (map (Table.ofEntries entries)).alike (map (Table.ofEntries others)) =
      alikeVisited entries others

theorem visited_of_nodup (hkeys : (Table.keys entries).Nodup) : Visited entries :=
  ⟨display_ofEntries hkeys, Table.find?_ofEntries hkeys, fun _ hothers =>
    alike_ofEntries hkeys hothers⟩

end Value

end Stencil
