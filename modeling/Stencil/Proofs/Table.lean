import Mathlib.Data.List.Induction
import Mathlib.Data.List.Nodup
import Mathlib.Data.List.Perm.Subperm
import Stencil.Table

/-!
# Sorted tables

## Entries and lookups

Any table binds a key by one of its entries.  When the keys of a table increase
strictly every entry binds its key, so that the table is the finite map of its
lookups.  In particular a table is settled by its keys and what they are bound
to, and two sorted tables of the same size have the same keys as soon as one of
them has all keys of the other.
-/

namespace Stencil

namespace Table

variable {item other : Type} {table : Table item} {key : Text} {value : item}

theorem mem_of_find? (h : find? key table = some value) : (key, value) ∈ table := by
  induction table with
  | nil =>
      cases h
  | cons entry rest ih =>
      rcases entry with ⟨k, found⟩
      rw [find?_cons] at h
      split at h
      case isTrue hkey =>
        cases h
        subst hkey
        exact List.mem_cons_self
      case isFalse =>
        exact List.mem_cons_of_mem _ (ih h)

theorem mem_keys_iff : key ∈ keys table ↔ (find? key table).isSome = true := by
  induction table with
  | nil => simp [keys]
  | cons entry rest ih =>
      rcases entry with ⟨k, found⟩
      rw [keys, List.map_cons, ← keys, List.mem_cons, ih, find?_cons]
      by_cases hkey : key = k
      · simp [hkey]
      · simp [hkey]

theorem find?_of_mem (hkeys : (keys table).Nodup) (hmem : (key, value) ∈ table) :
    find? key table = some value := by
  induction table with
  | nil =>
      cases hmem
  | cons entry rest ih =>
      rcases entry with ⟨k, first⟩
      rcases List.nodup_cons.mp hkeys with ⟨hfirst, hrest⟩
      rw [find?_cons]
      rcases List.mem_cons.mp hmem with heq | hlater
      · cases heq
        exact if_pos rfl
      · have hne : key ≠ k := by
          intro hkey
          subst hkey
          exact hfirst (List.mem_map.mpr ⟨_, hlater, rfl⟩)
        rw [if_neg hne]
        exact ih hrest hlater

theorem find?_eq_some_iff (hkeys : (keys table).Nodup) :
    find? key table = some value ↔ (key, value) ∈ table :=
  ⟨mem_of_find?, find?_of_mem hkeys⟩

theorem find?_eq_of_perm {others : Table item} (h : table.Perm others)
    (hkeys : (keys table).Nodup) (key : Text) : find? key table = find? key others := by
  have hothers : (keys others).Nodup := (h.map Prod.fst).nodup_iff.mp hkeys
  apply Option.ext
  intro value
  rw [find?_eq_some_iff hkeys, find?_eq_some_iff hothers]
  exact h.mem_iff

theorem Sorted.of_cons {entry : Text × item} (h : Sorted (entry :: table)) :
    Sorted table :=
  List.Pairwise.of_cons h

theorem Sorted.ne_of_mem {k : Text} {first : item} (h : Sorted ((k, first) :: table))
    (hmem : (key, value) ∈ table) : key ≠ k := by
  intro hkey
  subst hkey
  exact List.lt_irrefl key (List.rel_of_pairwise_cons h hmem)

theorem Sorted.pairwise_keys (h : Sorted table) : (keys table).Pairwise (· < ·) :=
  List.pairwise_map.mpr h

theorem Sorted.nodup_keys (h : Sorted table) : (keys table).Nodup := by
  apply h.pairwise_keys.imp
  intro j k hlt hkey
  subst hkey
  exact List.lt_irrefl j hlt

theorem Sorted.find?_of_mem (h : Sorted table) (hmem : (key, value) ∈ table) :
    find? key table = some value :=
  Table.find?_of_mem h.nodup_keys hmem

/-- There is only one way to sort the entries of a table. -/
theorem Sorted.eq_of_perm {others : Table item} (h : Sorted table)
    (hothers : Sorted others) (hperm : table.Perm others) : table = others :=
  hperm.eq_of_pairwise (fun _ _ _ _ hab hba => absurd hab (List.lt_asymm hba)) h hothers

theorem Sorted.nodup (h : Sorted table) : table.Nodup :=
  List.Nodup.of_map Prod.fst h.nodup_keys

theorem Sorted.ext {others : Table item} (h : Sorted table) (hothers : Sorted others)
    (hfind : forall key, find? key table = find? key others) : table = others := by
  apply h.eq_of_perm hothers
  rw [List.perm_ext_iff_of_nodup h.nodup hothers.nodup]
  intro entry
  rcases entry with ⟨key, value⟩
  rw [← find?_eq_some_iff h.nodup_keys, ← find?_eq_some_iff hothers.nodup_keys, hfind key]

theorem Sorted.keys_eq {xs : Table item} {ys : Table other} (hxs : Sorted xs)
    (hys : Sorted ys) (hlength : xs.length = ys.length)
    (hsubset : keys xs ⊆ keys ys) : keys xs = keys ys := by
  have hle : (keys ys).length ≤ (keys xs).length := by
    simp [keys, hlength]
  have hperm : (keys xs).Perm (keys ys) :=
    (List.subperm_of_subset hxs.nodup_keys hsubset).perm_of_length_le hle
  exact hperm.eq_of_pairwise
    (fun _ _ _ _ hab hba => absurd hab (List.lt_asymm hba))
    hxs.pairwise_keys hys.pairwise_keys

/-!
## Comparing tables by their lookups

Two tables can be compared entry by entry or by lookups.  For sorted tables this comes to
the same: as many entries, and each entry of the first related to what the second one
binds to its key.
-/

private theorem forall₂_of_keys_eq {R : item -> other -> Prop} {xs : Table item}
    {ys : Table other} (hxs : Sorted xs) (hkeys : keys xs = keys ys)
    (h : forall key a, (key, a) ∈ xs -> exists b, find? key ys = some b ∧ R a b) :
    List.Forall₂ (fun x y => x.1 = y.1 ∧ R x.2 y.2) xs ys := by
  induction xs generalizing ys with
  | nil =>
      cases ys with
      | nil => exact List.Forall₂.nil
      | cons y ys => cases hkeys
  | cons x xs ih =>
      cases ys with
      | nil => cases hkeys
      | cons y ys =>
          rcases x with ⟨j, a⟩
          rcases y with ⟨k, b⟩
          rcases List.cons.inj hkeys with ⟨hkey, hrest⟩
          cases hkey
          rcases h j a List.mem_cons_self with ⟨b', hfind, hab⟩
          rw [find?_cons, if_pos rfl] at hfind
          cases hfind
          refine List.Forall₂.cons ⟨rfl, hab⟩ (ih hxs.of_cons hrest ?_)
          intro key c hmem
          rcases h key c (List.mem_cons_of_mem _ hmem) with ⟨d, hfind, hcd⟩
          rw [find?_cons, if_neg (hxs.ne_of_mem hmem)] at hfind
          exact ⟨d, hfind, hcd⟩

private theorem find?_of_forall₂ {R : item -> other -> Prop} {xs : Table item}
    {ys : Table other} (hys : Sorted ys)
    (h : List.Forall₂ (fun x y => x.1 = y.1 ∧ R x.2 y.2) xs ys) {key : Text} {a : item}
    (hmem : (key, a) ∈ xs) : exists b, find? key ys = some b ∧ R a b := by
  induction h with
  | nil => cases hmem
  | @cons x y xs ys hhead _ ih =>
      rcases y with ⟨k, b⟩
      rcases List.mem_cons.mp hmem with heq | hlater
      · cases heq
        exact ⟨b, by rw [find?_cons, if_pos hhead.1], hhead.2⟩
      · rcases ih hys.of_cons hlater with ⟨c, hfind, hac⟩
        have hne : key ≠ k := hys.ne_of_mem (mem_of_find? hfind)
        exact ⟨c, by rw [find?_cons, if_neg hne, hfind], hac⟩

theorem Sorted.forall₂_iff_find? {R : item -> other -> Prop} {xs : Table item}
    {ys : Table other} (hxs : Sorted xs) (hys : Sorted ys) :
    List.Forall₂ (fun x y => x.1 = y.1 ∧ R x.2 y.2) xs ys ↔
      xs.length = ys.length ∧
        forall key a, (key, a) ∈ xs -> exists b, find? key ys = some b ∧ R a b := by
  constructor
  · intro h
    exact ⟨h.length_eq, fun _ _ hmem => find?_of_forall₂ hys h hmem⟩
  · rintro ⟨hlength, h⟩
    apply forall₂_of_keys_eq hxs (hxs.keys_eq hys hlength ?_) h
    intro key hkey
    rcases List.mem_map.mp hkey with ⟨⟨_, a⟩, hmem, rfl⟩
    rcases h _ a hmem with ⟨b, hfind, _⟩
    exact List.mem_map.mpr ⟨_, mem_of_find? hfind, rfl⟩

/-!
## Inserting keeps the order
-/

theorem mem_of_mem_insert {entry : Text × item} {new : item}
    (h : entry ∈ insert key new table) : entry.1 = key ∨ entry ∈ table := by
  induction table with
  | nil =>
      exact Or.inl (congrArg Prod.fst (List.mem_singleton.mp h))
  | cons first rest ih =>
      rcases first with ⟨k, old⟩
      unfold insert at h
      split at h
      · rcases List.mem_cons.mp h with rfl | hmem
        · exact Or.inl rfl
        · exact Or.inr hmem
      · split at h
        · rcases List.mem_cons.mp h with rfl | hmem
          · exact Or.inl rfl
          · exact Or.inr (List.mem_cons_of_mem _ hmem)
        · rcases List.mem_cons.mp h with rfl | hmem
          · exact Or.inr List.mem_cons_self
          · exact (ih hmem).imp_right (List.mem_cons_of_mem _)

theorem Sorted.insert (h : Sorted table) (key : Text) (new : item) :
    Sorted (insert key new table) := by
  induction table with
  | nil =>
      exact List.pairwise_singleton _ _
  | cons first rest ih =>
      rcases first with ⟨k, old⟩
      rcases List.pairwise_cons.mp h with ⟨hfirst, hrest⟩
      unfold Table.insert
      split
      case isTrue hlt =>
        refine List.pairwise_cons.mpr ⟨?_, h⟩
        intro entry hmem
        rcases List.mem_cons.mp hmem with rfl | hmem
        · exact hlt
        · exact List.lt_trans hlt (hfirst entry hmem)
      case isFalse hge =>
        split
        case isTrue heq =>
          subst heq
          exact List.pairwise_cons.mpr ⟨hfirst, hrest⟩
        case isFalse hne =>
          refine List.pairwise_cons.mpr ⟨?_, ih hrest⟩
          intro entry hmem
          rcases mem_of_mem_insert hmem with hkey | hmem
          · rw [hkey]
            by_contra hle
            exact hne (Std.Trichotomous.trichotomous (r := (· < ·)) key k hge hle)
          · exact hfirst entry hmem

/-!
## Inserting entries in turn

Of equal keys the last one counts.  When the keys are different, their order does not.
-/

theorem find?_append (key : Text) (table others : Table item) :
    find? key (table ++ others) = (find? key table).or (find? key others) :=
  List.lookup_append

theorem find?_insertAll (key : Text) (table : Table item)
    (entries : List (Text × item)) :
    find? key (insertAll table entries) =
      (find? key entries.reverse).or (find? key table) := by
  induction entries generalizing table with
  | nil => rfl
  | cons entry rest ih =>
      rcases entry with ⟨k, new⟩
      rw [insertAll, List.foldl_cons, ← insertAll, ih, List.reverse_cons, find?_append,
        Option.or_assoc]
      congr 1
      by_cases hkey : key = k
      · subst hkey
        rw [find?_insert_self, find?_cons, if_pos rfl]
        rfl
      · rw [find?_insert_of_ne hkey, find?_cons, if_neg hkey]
        rfl

theorem Sorted.insertAll (h : Sorted table) (entries : List (Text × item)) :
    Sorted (insertAll table entries) := by
  induction entries generalizing table with
  | nil => exact h
  | cons entry rest ih => exact ih (h.insert entry.1 entry.2)

theorem sorted_ofEntries (entries : List (Text × item)) : Sorted (ofEntries entries) :=
  Sorted.insertAll List.Pairwise.nil entries

theorem find?_ofEntries {entries : List (Text × item)} (hkeys : (keys entries).Nodup)
    (key : Text) : find? key (ofEntries entries) = find? key entries := by
  have hreverse : (keys entries.reverse).Nodup :=
    ((List.reverse_perm entries).map Prod.fst).nodup_iff.mpr hkeys
  unfold ofEntries
  rw [find?_insertAll, find?_nil, Option.or_none]
  exact find?_eq_of_perm (List.reverse_perm entries) hreverse key

/-- Entries with different keys are the entries of their table. -/
theorem ofEntries_perm {entries : List (Text × item)} (hkeys : (keys entries).Nodup) :
    (ofEntries entries).Perm entries := by
  have hsorted := sorted_ofEntries entries
  rw [List.perm_ext_iff_of_nodup hsorted.nodup (List.Nodup.of_map Prod.fst hkeys)]
  intro entry
  rcases entry with ⟨key, value⟩
  rw [← find?_eq_some_iff hsorted.nodup_keys, find?_ofEntries hkeys,
    find?_eq_some_iff hkeys]

/-- The table of entries with different keys does not depend on their order. -/
theorem ofEntries_eq_of_perm {entries others : List (Text × item)}
    (h : entries.Perm others) (hkeys : (keys entries).Nodup) :
    ofEntries entries = ofEntries others := by
  have hothers : (keys others).Nodup := (h.map Prod.fst).nodup_iff.mp hkeys
  apply (sorted_ofEntries entries).eq_of_perm (sorted_ofEntries others)
  exact (ofEntries_perm hkeys).trans (h.trans (ofEntries_perm hothers).symm)

theorem forall₂_ofEntries (R : item -> other -> Prop) {entries : List (Text × item)}
    {others : List (Text × other)} (hkeys : (keys entries).Nodup)
    (hothers : (keys others).Nodup) :
    List.Forall₂ (fun x y => x.1 = y.1 ∧ R x.2 y.2) (ofEntries entries) (ofEntries others) ↔
      entries.length = others.length ∧
        forall entry, entry ∈ entries ->
          exists b, find? entry.1 others = some b ∧ R entry.2 b := by
  have hperm := ofEntries_perm hkeys
  rw [(sorted_ofEntries entries).forall₂_iff_find? (sorted_ofEntries others),
    hperm.length_eq, (ofEntries_perm hothers).length_eq]
  refine and_congr_right fun _ => ?_
  constructor
  · intro h entry hmem
    rcases h entry.1 entry.2 (hperm.mem_iff.mpr hmem) with ⟨b, hfind, hab⟩
    exact ⟨b, by rw [← find?_ofEntries hothers, hfind], hab⟩
  · intro h key a hmem
    rcases h (key, a) (hperm.mem_iff.mp hmem) with ⟨b, hfind, hab⟩
    exact ⟨b, by rw [find?_ofEntries hothers, hfind], hab⟩

/-!
## The last entries

The table of some entries binds each key as the last entry with it does; nothing else is
known about it, but that is everything.
-/

def IsLast (entries : List (Text × item)) (key : Text) (value : item) : Prop :=
  exists before after, entries = before ++ (key, value) :: after ∧ key ∉ keys after

theorem not_isLast_nil : ¬ IsLast [] key value := by
  rintro ⟨before, after, hnil, _⟩
  cases before <;> cases hnil

theorem isLast_concat {entries : List (Text × item)} {k : Text} {new : item} :
    IsLast (entries ++ [(k, new)]) key value ↔
      (key = k ∧ value = new) ∨ (key ≠ k ∧ IsLast entries key value) := by
  constructor
  · rintro ⟨before, after, heq, hafter⟩
    rcases List.eq_nil_or_concat' after with rfl | ⟨front, last, rfl⟩
    · cases List.singleton_inj.mp (List.append_inj_right' heq rfl)
      exact Or.inl ⟨rfl, rfl⟩
    · rw [← List.cons_append, ← List.append_assoc] at heq
      cases List.singleton_inj.mp (List.append_inj_right' heq rfl)
      simp only [keys, List.map_append, List.map_cons, List.map_nil, List.mem_append,
        List.mem_singleton, not_or] at hafter
      exact Or.inr ⟨hafter.2, before, front, List.append_inj_left' heq rfl, hafter.1⟩
  · rintro (⟨rfl, rfl⟩ | ⟨hne, before, after, rfl, hafter⟩)
    · exact ⟨entries, [], rfl, List.not_mem_nil⟩
    · refine ⟨before, after ++ [(k, new)], by simp, ?_⟩
      simpa [keys, hne] using hafter

structure BindsLast (entries : List (Text × item)) (table : Table item) : Prop where
  sorted : Sorted table
  find?_eq_some_iff : forall key value,
    find? key table = some value ↔ IsLast entries key value

theorem ofEntries_concat (entries : List (Text × item)) (key : Text) (new : item) :
    ofEntries (entries ++ [(key, new)]) = insert key new (ofEntries entries) :=
  List.foldl_append

theorem bindsLast_ofEntries (entries : List (Text × item)) :
    BindsLast entries (ofEntries entries) := by
  refine ⟨sorted_ofEntries entries, ?_⟩
  induction entries using List.reverseRecOn with
  | nil => simp [ofEntries, insertAll, not_isLast_nil]
  | append_singleton entries last ih =>
      intro key value
      rcases last with ⟨k, new⟩
      rw [ofEntries_concat, isLast_concat]
      by_cases hkey : key = k
      · subst hkey
        simp [find?_insert_self, eq_comm]
      · simp [find?_insert_of_ne hkey, ih, hkey]

theorem BindsLast.unique {entries : List (Text × item)} {other : Table item}
    (h : BindsLast entries table) (hother : BindsLast entries other) :
    table = other := by
  apply h.sorted.ext hother.sorted
  intro key
  apply Option.ext
  intro value
  rw [h.find?_eq_some_iff, hother.find?_eq_some_iff]

/-!
## Erasing
-/

theorem find?_erase_self (erased : Text) (table : Table item) :
    find? erased (erase erased table) = none := by
  induction table with
  | nil => rfl
  | cons entry rest ih =>
      rcases entry with ⟨k, found⟩
      unfold erase at ih ⊢
      by_cases hk : k = erased
      · rw [List.filter_cons_of_neg (by simp [hk])]
        exact ih
      · rw [List.filter_cons_of_pos (by simp [hk]), find?_cons, if_neg (Ne.symm hk)]
        exact ih

theorem find?_erase_of_ne {erased : Text} (hne : key ≠ erased) (table : Table item) :
    find? key (erase erased table) = find? key table := by
  induction table with
  | nil => rfl
  | cons entry rest ih =>
      rcases entry with ⟨k, found⟩
      unfold erase at ih ⊢
      rw [find?_cons]
      by_cases hk : k = erased
      · have hkey : key ≠ k := fun hkey => hne (hkey.trans hk)
        rw [List.filter_cons_of_neg (by simp [hk]), if_neg hkey]
        exact ih
      · rw [List.filter_cons_of_pos (by simp [hk]), find?_cons, ih]

theorem find?_of_find?_erase {erased : Text}
    (h : find? key (erase erased table) = some value) : find? key table = some value := by
  by_cases hkey : key = erased
  · subst hkey
    rw [find?_erase_self] at h
    cases h
  · rwa [find?_erase_of_ne hkey] at h

theorem erase_of_find?_eq_none {erased : Text} (h : find? erased table = none) :
    erase erased table = table := by
  rw [erase, List.filter_eq_self]
  intro entry hmem
  have hne : entry.1 ≠ erased := by
    intro hkey
    have hbound : erased ∈ keys table := List.mem_map.mpr ⟨entry, hmem, hkey⟩
    rw [mem_keys_iff, h] at hbound
    cases hbound
  simpa using hne

theorem Sorted.erase (h : Sorted table) (erased : Text) : Sorted (erase erased table) :=
  List.Pairwise.filter _ h

/-!
## Changing the items
-/

def mapItems (f : Text -> item -> other) (table : Table item) : Table other :=
  table.map fun entry => (entry.1, f entry.1 entry.2)

theorem find?_mapItems (f : Text -> item -> other) (key : Text) (table : Table item) :
    find? key (mapItems f table) = (find? key table).map (f key) := by
  induction table with
  | nil => rfl
  | cons entry rest ih =>
      rcases entry with ⟨k, found⟩
      rw [mapItems, List.map_cons, ← mapItems, find?_cons, find?_cons]
      by_cases hkey : key = k
      · subst hkey
        rw [if_pos rfl, if_pos rfl]
        rfl
      · rw [if_neg hkey, if_neg hkey]
        exact ih

theorem mapItems_insert (f : Text -> item -> other) (key : Text) (new : item)
    (table : Table item) :
    mapItems f (insert key new table) = insert key (f key new) (mapItems f table) := by
  induction table with
  | nil => rfl
  | cons entry rest ih =>
      rcases entry with ⟨k, old⟩
      unfold mapItems at ih ⊢
      rw [List.map_cons, insert, insert]
      split
      · rfl
      · split
        · rfl
        · rw [List.map_cons, ih]

/-!
## One table over another
-/

/-- The bindings of both tables; the first wins where both bind a key. -/
def overlay (inner outer : Table item) : Table item :=
  inner.foldr (fun entry acc => insert entry.1 entry.2 acc) outer

theorem find?_overlay (key : Text) (inner outer : Table item) :
    find? key (overlay inner outer) = (find? key inner).or (find? key outer) := by
  induction inner with
  | nil => rfl
  | cons entry rest ih =>
      rcases entry with ⟨k, first⟩
      rw [overlay, List.foldr_cons, ← overlay, find?_cons]
      by_cases hkey : key = k
      · rw [hkey, find?_insert_self, if_pos rfl, Option.some_or]
      · rw [find?_insert_of_ne hkey, ih, if_neg hkey]

theorem Sorted.overlay {outer : Table item} (h : Sorted outer) (inner : Table item) :
    Sorted (overlay inner outer) := by
  induction inner with
  | nil => exact h
  | cons entry rest ih => exact ih.insert entry.1 entry.2

end Table

end Stencil
