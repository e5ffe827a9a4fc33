import Mathlib.Data.List.Perm.Basic
import Stencil.Proofs.Data.Entries

/-!
# The order of entries

## Reordered data

Data is reordered by permuting the entries of a map or the fields of a record, anywhere
inside, as often as one likes.  The entries that change places have different keys: of
equal keys the last one counts, so their order matters.

Reordered data has the same value.  At the place of the change this holds because the
table of entries with different keys does not depend on their order.  Around it, a part
may be replaced by any other part that has the same value.
-/

namespace Stencil

theorem forall₂_replace {source target : Type} {R : source -> target -> Prop}
    {x y : source} {before after : List source} {targets : List target}
    (h : List.Forall₂ R (before ++ x :: after) targets)
    (hxy : forall t, R x t -> R y t) :
    List.Forall₂ R (before ++ y :: after) targets := by
  induction before generalizing targets with
  | nil =>
      cases h with
      | cons hx hafter => exact List.Forall₂.cons (hxy _ hx) hafter
  | cons first before ih =>
      cases h with
      | cons hfirst hrest => exact List.Forall₂.cons hfirst (ih hrest)

/-- Sources of entries with different labels fill the same table in any order, if the
labels tell the keys. -/
theorem Table.exists_ofEntries_eq_of_perm {source label item : Type}
    {fills : source -> Text × item -> Prop} {labelOf : source -> label}
    (ofKey : Text -> label) {sources others : List source} {entries : List (Text × item)}
    (hlabel : forall s entry, fills s entry -> labelOf s = ofKey entry.1)
    (hperm : sources.Perm others) (hlabels : (sources.map labelOf).Nodup)
    (h : List.Forall₂ fills sources entries) :
    exists entries', List.Forall₂ fills others entries' ∧
      ofEntries entries = ofEntries entries' := by
  rcases List.perm_comp_forall₂ hperm.symm h with ⟨entries', h', hentries⟩
  have hmap : sources.map labelOf = (keys entries).map ofKey := by
    clear hperm hlabels hentries
    induction h with
    | nil => rfl
    | cons hfirst _ ih =>
        rw [List.map_cons, hlabel _ _ hfirst, ih]
        rfl
  have hkeys : (keys entries).Nodup := by
    rw [hmap] at hlabels
    exact List.Nodup.of_map ofKey hlabels
  exact ⟨entries', h', ofEntries_eq_of_perm hentries.symm hkeys⟩

/-!
## Data that is handed over
-/

namespace Serial

inductive Reordered : Serial -> Serial -> Prop where
  | same (d : Serial) : Reordered d d
  | trans {d e f : Serial} : Reordered d e -> Reordered e f -> Reordered d f
  | wrapped (wrapper : Wrapper) {d e : Serial} :
      Reordered d e -> Reordered (wrapped wrapper d) (wrapped wrapper e)
  | item (form : RowForm) (before after : List Serial) {d e : Serial} :
      Reordered d e ->
      Reordered (row form (before ++ d :: after)) (row form (before ++ e :: after))
  | field (form : RecordForm) (name : Text) (before after : List (Text × Serial))
      {d e : Serial} :
      Reordered d e ->
      Reordered (record form (before ++ (name, d) :: after))
        (record form (before ++ (name, e) :: after))
  | slot (role : Slot) (before after : List (Slot × Serial)) {d e : Serial} :
      Reordered d e ->
      Reordered (slots (before ++ (role, d) :: after))
        (slots (before ++ (role, e) :: after))
  | fields (form : RecordForm) {fields others : List (Text × Serial)} :
      fields.Perm others -> (fields.map Prod.fst).Nodup ->
      Reordered (record form fields) (record form others)
  | entries (rest : List (Slot × Serial)) {entries others : List SlotEntry} :
      entries.Perm others -> (entries.map fun e => e.key.shownKey?).Nodup ->
      Reordered (slots (entries.flatMap SlotEntry.parts ++ rest))
        (slots (others.flatMap SlotEntry.parts ++ rest))

theorem valueSlots_replace {d e : Serial} {role : Slot}
    {before after : List (Slot × Serial)} {b b' : MapBuilder}
    (hde : forall v, d.value = Except.ok v -> e.value = Except.ok v)
    (h : valueSlots b (before ++ (role, d) :: after) = Except.ok b') :
    valueSlots b (before ++ (role, e) :: after) = Except.ok b' := by
  induction before generalizing b with
  | nil =>
      rw [List.nil_append, valueSlots] at h ⊢
      cases hd : d.value with
      | error fault =>
          rw [hd] at h
          cases h
      | ok v =>
          rw [hd] at h
          rw [hde v hd]
          exact h
  | cons first before ih =>
      rcases first with ⟨slot, part⟩
      rw [List.cons_append, valueSlots] at h ⊢
      cases hpart : part.value with
      | error fault =>
          rw [hpart] at h
          cases h
      | ok v =>
          rw [hpart] at h
          dsimp only at h ⊢
          cases hput : b.put v slot with
          | error fault =>
              rw [hput] at h
              cases h
          | ok next =>
              rw [hput] at h
              exact ih h

theorem Reordered.value_eq {d e : Serial} (h : Reordered d e) :
    forall {v : Value}, d.value = Except.ok v -> e.value = Except.ok v := by
  induction h with
  | same d => exact id
  | trans _ _ ihde ihef => exact fun hd => ihef (ihde hd)
  | wrapped wrapper _ ih => exact ih
  | item form before after _ ih =>
      intro v hd
      rcases value_row_eq_ok_iff.mp hd with ⟨vs, hvs, rfl⟩
      exact value_row_eq_ok_iff.mpr ⟨vs, forall₂_replace hvs fun _ => ih, rfl⟩
  | field form name before after _ ih =>
      intro v hd
      rcases value_record_eq_ok_iff.mp hd with ⟨entries, hentries, rfl⟩
      refine value_record_eq_ok_iff.mpr ⟨entries, ?_, rfl⟩
      exact forall₂_replace hentries fun _ hfills => ⟨hfills.1, ih hfills.2⟩
  | slot role before after _ ih =>
      intro v hd
      rcases value_slots_eq_ok_iff.mp hd with ⟨b, hb, rfl⟩
      exact value_slots_eq_ok_iff.mpr ⟨b, valueSlots_replace (fun _ => ih) hb, rfl⟩
  | fields form hperm hnames =>
      intro v hd
      rcases value_record_eq_ok_iff.mp hd with ⟨entries, hentries, rfl⟩
      rcases Table.exists_ofEntries_eq_of_perm id (fun _ _ hfills => hfills.1) hperm hnames
        hentries with ⟨entries', hentries', htable⟩
      exact value_record_eq_ok_iff.mpr ⟨entries', hentries', by rw [htable]⟩
  | entries rest hperm hkeys =>
      intro v hd
      rcases value_slots_eq_ok_iff.mp hd with ⟨b, hb, rfl⟩
      rcases valueSlots_entries_eq_ok_iff.mp hb with ⟨entries, hentries, hrest⟩
      rcases Table.exists_ofEntries_eq_of_perm some (fun _ _ hfills => hfills.key) hperm
        hkeys hentries with ⟨entries', hentries', htable⟩
      refine value_slots_eq_ok_iff.mpr ⟨b, ?_, rfl⟩
      refine valueSlots_entries_eq_ok_iff.mpr ⟨entries', hentries', ?_⟩
      rw [← Table.ofEntries, ← htable]
      exact hrest

end Serial

/-!
## Data that is presented to a reader
-/

namespace Presented

inductive Reordered : Presented -> Presented -> Prop where
  | same (d : Presented) : Reordered d d
  | trans {d e f : Presented} : Reordered d e -> Reordered e f -> Reordered d f
  | present {d e : Presented} : Reordered d e -> Reordered (present d) (present e)
  | newtype {d e : Presented} : Reordered d e -> Reordered (newtype d) (newtype e)
  | item (before after : List Presented) {d e : Presented} :
      Reordered d e -> Reordered (row (before ++ d :: after)) (row (before ++ e :: after))
  | entry (key : Presented) (before after : List (Presented × Presented))
      {d e : Presented} :
      Reordered d e ->
      Reordered (map (before ++ (key, d) :: after)) (map (before ++ (key, e) :: after))
  | entries {pairs others : List (Presented × Presented)} :
      pairs.Perm others -> (pairs.map fun pair => pair.1.key).Nodup ->
      Reordered (map pairs) (map others)

theorem Reordered.value_eq {d e : Presented} (h : Reordered d e) :
    forall {v : Value}, d.value = Except.ok v -> e.value = Except.ok v := by
  induction h with
  | same d => exact id
  | trans _ _ ihde ihef => exact fun hd => ihef (ihde hd)
  | present _ ih => exact ih
  | newtype _ ih => exact ih
  | item before after _ ih =>
      intro v hd
      rcases value_row_eq_ok_iff.mp hd with ⟨vs, hvs, rfl⟩
      exact value_row_eq_ok_iff.mpr ⟨vs, forall₂_replace hvs fun _ => ih, rfl⟩
  | entry key before after _ ih =>
      intro v hd
      rcases value_map_eq_ok_iff.mp hd with ⟨entries, hentries, rfl⟩
      refine value_map_eq_ok_iff.mpr ⟨entries, ?_, rfl⟩
      exact forall₂_replace hentries fun _ hfills => ⟨hfills.1, ih hfills.2⟩
  | entries hperm hkeys =>
      intro v hd
      rcases value_map_eq_ok_iff.mp hd with ⟨entries, hentries, rfl⟩
      rcases Table.exists_ofEntries_eq_of_perm Except.ok (fun _ _ hfills => hfills.1) hperm
        hkeys hentries with ⟨entries', hentries', htable⟩
      exact value_map_eq_ok_iff.mpr ⟨entries', hentries', by rw [htable]⟩

end Presented

/-!
## Native data
-/

namespace Native

inductive Reordered : Native -> Native -> Prop where
  | same (n : Native) : Reordered n n
  | trans {m n k : Native} : Reordered m n -> Reordered n k -> Reordered m k
  | present {m n : Native} : Reordered m n -> Reordered (present m) (present n)
  | reference {m n : Native} : Reordered m n -> Reordered (reference m) (reference n)
  | item (before after : List Native) {m n : Native} :
      Reordered m n ->
      Reordered (list (before ++ m :: after)) (list (before ++ n :: after))
  | entry (key : Text) (before after : List (Text × Native)) {m n : Native} :
      Reordered m n ->
      Reordered (map (before ++ (key, m) :: after)) (map (before ++ (key, n) :: after))
  | entries {entries others : List (Text × Native)} :
      entries.Perm others -> (Table.keys entries).Nodup ->
      Reordered (map entries) (map others)

theorem Reordered.toValue_eq {m n : Native} (h : Reordered m n) :
    m.toValue = n.toValue := by
  induction h with
  | same n => rfl
  | trans _ _ ihmn ihnk => exact ihmn.trans ihnk
  | present _ ih => exact ih
  | reference _ ih => exact ih
  | item before after _ ih =>
      rw [toValue, toValue, toValues_eq_map, toValues_eq_map, List.map_append,
        List.map_append, List.map_cons, List.map_cons, ih]
  | entry key before after _ ih =>
      unfold toValue
      rw [insertEntries_eq_insertAll, insertEntries_eq_insertAll, List.map_append,
        List.map_append, List.map_cons, List.map_cons, ih]
  | @entries entries others hperm hkeys =>
      have hvalues : (Table.keys (valueEntries entries)).Nodup := by
        rw [Table.keys, valueEntries, List.map_map]
        exact hkeys
      have hother : (valueEntries entries).Perm (valueEntries others) := hperm.map _
      rw [toValue_map, toValue_map, Table.ofEntries_eq_of_perm hother hvalues]

end Native

end Stencil
