import Mathlib.Data.List.Forall2
import Stencil.Data.Native
import Stencil.Data.Presented
import Stencil.Data.Serial
import Stencil.Proofs.Attempts
import Stencil.Proofs.Table

/-!
# Entries of described data

## How maps are built

Three kinds of described data are turned into template data: data that is handed over,
data that is presented to a reader, and native data.  Each way has its own faults, and its
own loop that puts the entries of a map into a table.  If a way succeeds then each entry
has a key and a value of its own, and the table is the one of these entries inserted in
turn; so what is known of tables holds on every way.
-/

namespace Stencil

namespace Value

/-- The text of a value that is used as a map key; only scalars other than bytes are. -/
def keyText? : Value -> Option Text
  | map _ => none
  | list _ => none
  | bytes _ => none
  | v => some v.display

end Value

theorem MapBuilder.putKey_eq (b : MapBuilder) (v : Value) :
    b.putKey v =
      match v.keyText? with
      | none => Except.error DataFault.keyNotScalar
      | some key => Except.ok { b with pending := some key } := by
  cases v with
  | _ => rfl

/-!
## Data that is handed over
-/

namespace Serial

/-- The text of a map key that is handed over, if it has one. -/
def shownKey? (key : Serial) : Option Text :=
  match key.value with
  | Except.error _ => none
  | Except.ok v => v.keyText?

theorem valueItems_eq_mapM (items : List Serial) : valueItems items = items.mapM value := by
  induction items with
  | nil => rfl
  | cons item rest ih =>
      rw [valueItems, List.mapM_cons, ih]
      cases value item with
      | error fault => rfl
      | ok v =>
          cases rest.mapM value with
          | error fault => rfl
          | ok vs => rfl

theorem valueItems_eq_ok_iff {items : List Serial} {vs : List Value} :
    valueItems items = Except.ok vs ↔
      List.Forall₂ (fun item v => value item = Except.ok v) items vs := by
  rw [valueItems_eq_mapM, mapM_eq_ok_iff]

def Fills (field : Text × Serial) (entry : Text × Value) : Prop :=
  field.1 = entry.1 ∧ field.2.value = Except.ok entry.2

theorem valueFields_eq_ok_iff {fields : List (Text × Serial)}
    {table after : Table Value} :
    valueFields table fields = Except.ok after ↔
      exists entries, List.Forall₂ Fills fields entries ∧
        after = Table.insertAll table entries := by
  induction fields generalizing table with
  | nil =>
      rw [valueFields]
      constructor
      · intro h
        cases h
        exact ⟨[], List.Forall₂.nil, rfl⟩
      · rintro ⟨entries, hentries, rfl⟩
        cases hentries
        rfl
  | cons field rest ih =>
      rcases field with ⟨name, part⟩
      rw [valueFields]
      constructor
      · intro h
        split at h
        case h_1 => cases h
        case h_2 v hv =>
          rcases ih.mp h with ⟨entries, hentries, rfl⟩
          exact ⟨(name, v) :: entries, List.Forall₂.cons ⟨rfl, hv⟩ hentries, rfl⟩
      · rintro ⟨entries, hentries, rfl⟩
        cases hentries with
        | @cons _ entry _ entries hfirst hrest =>
            rcases entry with ⟨key, v⟩
            rcases hfirst with ⟨hkey, hv⟩
            cases hkey
            rw [hv]
            exact ih.mpr ⟨entries, hrest, rfl⟩

theorem valueSlots_key_eq_ok_iff {key : Serial} {rest : List (Slot × Serial)}
    {b after : MapBuilder} :
    valueSlots b ((Slot.key, key) :: rest) = Except.ok after ↔
      exists name, key.shownKey? = some name ∧
        valueSlots { b with pending := some name } rest = Except.ok after := by
  rw [valueSlots, shownKey?]
  cases key.value with
  | error fault => simp
  | ok v =>
      dsimp only [MapBuilder.put]
      rw [MapBuilder.putKey_eq]
      cases v.keyText? with
      | none => simp
      | some name => simp

theorem valueSlots_value_eq_ok_iff {part : Serial} {rest : List (Slot × Serial)}
    {b after : MapBuilder} :
    valueSlots b ((Slot.value, part) :: rest) = Except.ok after ↔
      exists name v, b.pending = some name ∧ part.value = Except.ok v ∧
        valueSlots ⟨Table.insert name v b.entries, none⟩ rest = Except.ok after := by
  rw [valueSlots]
  cases part.value with
  | error fault => simp
  | ok v =>
      dsimp only [MapBuilder.put]
      unfold MapBuilder.putValue
      cases b.pending with
      | none => simp
      | some name => simp

end Serial

/-- An entry of a map as it is handed over: keys that are forgotten because another key
follows, and the key that counts with the part that it gets. -/
structure SlotEntry where
  forgotten : List Serial
  key : Serial
  part : Serial

namespace SlotEntry

def parts (e : SlotEntry) : List (Slot × Serial) :=
  e.forgotten.map (fun key => (Slot.key, key)) ++
    [(Slot.key, e.key), (Slot.value, e.part)]

structure Fills (e : SlotEntry) (entry : Text × Value) : Prop where
  forgotten : forall key, key ∈ e.forgotten -> exists name, key.shownKey? = some name
  key : e.key.shownKey? = some entry.1
  part : e.part.value = Except.ok entry.2

end SlotEntry

namespace Serial

theorem valueSlots_entry_eq_ok_iff {e : SlotEntry} {rest : List (Slot × Serial)}
    {b after : MapBuilder} :
    valueSlots b (e.parts ++ rest) = Except.ok after ↔
      exists entry : Text × Value, e.Fills entry ∧
        valueSlots ⟨Table.insert entry.1 entry.2 b.entries, none⟩ rest =
          Except.ok after := by
  rcases e with ⟨forgotten, key, part⟩
  unfold SlotEntry.parts
  dsimp only
  induction forgotten generalizing b with
  | nil =>
      rw [List.map_nil, List.nil_append, List.cons_append, List.cons_append,
        List.nil_append, valueSlots_key_eq_ok_iff]
      constructor
      · rintro ⟨name, hkey, h⟩
        rcases valueSlots_value_eq_ok_iff.mp h with ⟨_, v, hpending, hv, h⟩
        cases hpending
        exact ⟨(name, v), ⟨by simp, hkey, hv⟩, h⟩
      · rintro ⟨⟨name, v⟩, hfills, h⟩
        exact ⟨name, hfills.key, valueSlots_value_eq_ok_iff.mpr ⟨name, v, rfl,
          hfills.part, h⟩⟩
  | cons first others ih =>
      rw [List.map_cons, List.cons_append, List.cons_append, valueSlots_key_eq_ok_iff]
      constructor
      · rintro ⟨name, hfirst, h⟩
        rcases ih.mp h with ⟨entry, hfills, h⟩
        refine ⟨entry, ⟨?_, hfills.key, hfills.part⟩, h⟩
        intro other hmem
        rcases List.mem_cons.mp hmem with rfl | hmem
        · exact ⟨name, hfirst⟩
        · exact hfills.forgotten other hmem
      · rintro ⟨entry, hfills, h⟩
        rcases hfills.forgotten first List.mem_cons_self with ⟨name, hfirst⟩
        have hothers : SlotEntry.Fills ⟨others, key, part⟩ entry :=
          ⟨fun other hmem => hfills.forgotten other (List.mem_cons_of_mem _ hmem),
            hfills.key, hfills.part⟩
        exact ⟨name, hfirst, ih.mpr ⟨entry, hothers, h⟩⟩

theorem valueSlots_entries_eq_ok_iff {es : List SlotEntry} {rest : List (Slot × Serial)}
    {table : Table Value} {after : MapBuilder} :
    valueSlots ⟨table, none⟩ (es.flatMap SlotEntry.parts ++ rest) = Except.ok after ↔
      exists entries, List.Forall₂ SlotEntry.Fills es entries ∧
        valueSlots ⟨Table.insertAll table entries, none⟩ rest = Except.ok after := by
  induction es generalizing table with
  | nil =>
      constructor
      · intro h
        exact ⟨[], List.Forall₂.nil, h⟩
      · rintro ⟨entries, hentries, h⟩
        cases hentries
        exact h
  | cons e others ih =>
      rw [List.flatMap_cons, List.append_assoc, valueSlots_entry_eq_ok_iff]
      constructor
      · rintro ⟨entry, hfills, h⟩
        rcases ih.mp h with ⟨entries, hentries, h⟩
        exact ⟨entry :: entries, List.Forall₂.cons hfills hentries, h⟩
      · rintro ⟨entries, hentries, h⟩
        cases hentries with
        | @cons _ entry _ entries hfills hothers =>
            exact ⟨entry, hfills, ih.mpr ⟨entries, hothers, h⟩⟩

theorem value_row (form : RowForm) (items : List Serial) :
    (row form items).value = (valueItems items).map Value.list := by
  rw [value]
  cases valueItems items <;> rfl

theorem value_record (form : RecordForm) (fields : List (Text × Serial)) :
    (record form fields).value = (valueFields [] fields).map Value.map := by
  rw [value]
  cases valueFields [] fields <;> rfl

theorem value_slots (parts : List (Slot × Serial)) :
    (slots parts).value =
      (valueSlots MapBuilder.empty parts).map fun b => Value.map b.entries := by
  rw [value]
  cases valueSlots MapBuilder.empty parts <;> rfl

theorem value_row_eq_ok_iff {form : RowForm} {items : List Serial} {v : Value} :
    (row form items).value = Except.ok v ↔
      exists vs, List.Forall₂ (fun item v => value item = Except.ok v) items vs ∧
        Value.list vs = v := by
  rw [value_row, map_eq_ok_iff]
  simp only [valueItems_eq_ok_iff]

theorem value_record_eq_ok_iff {form : RecordForm} {fields : List (Text × Serial)}
    {v : Value} :
    (record form fields).value = Except.ok v ↔
      exists entries, List.Forall₂ Fills fields entries ∧
        Value.map (Table.ofEntries entries) = v := by
  rw [value_record, map_eq_ok_iff]
  constructor
  · rintro ⟨table, htable, rfl⟩
    rcases valueFields_eq_ok_iff.mp htable with ⟨entries, hentries, rfl⟩
    exact ⟨entries, hentries, rfl⟩
  · rintro ⟨entries, hentries, rfl⟩
    exact ⟨_, valueFields_eq_ok_iff.mpr ⟨entries, hentries, rfl⟩, rfl⟩

theorem value_slots_eq_ok_iff {parts : List (Slot × Serial)} {v : Value} :
    (slots parts).value = Except.ok v ↔
      exists b, valueSlots MapBuilder.empty parts = Except.ok b ∧
        Value.map b.entries = v := by
  rw [value_slots, map_eq_ok_iff]

theorem value_map {pairs : List (Serial × Serial)} {entries : List (Text × Value)}
    (h : List.Forall₂ (fun pair entry => pair.1.shownKey? = some entry.1 ∧
      pair.2.value = Except.ok entry.2) pairs entries) :
    (Serial.map pairs).value = Except.ok (Value.map (Table.ofEntries entries)) := by
  have hparts : pairs.flatMap (fun pair => [(Slot.key, pair.1), (Slot.value, pair.2)]) =
      (pairs.map fun pair => SlotEntry.mk [] pair.1 pair.2).flatMap SlotEntry.parts ++
        [] := by
    rw [List.append_nil, List.flatMap_map]
    rfl
  have hfills : List.Forall₂ SlotEntry.Fills
      (pairs.map fun pair => SlotEntry.mk [] pair.1 pair.2) entries := by
    rw [List.forall₂_map_left_iff]
    exact h.imp fun pair entry hpair => ⟨by simp, hpair.1, hpair.2⟩
  have hslots := valueSlots_entries_eq_ok_iff.mpr
    ⟨entries, hfills, (rfl : valueSlots ⟨Table.insertAll [] entries, none⟩ [] = _)⟩
  rw [Serial.map, value, MapBuilder.empty, hparts, hslots]
  rfl

end Serial

/-!
## Data that is presented to a reader
-/

namespace Presented

theorem valueItems_eq_mapM (items : List Presented) : valueItems items = items.mapM value := by
  induction items with
  | nil => rfl
  | cons item rest ih =>
      rw [valueItems, List.mapM_cons, ih]
      cases value item with
      | error fault => rfl
      | ok v =>
          cases rest.mapM value with
          | error fault => rfl
          | ok vs => rfl

theorem valueItems_eq_ok_iff {items : List Presented} {vs : List Value} :
    valueItems items = Except.ok vs ↔
      List.Forall₂ (fun item v => value item = Except.ok v) items vs := by
  rw [valueItems_eq_mapM, mapM_eq_ok_iff]

def Fills (pair : Presented × Presented) (entry : Text × Value) : Prop :=
  pair.1.key = Except.ok entry.1 ∧ pair.2.value = Except.ok entry.2

theorem valueEntries_eq_ok_iff {pairs : List (Presented × Presented)}
    {table after : Table Value} :
    valueEntries table pairs = Except.ok after ↔
      exists entries, List.Forall₂ Fills pairs entries ∧
        after = Table.insertAll table entries := by
  induction pairs generalizing table with
  | nil =>
      rw [valueEntries]
      constructor
      · intro h
        cases h
        exact ⟨[], List.Forall₂.nil, rfl⟩
      · rintro ⟨entries, hentries, rfl⟩
        cases hentries
        rfl
  | cons pair rest ih =>
      rcases pair with ⟨k, item⟩
      rw [valueEntries]
      constructor
      · intro h
        split at h
        case h_1 => cases h
        case h_2 name hname =>
          split at h
          case h_1 => cases h
          case h_2 v hv =>
            rcases ih.mp h with ⟨entries, hentries, rfl⟩
            exact ⟨(name, v) :: entries, List.Forall₂.cons ⟨hname, hv⟩ hentries, rfl⟩
      · rintro ⟨entries, hentries, rfl⟩
        cases hentries with
        | @cons _ entry _ entries hfirst hrest =>
            rw [hfirst.1]
            dsimp only
            rw [hfirst.2]
            exact ih.mpr ⟨entries, hrest, rfl⟩

theorem value_row_eq_ok_iff {items : List Presented} {v : Value} :
    (row items).value = Except.ok v ↔
      exists vs, List.Forall₂ (fun item v => value item = Except.ok v) items vs ∧
        Value.list vs = v := by
  have hrow : (row items).value = (valueItems items).map Value.list := by
    rw [value]
    cases valueItems items <;> rfl
  rw [hrow, map_eq_ok_iff]
  simp only [valueItems_eq_ok_iff]

theorem value_map_eq_ok_iff {pairs : List (Presented × Presented)} {v : Value} :
    (map pairs).value = Except.ok v ↔
      exists entries, List.Forall₂ Fills pairs entries ∧
        Value.map (Table.ofEntries entries) = v := by
  have hmap : (map pairs).value = (valueEntries [] pairs).map Value.map := by
    rw [value]
    cases valueEntries [] pairs <;> rfl
  rw [hmap, map_eq_ok_iff]
  constructor
  · rintro ⟨table, htable, rfl⟩
    rcases valueEntries_eq_ok_iff.mp htable with ⟨entries, hentries, rfl⟩
    exact ⟨entries, hentries, rfl⟩
  · rintro ⟨entries, hentries, rfl⟩
    exact ⟨_, valueEntries_eq_ok_iff.mpr ⟨entries, hentries, rfl⟩, rfl⟩

end Presented

/-!
## Native data
-/

namespace Native

theorem toValues_eq_map (items : List Native) : toValues items = items.map toValue := by
  induction items with
  | nil => rfl
  | cons item rest ih => rw [toValues, ih, List.map_cons]

theorem insertEntries_eq_insertAll (table : Table Value) (entries : List (Text × Native)) :
    insertEntries table entries =
      Table.insertAll table (entries.map fun entry => (entry.1, entry.2.toValue)) := by
  induction entries generalizing table with
  | nil => rfl
  | cons entry rest ih =>
      rcases entry with ⟨key, item⟩
      rw [insertEntries, ih]
      rfl

def valueEntries (entries : List (Text × Native)) : List (Text × Value) :=
  entries.map fun entry => (entry.1, entry.2.toValue)

theorem toValue_map (entries : List (Text × Native)) :
    (map entries).toValue = Value.map (Table.ofEntries (valueEntries entries)) := by
  rw [toValue, insertEntries_eq_insertAll]
  rfl

end Native

end Stencil
