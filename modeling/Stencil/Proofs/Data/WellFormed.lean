import Stencil.Proofs.Attempts
import Stencil.Proofs.Data.Building

/-!
# Well-formed data

## Data without flaws

Data that is handed over has a value if nothing in it is flawed.  Numbers of more than 64
bits and failing parts are flaws wherever they stand.  Flaws of a map are keys that do not
print as a scalar does, and values without a key.

The first flaw settles how data fails.  What stands before it is well-formed by itself, so
the failure is described without looking at how the data is gone through.
-/

namespace Stencil

namespace Serial

/-- A key that is taken as it prints: beneath its wrappers there are neither bytes nor a
row nor a map. -/
def KeyShaped : Serial -> Prop
  | wrapped _ inside => KeyShaped inside
  | bytes _ => False
  | row _ _ => False
  | record _ _ => False
  | slots _ => False
  | _ => True

def children : Serial -> List Serial
  | wrapped _ inside => [inside]
  | row _ items => items
  | record _ fields => fields.map Prod.snd
  | slots parts => parts.map Prod.snd
  | _ => []

inductive Inside (part : Serial) : Serial -> Prop where
  | self : Inside part part
  | child {d child : Serial} : child ∈ d.children -> Inside part child -> Inside part d

/-- Nothing is wrong with the data apart from its parts. -/
def Flawless : Serial -> Prop
  | signedWide _ => False
  | unsignedWide _ => False
  | failing _ => False
  | slots parts =>
      (forall key, (Slot.key, key) ∈ parts -> key.KeyShaped) ∧
        Slot.ValuesHaveKeys (parts.map Prod.fst)
  | _ => True

/-- Nothing is wrong anywhere in the data. -/
def WellFormed (d : Serial) : Prop :=
  forall part, Inside part d -> part.Flawless

theorem sizeOf_lt_of_mem_children {d child : Serial} (h : child ∈ d.children) :
    sizeOf child < sizeOf d := by
  cases d with
  | wrapped wrapper inside =>
      cases List.mem_singleton.mp h
      rw [wrapped.sizeOf_spec]
      omega
  | row form items =>
      have hlt : sizeOf child < sizeOf items := List.sizeOf_lt_of_mem h
      rw [row.sizeOf_spec]
      omega
  | record form fields =>
      rcases List.mem_map.mp h with ⟨⟨name, field⟩, hmem, rfl⟩
      have hlt := List.sizeOf_lt_of_mem hmem
      rw [Prod.mk.sizeOf_spec] at hlt
      rw [record.sizeOf_spec]
      dsimp only
      omega
  | slots parts =>
      rcases List.mem_map.mp h with ⟨⟨slot, part⟩, hmem, rfl⟩
      have hlt := List.sizeOf_lt_of_mem hmem
      rw [Prod.mk.sizeOf_spec] at hlt
      rw [slots.sizeOf_spec]
      dsimp only
      omega
  | _ => cases h

/-- Induction on data: a property that passes from the parts to the whole holds. -/
@[elab_as_elim]
theorem children_induction {motive : Serial -> Prop}
    (step : forall d, (forall child, child ∈ d.children -> motive child) -> motive d)
    (d : Serial) : motive d :=
  step d fun child hmem =>
    have : sizeOf child < sizeOf d := sizeOf_lt_of_mem_children hmem
    children_induction step child
termination_by sizeOf d

theorem wellFormed_iff {d : Serial} :
    d.WellFormed ↔ d.Flawless ∧ forall child, child ∈ d.children -> child.WellFormed := by
  constructor
  · intro h
    exact ⟨h d Inside.self, fun child hmem part hpart => h part (Inside.child hmem hpart)⟩
  · rintro ⟨hflawless, hchildren⟩ part hpart
    cases hpart with
    | self => exact hflawless
    | child hmem hpart => exact hchildren _ hmem part hpart

theorem wellFormed_wrapped_iff {wrapper : Wrapper} {inside : Serial} :
    (wrapped wrapper inside).WellFormed ↔ inside.WellFormed := by
  rw [wellFormed_iff]
  simp [Flawless, children]

theorem wellFormed_row_iff {form : RowForm} {items : List Serial} :
    (row form items).WellFormed ↔ forall item, item ∈ items -> item.WellFormed := by
  rw [wellFormed_iff]
  simp [Flawless, children]

theorem wellFormed_record_iff {form : RecordForm} {fields : List (Text × Serial)} :
    (record form fields).WellFormed ↔
      forall field, field ∈ fields -> field.2.WellFormed := by
  rw [wellFormed_iff]
  simp only [Flawless, children, List.forall_mem_map, true_and]

theorem wellFormed_slots_nil : (slots []).WellFormed := by
  rw [wellFormed_iff]
  simp [Flawless, children, Slot.valuesHaveKeys_nil]

theorem wellFormed_slots_concat {parts : List (Slot × Serial)} {slot : Slot}
    {part : Serial} :
    (slots (parts ++ [(slot, part)])).WellFormed ↔
      (slots parts).WellFormed ∧ part.WellFormed ∧ (slot = Slot.key -> part.KeyShaped) ∧
        (slot = Slot.value -> Slot.KeyWaits (parts.map Prod.fst)) := by
  have hkeys : (forall key, (Slot.key, key) ∈ parts ++ [(slot, part)] -> key.KeyShaped) ↔
      (forall key, (Slot.key, key) ∈ parts -> key.KeyShaped) ∧
        (slot = Slot.key -> part.KeyShaped) := by
    simp only [List.mem_append, List.mem_singleton, Prod.mk.injEq, or_imp, forall_and]
    exact and_congr_right fun _ => ⟨fun h hslot => h part ⟨hslot.symm, rfl⟩,
      fun h key heq => by rw [heq.2]; exact h heq.1.symm⟩
  have hchildren : (forall child, child ∈ (slots (parts ++ [(slot, part)])).children ->
      child.WellFormed) ↔
        (forall child, child ∈ (slots parts).children -> child.WellFormed) ∧
          part.WellFormed := by
    simp [children, or_imp, forall_and]
  rw [wellFormed_iff, wellFormed_iff (d := slots parts), hchildren]
  simp only [Flawless, hkeys, List.map_append, List.map_cons, List.map_nil,
    Slot.valuesHaveKeys_concat]
  tauto

/-!
## What data stands for, and how it fails
-/

inductive Denotes : Serial -> Value -> Prop where
  | scalar (s : Scalar) : Denotes (scalar s) s.value
  | bytes (bs : List UInt8) : Denotes (bytes bs) (Value.bytes bs)
  | absent : Denotes absent Value.null
  | unit : Denotes unit Value.null
  | unitRecord : Denotes unitRecord Value.null
  | unitVariant (name : Text) : Denotes (unitVariant name) (Value.str name)
  | wrapped (wrapper : Wrapper) {inside : Serial} {v : Value} :
      Denotes inside v -> Denotes (wrapped wrapper inside) v
  | row (form : RowForm) {items : List Serial} {vs : List Value} :
      List.Forall₂ Denotes items vs -> Denotes (row form items) (Value.list vs)
  | record (form : RecordForm) {fields : List (Text × Serial)}
      {entries : List (Text × Value)} {table : Table Value} :
      fields.map Prod.fst = entries.map Prod.fst ->
      List.Forall₂ Denotes (fields.map Prod.snd) (entries.map Prod.snd) ->
      Table.BindsLast entries table ->
      Denotes (record form fields) (Value.map table)
  | slots {parts : List (Slot × Serial)} {calls : List (Slot × Value)}
      {table : Table Value} :
      parts.map Prod.fst = calls.map Prod.fst ->
      List.Forall₂ Denotes (parts.map Prod.snd) (calls.map Prod.snd) ->
      Table.BindsLast (MapBuilder.bindings calls) table ->
      Denotes (slots parts) (Value.map table)

/-- The first fault of data, in the order in which it is handed over: everything before it
is well-formed.  A part that has a fault of its own is not looked at any further. -/
inductive Fails : Serial -> DataFault -> Prop where
  | signedWide (n : Int) : Fails (signedWide n) DataFault.signedTooWide
  | unsignedWide (n : Nat) : Fails (unsignedWide n) DataFault.unsignedTooWide
  | failing (message : Text) : Fails (failing message) (DataFault.custom message)
  | wrapped (wrapper : Wrapper) {inside : Serial} {fault : DataFault} :
      Fails inside fault -> Fails (wrapped wrapper inside) fault
  | item (form : RowForm) {before after : List Serial} {item : Serial}
      {fault : DataFault} :
      (row form before).WellFormed -> Fails item fault ->
      Fails (row form (before ++ item :: after)) fault
  | field (form : RecordForm) {before after : List (Text × Serial)}
      {field : Text × Serial} {fault : DataFault} :
      (record form before).WellFormed -> Fails field.2 fault ->
      Fails (record form (before ++ field :: after)) fault
  | part {before after : List (Slot × Serial)} {call : Slot × Serial}
      {fault : DataFault} :
      (slots before).WellFormed -> Fails call.2 fault ->
      Fails (slots (before ++ call :: after)) fault
  | key {before after : List (Slot × Serial)} {key : Serial} :
      (slots before).WellFormed -> key.WellFormed -> ¬ key.KeyShaped ->
      Fails (slots (before ++ (Slot.key, key) :: after)) DataFault.keyNotScalar
  | value {before after : List (Slot × Serial)} {part : Serial} :
      (slots before).WellFormed -> part.WellFormed ->
      ¬ Slot.KeyWaits (before.map Prod.fst) ->
      Fails (slots (before ++ (Slot.value, part) :: after)) DataFault.valueWithoutKey

/-!
## When data has a value
-/

theorem keyText?_isSome_iff (key : Serial) {v : Value} (h : key.value = Except.ok v) :
    v.keyText?.isSome = true ↔ key.KeyShaped := by
  induction key using children_induction with
  | step key ih =>
      cases key with
      | wrapped wrapper inside => exact ih inside (List.mem_singleton.mpr rfl) h
      | scalar s =>
          cases h
          cases s <;> simp [Scalar.value, Value.keyText?, KeyShaped]
      | row form items =>
          rcases value_row_eq_ok_iff.mp h with ⟨vs, _, rfl⟩
          simp [Value.keyText?, KeyShaped]
      | record form fields =>
          rcases value_record_eq_ok_iff.mp h with ⟨entries, _, rfl⟩
          simp [Value.keyText?, KeyShaped]
      | slots parts =>
          rcases value_slots_eq_ok_iff.mp h with ⟨b, _, rfl⟩
          simp [Value.keyText?, KeyShaped]
      | _ =>
          cases h
          all_goals simp [Value.keyText?, KeyShaped]

def putPart (b : MapBuilder) (part : Slot × Serial) : Except DataFault MapBuilder :=
  match part.2.value with
  | Except.error fault => Except.error fault
  | Except.ok v => b.put v part.1

theorem valueSlots_eq_foldlM (b : MapBuilder) (parts : List (Slot × Serial)) :
    valueSlots b parts = parts.foldlM putPart b := by
  induction parts generalizing b with
  | nil => rfl
  | cons part rest ih =>
      rcases part with ⟨slot, part⟩
      rw [valueSlots, List.foldlM_cons, putPart]
      cases part.value with
      | error fault => rfl
      | ok v =>
          dsimp only
          cases b.put v slot with
          | error fault => rfl
          | ok next => exact ih next

theorem putPart_eq_ok_iff {b next : MapBuilder} {part : Slot × Serial} :
    putPart b part = Except.ok next ↔
      exists v, part.2.value = Except.ok v ∧ b.put v part.1 = Except.ok next := by
  unfold putPart
  cases part.2.value with
  | error fault => simp
  | ok v => simp

theorem valueSlots_concat_eq_ok_iff {b next : MapBuilder} {parts : List (Slot × Serial)}
    {part : Slot × Serial} :
    valueSlots b (parts ++ [part]) = Except.ok next ↔
      exists middle v, valueSlots b parts = Except.ok middle ∧
        part.2.value = Except.ok v ∧ middle.put v part.1 = Except.ok next := by
  rw [valueSlots_eq_foldlM, valueSlots_eq_foldlM, List.foldlM_append]
  cases parts.foldlM putPart b with
  | error fault =>
      constructor
      · intro h
        cases h
      · rintro ⟨middle, v, h, _⟩
        cases h
  | ok middle =>
      have hlast : [part].foldlM putPart middle = putPart middle part := bind_pure _
      show [part].foldlM putPart middle = _ ↔ _
      rw [hlast, putPart_eq_ok_iff]
      simp

def Handed (part : Slot × Serial) (call : Slot × Value) : Prop :=
  part.1 = call.1 ∧ part.2.value = Except.ok call.2

theorem forall₂_handed_iff {parts : List (Slot × Serial)} {calls : List (Slot × Value)} :
    List.Forall₂ Handed parts calls ↔
      parts.map Prod.fst = calls.map Prod.fst ∧
        List.Forall₂ (fun d v => d.value = Except.ok v) (parts.map Prod.snd)
          (calls.map Prod.snd) :=
  @forall₂_labelled_iff _ _ _ (fun (d : Serial) v => d.value = Except.ok v) _ _

theorem forall₂_fills_iff {fields : List (Text × Serial)}
    {entries : List (Text × Value)} :
    List.Forall₂ Fills fields entries ↔
      fields.map Prod.fst = entries.map Prod.fst ∧
        List.Forall₂ (fun d v => d.value = Except.ok v) (fields.map Prod.snd)
          (entries.map Prod.snd) :=
  @forall₂_labelled_iff _ _ _ (fun (d : Serial) v => d.value = Except.ok v) _ _

theorem exists_builtFrom {parts : List (Slot × Serial)} {b : MapBuilder}
    (h : valueSlots MapBuilder.empty parts = Except.ok b) :
    exists calls, List.Forall₂ Handed parts calls ∧ b.BuiltFrom calls := by
  induction parts using List.reverseRecOn generalizing b with
  | nil =>
      cases h
      exact ⟨[], List.Forall₂.nil, MapBuilder.builtFrom_empty⟩
  | append_singleton parts part ih =>
      rcases valueSlots_concat_eq_ok_iff.mp h with ⟨middle, v, hmiddle, hv, hput⟩
      rcases ih hmiddle with ⟨calls, hcalls, hbuilt⟩
      refine ⟨calls ++ [(part.1, v)], ?_, hbuilt.put hput⟩
      exact List.rel_append hcalls (List.Forall₂.cons ⟨rfl, hv⟩ List.Forall₂.nil)

theorem exists_valueSlots_iff {parts : List (Slot × Serial)}
    (hparts : forall part, part ∈ parts ->
      ((exists v, part.2.value = Except.ok v) ↔ part.2.WellFormed)) :
    (exists b, valueSlots MapBuilder.empty parts = Except.ok b) ↔
      (slots parts).WellFormed := by
  induction parts using List.reverseRecOn with
  | nil => exact iff_of_true ⟨_, rfl⟩ wellFormed_slots_nil
  | append_singleton parts part ih =>
      rcases part with ⟨slot, part⟩
      have hlast := hparts (slot, part) (by simp)
      rw [wellFormed_slots_concat, ← ih fun part hmem => hparts part (by simp [hmem]),
        ← hlast]
      constructor
      · rintro ⟨next, h⟩
        rcases valueSlots_concat_eq_ok_iff.mp h with ⟨b, v, hb, hv, hput⟩
        rcases exists_builtFrom hb with ⟨calls, hcalls, hbuilt⟩
        have hroles := (MapBuilder.exists_put_iff hbuilt).mp ⟨next, hput⟩
        rw [keyText?_isSome_iff part hv, ← (forall₂_handed_iff.mp hcalls).1] at hroles
        exact ⟨⟨b, hb⟩, ⟨v, hv⟩, hroles⟩
      · rintro ⟨⟨b, hb⟩, ⟨v, hv⟩, hroles⟩
        rcases exists_builtFrom hb with ⟨calls, hcalls, hbuilt⟩
        rw [← keyText?_isSome_iff part hv, (forall₂_handed_iff.mp hcalls).1] at hroles
        rcases (MapBuilder.exists_put_iff hbuilt).mpr hroles with ⟨next, hput⟩
        exact ⟨next, valueSlots_concat_eq_ok_iff.mpr ⟨b, v, hb, hv, hput⟩⟩

theorem exists_fills_iff {field : Text × Serial} :
    (exists entry, Fills field entry) ↔ exists v, field.2.value = Except.ok v := by
  constructor
  · rintro ⟨entry, hfills⟩
    exact ⟨entry.2, hfills.2⟩
  · rintro ⟨v, hv⟩
    exact ⟨(field.1, v), rfl, hv⟩

theorem exists_valueFields_iff {fields : List (Text × Serial)} :
    (exists table, valueFields [] fields = Except.ok table) ↔
      forall field, field ∈ fields -> exists v, field.2.value = Except.ok v := by
  simp only [← exists_fills_iff, ← exists_forall₂_iff, valueFields_eq_ok_iff]
  constructor
  · rintro ⟨_, entries, hentries, _⟩
    exact ⟨entries, hentries⟩
  · rintro ⟨entries, hentries⟩
    exact ⟨_, entries, hentries, rfl⟩

/-- Data has a value just if it is well-formed. -/
theorem exists_value_iff (d : Serial) :
    (exists v, d.value = Except.ok v) ↔ d.WellFormed := by
  induction d using children_induction with
  | step d ih =>
      cases d with
      | wrapped wrapper inside =>
          rw [wellFormed_wrapped_iff, ← ih inside (List.mem_singleton.mpr rfl),
            Serial.value]
      | row form items =>
          rw [value_row, exists_map_eq_ok_iff, wellFormed_row_iff]
          simp only [valueItems_eq_ok_iff, exists_forall₂_iff]
          exact forall₂_congr ih
      | record form fields =>
          rw [value_record, exists_map_eq_ok_iff, exists_valueFields_iff,
            wellFormed_record_iff]
          exact forall₂_congr fun field hmem => ih field.2 (List.mem_map_of_mem hmem)
      | slots parts =>
          rw [value_slots, exists_map_eq_ok_iff]
          exact exists_valueSlots_iff fun part hmem => ih part.2 (List.mem_map_of_mem hmem)
      | _ =>
          rw [wellFormed_iff]
          simp [Serial.value, Flawless, children]

/-!
## Which value data has
-/

theorem denotes_of_value_eq_ok {d : Serial} {v : Value} (h : d.value = Except.ok v) :
    d.Denotes v := by
  induction d using children_induction generalizing v with
  | step d ih =>
      cases d with
      | scalar s =>
          cases h
          exact Denotes.scalar s
      | bytes bs =>
          cases h
          exact Denotes.bytes bs
      | absent =>
          cases h
          exact Denotes.absent
      | unit =>
          cases h
          exact Denotes.unit
      | unitRecord =>
          cases h
          exact Denotes.unitRecord
      | unitVariant name =>
          cases h
          exact Denotes.unitVariant name
      | wrapped wrapper inside =>
          exact Denotes.wrapped wrapper (ih inside (List.mem_singleton.mpr rfl) h)
      | row form items =>
          rcases value_row_eq_ok_iff.mp h with ⟨vs, hvs, rfl⟩
          exact Denotes.row form (forall₂_imp_of_mem hvs fun item hmem _ => ih item hmem)
      | record form fields =>
          rcases value_record_eq_ok_iff.mp h with ⟨entries, hentries, rfl⟩
          rcases forall₂_fills_iff.mp hentries with ⟨hnames, hvalues⟩
          refine Denotes.record form hnames ?_ (Table.bindsLast_ofEntries entries)
          exact forall₂_imp_of_mem hvalues fun field hmem _ => ih field hmem
      | slots parts =>
          rcases value_slots_eq_ok_iff.mp h with ⟨b, hb, rfl⟩
          rcases exists_builtFrom hb with ⟨calls, hcalls, hbuilt⟩
          rw [hbuilt.entries]
          rcases forall₂_handed_iff.mp hcalls with ⟨hroles, hvalues⟩
          refine Denotes.slots hroles ?_ (Table.bindsLast_ofEntries _)
          exact forall₂_imp_of_mem hvalues fun part hmem _ => ih part hmem
      | signedWide n => cases h
      | unsignedWide n => cases h
      | failing message => cases h

theorem handed_rightUnique : Relator.RightUnique Handed := by
  rintro part ⟨slot, v⟩ ⟨slot', v'⟩ ⟨rfl, hv⟩ ⟨rfl, hv'⟩
  rw [hv] at hv'
  cases hv'
  rfl

theorem value_eq_ok_of_denotes {d : Serial} {v : Value} (hd : d.WellFormed)
    (h : d.Denotes v) : d.value = Except.ok v := by
  induction d using children_induction generalizing v with
  | step d ih =>
      have hchildren := (wellFormed_iff.mp hd).2
      cases h with
      | @wrapped wrapper inside v hinside =>
          have hmem : inside ∈ [inside] := List.mem_singleton.mpr rfl
          exact ih inside hmem (hchildren inside hmem) hinside
      | row form hitems =>
          refine value_row_eq_ok_iff.mpr ⟨_, forall₂_imp_of_mem hitems ?_, rfl⟩
          exact fun item hmem _ => ih item hmem (hchildren item hmem)
      | record form hnames hfields hbinds =>
          have hvalues := forall₂_imp_of_mem hfields fun field hmem _ =>
            ih field hmem (hchildren field hmem)
          refine value_record_eq_ok_iff.mpr
            ⟨_, forall₂_fills_iff.mpr ⟨hnames, hvalues⟩, ?_⟩
          rw [hbinds.unique (Table.bindsLast_ofEntries _)]
      | @slots parts calls table hroles hparts hbinds =>
          have hvalues := forall₂_imp_of_mem hparts fun part hmem _ =>
            ih part hmem (hchildren part hmem)
          have hcalls : List.Forall₂ Handed parts calls :=
            forall₂_handed_iff.mpr ⟨hroles, hvalues⟩
          rcases (exists_value_iff _).mpr hd with ⟨v, hv⟩
          rcases value_slots_eq_ok_iff.mp hv with ⟨b, hb, rfl⟩
          rcases exists_builtFrom hb with ⟨others, hothers, hbuilt⟩
          cases handed_rightUnique.forall₂ hcalls hothers
          rw [hv, hbuilt.entries, hbinds.unique (Table.bindsLast_ofEntries _)]
      | _ => rfl

/-!
## How data fails
-/

def fillField (table : Table Value) (field : Text × Serial) :
    Except DataFault (Table Value) :=
  field.2.value.map fun v => Table.insert field.1 v table

theorem valueFields_eq_foldlM (table : Table Value) (fields : List (Text × Serial)) :
    valueFields table fields = fields.foldlM fillField table := by
  induction fields generalizing table with
  | nil => rfl
  | cons field rest ih =>
      rcases field with ⟨name, field⟩
      rw [valueFields, List.foldlM_cons, fillField]
      cases field.value with
      | error fault => rfl
      | ok v => exact ih _

theorem putPart_eq_error_iff {before : List (Slot × Serial)} {b : MapBuilder}
    (hb : valueSlots MapBuilder.empty before = Except.ok b) {part : Slot × Serial}
    {fault : DataFault} :
    putPart b part = Except.error fault ↔
      part.2.value = Except.error fault ∨
        (part.2.WellFormed ∧
          ((part.1 = Slot.key ∧ ¬ part.2.KeyShaped ∧ DataFault.keyNotScalar = fault) ∨
            (part.1 = Slot.value ∧ ¬ Slot.KeyWaits (before.map Prod.fst) ∧
              DataFault.valueWithoutKey = fault))) := by
  rcases exists_builtFrom hb with ⟨calls, hcalls, hbuilt⟩
  rw [← exists_value_iff, (forall₂_handed_iff.mp hcalls).1]
  unfold putPart
  cases hpart : part.2.value with
  | error found => simp
  | ok v =>
      have hkey := keyText?_isSome_iff part.2 hpart
      simp [MapBuilder.put_eq_error_iff hbuilt, ← hkey]

def FailsRightly (d : Serial) : Prop :=
  forall fault, d.value = Except.error fault ↔ d.Fails fault

theorem failsRightly_row (form : RowForm) {items : List Serial}
    (h : forall item, item ∈ items -> item.FailsRightly) :
    (row form items).FailsRightly := by
  intro fault
  have hbefore : forall before : List Serial, (row form before).WellFormed ↔
      exists vs, before.mapM value = Except.ok vs := by
    intro before
    rw [← exists_value_iff, value_row, exists_map_eq_ok_iff, valueItems_eq_mapM]
  rw [value_row, map_eq_error_iff, valueItems_eq_mapM, mapM_eq_error_iff]
  constructor
  · rintro ⟨before, item, after, vs, rfl, hvs, hitem⟩
    exact Fails.item form ((hbefore before).mpr ⟨vs, hvs⟩)
      ((h item List.mem_append_cons_self fault).mp hitem)
  · intro hfails
    cases hfails with
    | @item _ before after item _ hwf hitem =>
        rcases (hbefore before).mp hwf with ⟨vs, hvs⟩
        exact ⟨before, item, after, vs, rfl, hvs,
          (h item List.mem_append_cons_self fault).mpr hitem⟩

theorem failsRightly_record (form : RecordForm) {fields : List (Text × Serial)}
    (h : forall field, field ∈ fields -> field.2.FailsRightly) :
    (record form fields).FailsRightly := by
  intro fault
  have hbefore : forall before : List (Text × Serial), (record form before).WellFormed ↔
      exists table, before.foldlM fillField [] = Except.ok table := by
    intro before
    rw [← exists_value_iff, value_record, exists_map_eq_ok_iff, valueFields_eq_foldlM]
  have hfill : forall (table : Table Value) (field : Text × Serial),
      fillField table field = Except.error fault ↔ field.2.value = Except.error fault :=
    fun table field => map_eq_error_iff
  rw [value_record, map_eq_error_iff, valueFields_eq_foldlM, foldlM_eq_error_iff]
  constructor
  · rintro ⟨before, field, after, table, rfl, htable, hfield⟩
    rw [hfill, h field List.mem_append_cons_self fault] at hfield
    exact Fails.field form ((hbefore before).mpr ⟨table, htable⟩) hfield
  · intro hfails
    cases hfails with
    | @field _ before after field _ hwf hfield =>
        rcases (hbefore before).mp hwf with ⟨table, htable⟩
        refine ⟨before, field, after, table, rfl, htable, ?_⟩
        rwa [hfill, h field List.mem_append_cons_self fault]

theorem failsRightly_slots {parts : List (Slot × Serial)}
    (h : forall part, part ∈ parts -> part.2.FailsRightly) :
    (slots parts).FailsRightly := by
  intro fault
  have hbefore : forall before : List (Slot × Serial), (slots before).WellFormed ↔
      exists b, valueSlots MapBuilder.empty before = Except.ok b := by
    intro before
    rw [← exists_value_iff, value_slots, exists_map_eq_ok_iff]
  rw [value_slots, map_eq_error_iff, valueSlots_eq_foldlM, foldlM_eq_error_iff]
  simp only [← valueSlots_eq_foldlM]
  constructor
  · rintro ⟨before, ⟨slot, part⟩, after, b, rfl, hb, hput⟩
    have hwf := (hbefore before).mpr ⟨b, hb⟩
    rw [putPart_eq_error_iff hb, h _ List.mem_append_cons_self fault] at hput
    rcases hput with hfails | ⟨hpart, ⟨rfl, hshape, rfl⟩ | ⟨rfl, hwaits, rfl⟩⟩
    · exact Fails.part hwf hfails
    · exact Fails.key hwf hpart hshape
    · exact Fails.value hwf hpart hwaits
  · intro hfails
    cases hfails with
    | @part before after call _ hwf hcall =>
        rcases (hbefore before).mp hwf with ⟨b, hb⟩
        refine ⟨before, call, after, b, rfl, hb, ?_⟩
        rw [putPart_eq_error_iff hb, h call List.mem_append_cons_self fault]
        exact Or.inl hcall
    | @key before after key hwf hkey hshape =>
        rcases (hbefore before).mp hwf with ⟨b, hb⟩
        refine ⟨before, (Slot.key, key), after, b, rfl, hb, ?_⟩
        exact (putPart_eq_error_iff hb).mpr (Or.inr ⟨hkey, Or.inl ⟨rfl, hshape, rfl⟩⟩)
    | @value before after part hwf hpart hwaits =>
        rcases (hbefore before).mp hwf with ⟨b, hb⟩
        refine ⟨before, (Slot.value, part), after, b, rfl, hb, ?_⟩
        exact (putPart_eq_error_iff hb).mpr (Or.inr ⟨hpart, Or.inr ⟨rfl, hwaits, rfl⟩⟩)

theorem failsRightly (d : Serial) : d.FailsRightly := by
  induction d using children_induction with
  | step d ih =>
      cases d with
      | wrapped wrapper inside =>
          intro fault
          have hinside := ih inside (List.mem_singleton.mpr rfl) fault
          constructor
          · intro h
            exact Fails.wrapped wrapper (hinside.mp h)
          · intro h
            cases h with
            | wrapped _ h => exact hinside.mpr h
      | row form items => exact failsRightly_row form ih
      | record form fields =>
          exact failsRightly_record form fun field hmem =>
            ih field.2 (List.mem_map_of_mem hmem)
      | slots parts =>
          exact failsRightly_slots fun part hmem => ih part.2 (List.mem_map_of_mem hmem)
      | signedWide n =>
          intro fault
          constructor
          · intro h
            cases h
            exact Fails.signedWide n
          · intro h
            cases h
            rfl
      | unsignedWide n =>
          intro fault
          constructor
          · intro h
            cases h
            exact Fails.unsignedWide n
          · intro h
            cases h
            rfl
      | failing message =>
          intro fault
          constructor
          · intro h
            cases h
            exact Fails.failing message
          · intro h
            cases h
            rfl
      | _ =>
          intro fault
          constructor
          · intro h
            cases h
          · intro h
            cases h

/-- Data that is handed over has a value just if it is well-formed, and then the one that
it stands for; otherwise it fails as its first fault says. -/
theorem value_outcome (d : Serial) :
    ((exists v, d.value = Except.ok v) ↔ d.WellFormed) ∧
      (forall v, d.value = Except.ok v ↔ d.WellFormed ∧ d.Denotes v) ∧
      (forall fault, d.value = Except.error fault ↔ d.Fails fault) := by
  refine ⟨exists_value_iff d, fun v => ?_, failsRightly d⟩
  constructor
  · intro h
    exact ⟨(exists_value_iff d).mp ⟨v, h⟩, denotes_of_value_eq_ok h⟩
  · rintro ⟨hd, hv⟩
    exact value_eq_ok_of_denotes hd hv

/-- The fault of a value comes before the fault that no key waits for it. -/
example : (slots [(Slot.value, unsignedWide 0)]).value =
    Except.error DataFault.unsignedTooWide := by
  rfl

end Serial

end Stencil
