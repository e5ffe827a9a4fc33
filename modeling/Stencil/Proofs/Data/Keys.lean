import Stencil.Proofs.Data.Entries
import Stencil.Proofs.Render.Lookups
import Stencil.Proofs.Render.Truncation
import Stencil.Proofs.Text.Numerals

/-!
# Keys of serialized maps

## Keys that print differently

The keys of a map that is handed over are scalars, and the map that is built from it has
texts as keys: what the scalars print.  Scalars of different types may print alike, such as
the number 1 and the character 1.  Scalars of one type that is not a floating-point type
print differently unless they are the same, so a map with such keys keeps every entry, and
a template finds its value by what the key prints.
-/

namespace Stencil

namespace Value

inductive SameForm : Value -> Value -> Prop where
  | bool (a b : Bool) : SameForm (bool a) (bool b)
  | char (a b : Char) : SameForm (char a) (char b)
  | str (a b : Text) : SameForm (str a) (str b)
  | int (a b : Int64) : SameForm (int a) (int b)
  | nat (a b : UInt64) : SameForm (nat a) (nat b)

variable {v w : Value}

theorem SameForm.eq_of_display_eq (hform : SameForm v w) (h : v.display = w.display) :
    v = w := by
  cases hform with
  | bool a b =>
      cases a with
      | true =>
          cases b with
          | true => rfl
          | false => cases h
      | false =>
          cases b with
          | true => cases h
          | false => rfl
  | char a b => rw [List.singleton_inj.mp h]
  | str a b => exact congrArg Value.str h
  | int a b => rw [Int64.toInt_inj.mp (Text.ofInt_injective h)]
  | nat a b => rw [UInt64.toNat_inj.mp (Text.ofNat_injective h)]

theorem SameForm.keyText?_eq (hform : SameForm v w) : v.keyText? = some v.display := by
  cases hform with
  | _ => rfl

end Value

/-!
## Types of keys
-/

/-- The types of keys that print differently.  Variants without a payload are told apart by
their names.  Integers of 128 bits are missing, since they have no value. -/
inductive KeyType where
  | bool
  | int8
  | int16
  | int32
  | int64
  | nat8
  | nat16
  | nat32
  | nat64
  | char
  | str
  | unitVariant
deriving DecidableEq

namespace KeyType

inductive Has : KeyType -> Serial -> Prop where
  | bool (b : Bool) : Has bool (Serial.scalar (Scalar.bool b))
  | int8 (n : Int8) : Has int8 (Serial.scalar (Scalar.int8 n))
  | int16 (n : Int16) : Has int16 (Serial.scalar (Scalar.int16 n))
  | int32 (n : Int32) : Has int32 (Serial.scalar (Scalar.int32 n))
  | int64 (n : Int64) : Has int64 (Serial.scalar (Scalar.int64 n))
  | nat8 (n : UInt8) : Has nat8 (Serial.scalar (Scalar.nat8 n))
  | nat16 (n : UInt16) : Has nat16 (Serial.scalar (Scalar.nat16 n))
  | nat32 (n : UInt32) : Has nat32 (Serial.scalar (Scalar.nat32 n))
  | nat64 (n : UInt64) : Has nat64 (Serial.scalar (Scalar.nat64 n))
  | char (c : Char) : Has char (Serial.scalar (Scalar.char c))
  | str (s : Text) : Has str (Serial.scalar (Scalar.str s))
  | unitVariant (name : Text) : Has unitVariant (Serial.unitVariant name)

variable {t : KeyType} {key other : Serial} {v w : Value}

theorem Has.exists_sameForm (hkey : t.Has key) (hother : t.Has other) :
    exists v w, key.value = Except.ok v ∧ other.value = Except.ok w ∧ v.SameForm w := by
  cases hkey with
  | _ =>
      cases hother with
      | _ => exact ⟨_, _, rfl, rfl, by constructor⟩

private theorem int8_eq {m n : Int8} (h : m.toInt64 = n.toInt64) : m = n := by
  rw [← Int8.toInt_inj, ← Int8.toInt_toInt64, h, Int8.toInt_toInt64]

private theorem int16_eq {m n : Int16} (h : m.toInt64 = n.toInt64) : m = n := by
  rw [← Int16.toInt_inj, ← Int16.toInt_toInt64, h, Int16.toInt_toInt64]

private theorem int32_eq {m n : Int32} (h : m.toInt64 = n.toInt64) : m = n := by
  rw [← Int32.toInt_inj, ← Int32.toInt_toInt64, h, Int32.toInt_toInt64]

theorem Has.eq_of_value_eq (hkey : t.Has key) (hother : t.Has other)
    (h : key.value = other.value) : key = other := by
  cases hkey with
  | int8 m =>
      cases hother with
      | int8 n => rw [int8_eq (Value.int.inj (Except.ok.inj h))]
  | int16 m =>
      cases hother with
      | int16 n => rw [int16_eq (Value.int.inj (Except.ok.inj h))]
  | int32 m =>
      cases hother with
      | int32 n => rw [int32_eq (Value.int.inj (Except.ok.inj h))]
  | nat8 m =>
      cases hother with
      | nat8 n => rw [UInt8.toUInt64_inj.mp (Value.nat.inj (Except.ok.inj h))]
  | nat16 m =>
      cases hother with
      | nat16 n => rw [UInt16.toUInt64_inj.mp (Value.nat.inj (Except.ok.inj h))]
  | nat32 m =>
      cases hother with
      | nat32 n => rw [UInt32.toUInt64_inj.mp (Value.nat.inj (Except.ok.inj h))]
  | bool a | int64 a | nat64 a | char a | str a | unitVariant a =>
      cases hother
      cases h
      rfl

theorem Has.exists_value (hkey : t.Has key) :
    exists v, key.value = Except.ok v ∧ key.shownKey? = some v.display := by
  rcases hkey.exists_sameForm hkey with ⟨v, w, hv, _, hform⟩
  refine ⟨v, hv, ?_⟩
  rw [Serial.shownKey?, hv]
  exact hform.keyText?_eq

/-- Keys of one type with the same text are the same. -/
theorem Has.eq_of_shownKey?_eq (hkey : t.Has key) (hother : t.Has other)
    (h : key.shownKey? = other.shownKey?) : key = other := by
  rcases hkey.exists_sameForm hother with ⟨v, w, hv, hw, hform⟩
  rcases hkey.exists_value with ⟨v', hv', hkeyText⟩
  rcases hother.exists_value with ⟨w', hw', hotherText⟩
  cases hv.symm.trans hv'
  cases hw.symm.trans hw'
  have hdisplay := Option.some.inj (hkeyText.symm.trans (h.trans hotherText))
  apply hkey.eq_of_value_eq hother
  rw [hv, hw, hform.eq_of_display_eq hdisplay]

end KeyType

/-!
## Entries of the map
-/

namespace Table

variable {item : Type} {pairs : List (Serial × Serial)} {entries : List (Text × item)}

/-- The texts of different keys are different, if keys with the same text are the same. -/
theorem nodup_keys_of_shownKey?
    (hentries : List.Forall₂ (fun pair entry => pair.1.shownKey? = some entry.1)
      pairs entries)
    (hsame : forall a, a ∈ pairs.map Prod.fst -> forall b, b ∈ pairs.map Prod.fst ->
      a.shownKey? = b.shownKey? -> a = b)
    (hdistinct : (pairs.map Prod.fst).Nodup) : (keys entries).Nodup := by
  have htexts : (keys entries).map some = (pairs.map Prod.fst).map Serial.shownKey? := by
    clear hsame hdistinct
    induction hentries with
    | nil => rfl
    | cons hfirst _ ih =>
        rw [keys, List.map_cons, List.map_cons, List.map_cons, List.map_cons, hfirst, ← ih]
        rfl
  apply List.Nodup.of_map some
  rw [htexts]
  exact List.Nodup.map_on hsame hdistinct

end Table

namespace Scopes

theorem printed_enterMap {table : Table Value} {name : Text} {v : Value}
    (h : Table.find? name table = some v) (scopes : Scopes) :
    (scopes.enterMap table).printed name = v.display := by
  have hshown : (scopes.enterMap table).shown? name =
      (scopes.enterMap table).find? name := by
    cases name with
    | nil => rfl
    | cons c name => rfl
  rw [printed, hshown, find?_enterMap, h]
  rfl

end Scopes

namespace Template

theorem render_print (title name : Text) (data : Value) :
    render ⟨title, [Node.print name]⟩ data =
      Except.ok (Text.utf8 ((Scopes.ofRoot data).printed name)).toArray := by
  have hemit := Action.delivers_emit ((Scopes.ofRoot data).printed name)
    (Progress.start Sink.unbounded)
  have hexecute : execute ⟨title, [Node.print name]⟩ data Sink.unbounded =
      (Except.ok (),
        Sink.unbounded.accept (Text.utf8 ((Scopes.ofRoot data).printed name))) := by
    rw [execute, Node.renderAll_singleton, Node.render_print]
    exact hemit.trans (Sink.deliver_unbounded _ _)
  rw [render, hexecute]
  simp [Sink.accept, Sink.unbounded]

end Template

namespace Serial

/-- A map whose keys are different and of one type keeps every entry.  The value of each
key is found under what the key prints, in the map and by a print of that name wherever the
map is the innermost scope. -/
theorem value_map_keeps_entries {t : KeyType} {pairs : List (Serial × Serial)}
    (hkeys : forall pair, pair ∈ pairs -> t.Has pair.1)
    (hdistinct : (pairs.map Prod.fst).Nodup)
    (hparts : forall pair, pair ∈ pairs -> exists v, pair.2.value = Except.ok v) :
    exists table : Table Value,
      (Serial.map pairs).value = Except.ok (Value.map table) ∧
        (Table.keys table).Nodup ∧ table.length = pairs.length ∧
        forall pair, pair ∈ pairs -> exists key v,
          pair.1.value = Except.ok key ∧ pair.2.value = Except.ok v ∧
            (Value.map table).get? key.display = some v ∧
            (forall (embedding : Embedding) (scopes : Scopes),
              Node.render embedding (Node.print key.display) (scopes.enterMap table) =
                Action.emit v.display) ∧
            forall title,
              Template.render ⟨title, [Node.print key.display]⟩ (Value.map table) =
                Except.ok (Text.utf8 v.display).toArray := by
  -- Each key has a text and each value a value; they are the entries that are inserted.
  have hfills : forall pair, pair ∈ pairs -> exists entry : Text × Value,
      pair.1.shownKey? = some entry.1 ∧ pair.2.value = Except.ok entry.2 := by
    intro pair hmem
    rcases (hkeys pair hmem).exists_value with ⟨key, _, htext⟩
    rcases hparts pair hmem with ⟨v, hv⟩
    exact ⟨(key.display, v), htext, hv⟩
  rcases exists_forall₂_iff.mpr hfills with ⟨entries, hentries⟩
  have hsame : forall a, a ∈ pairs.map Prod.fst -> forall b, b ∈ pairs.map Prod.fst ->
      a.shownKey? = b.shownKey? -> a = b := by
    intro a ha b hb
    rcases List.mem_map.mp ha with ⟨x, hx, rfl⟩
    rcases List.mem_map.mp hb with ⟨y, hy, rfl⟩
    exact (hkeys x hx).eq_of_shownKey?_eq (hkeys y hy)
  have hnodup := Table.nodup_keys_of_shownKey? (hentries.imp fun _ _ h => h.1) hsame
    hdistinct
  refine ⟨Table.ofEntries entries, value_map hentries,
    (Table.sorted_ofEntries entries).nodup_keys, ?_, ?_⟩
  · rw [(Table.ofEntries_perm hnodup).length_eq, hentries.length_eq]
  · intro pair hmem
    rcases (hkeys pair hmem).exists_value with ⟨key, hkey, htext⟩
    rcases exists_mem_of_forall₂ hentries hmem with ⟨⟨text, v⟩, hentry, hshown, hv⟩
    cases Option.some.inj (htext.symm.trans hshown)
    have hfind : Table.find? key.display (Table.ofEntries entries) = some v := by
      rw [Table.find?_ofEntries hnodup, Table.find?_of_mem hnodup hentry]
    refine ⟨key, v, hkey, hv, hfind, fun embedding scopes => ?_, fun title => ?_⟩
    · rw [Node.render_print, Scopes.printed_enterMap hfind]
    · have hroot := Scopes.printed_enterMap hfind ⟨[], none⟩
      rw [Template.render_print]
      exact congrArg (fun text => Except.ok (Text.utf8 text).toArray) hroot

/-- Negative and positive numbers as keys, with entries out of order. -/
def signedMap : List (Serial × Serial) :=
  [(scalar (Scalar.int8 10), scalar (Scalar.str ['a'])),
    (scalar (Scalar.int8 (-1)), row RowForm.sequence [unit]),
    (scalar (Scalar.int8 1), scalar (Scalar.bool true))]

theorem value_map_keeps_entries_signed :
    (forall pair, pair ∈ signedMap -> KeyType.int8.Has pair.1) ∧
      (signedMap.map Prod.fst).Nodup ∧
      (forall pair, pair ∈ signedMap -> exists v, pair.2.value = Except.ok v) ∧
      exists table : Table Value,
        (Serial.map signedMap).value = Except.ok (Value.map table) ∧
          table.length = 3 ∧
          (Value.map table).get? "-1".toList = some (Value.list [Value.null]) := by
  have hkeys : forall pair, pair ∈ signedMap -> KeyType.int8.Has pair.1 := by
    intro pair hmem
    simp only [signedMap, List.mem_cons, List.not_mem_nil, or_false] at hmem
    rcases hmem with rfl | rfl | rfl
    all_goals exact KeyType.Has.int8 _
  have hdistinct : (signedMap.map Prod.fst).Nodup := by
    simp [signedMap]
  have hparts : forall pair, pair ∈ signedMap -> exists v, pair.2.value = Except.ok v := by
    intro pair hmem
    simp only [signedMap, List.mem_cons, List.not_mem_nil, or_false] at hmem
    rcases hmem with rfl | rfl | rfl
    all_goals exact ⟨_, rfl⟩
  rcases value_map_keeps_entries hkeys hdistinct hparts with
    ⟨table, htable, _, hlength, hentries⟩
  rcases hentries (scalar (Scalar.int8 (-1)), row RowForm.sequence [unit])
    (List.mem_cons_of_mem _ List.mem_cons_self) with ⟨key, v, hkey, hv, hfind, _⟩
  cases hkey
  cases hv
  exact ⟨hkeys, hdistinct, hparts, table, htable, hlength, hfind⟩

/-- A map with a 128-bit integer as its only key. -/
def wideMap : List (Serial × Serial) :=
  [(signedWide 5, scalar (Scalar.nat8 1))]

/-- Keys of 128 bits are refused, so not every type of integers is a type of keys. -/
theorem value_map_of_wide_key :
    (forall pair, pair ∈ wideMap -> exists n, pair.1 = signedWide n) ∧
      (wideMap.map Prod.fst).Nodup ∧
      (forall pair, pair ∈ wideMap -> exists v, pair.2.value = Except.ok v) ∧
      ¬ exists table : Table Value, (Serial.map wideMap).value = Except.ok (Value.map table) := by
  refine ⟨fun pair hmem => ?_, List.nodup_singleton _, fun pair hmem => ?_, ?_⟩
  · rw [List.mem_singleton.mp hmem]
    exact ⟨5, rfl⟩
  · rw [List.mem_singleton.mp hmem]
    exact ⟨_, rfl⟩
  · rintro ⟨table, htable⟩
    cases htable

end Serial

end Stencil
