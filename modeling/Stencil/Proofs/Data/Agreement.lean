import Stencil.Data.Serial
import Stencil.Proofs.Json.RoundTrip
import Stencil.Proofs.Value.Likeness

/-!
# Serialized data and its JSON document

## Two ways to the same data

Most serialized data can be written as a JSON document as well: wrappers disappear,
characters and unit variants become strings, and maps whose keys are strings become
objects.  The data can then be turned into template data directly, or by reading the
document.  The two results need not be the same value, since the document forgets
whether a number was signed and whether a string was a single character; but no template
can tell them apart.

Of equal keys the last one stays either way, because both ways bind the keys of a record
or a map in the order in which they were handed over.
-/

namespace Stencil

namespace Scalar

def tree? : Scalar -> Option Json.Tree
  | bool b => some (Json.Tree.bool b)
  | int8 n => some (Json.Tree.integer n.toInt64)
  | int16 n => some (Json.Tree.integer n.toInt64)
  | int32 n => some (Json.Tree.integer n.toInt64)
  | int64 n => some (Json.Tree.integer n)
  | nat8 n => some (Json.Tree.natural n.toUInt64)
  | nat16 n => some (Json.Tree.natural n.toUInt64)
  | nat32 n => some (Json.Tree.natural n.toUInt64)
  | nat64 n => some (Json.Tree.natural n)
  | float32 _ => none
  | float64 _ => none
  | char c => some (Json.Tree.str [c])
  | str s => some (Json.Tree.str s)

end Scalar

namespace Serial

/-- The text of a map key that is written as a string. -/
def keyText? : Serial -> Option Text
  | scalar (Scalar.char c) => some [c]
  | scalar (Scalar.str s) => some s
  | unitVariant name => some name
  | wrapped Wrapper.newtype inside => keyText? inside
  | _ => none

mutual

/-- The JSON tree of serialized data.  Bytes, floating-point numbers, numbers wider than
64 bits, variants with contents and maps with other keys than strings are left out. -/
def tree? : Serial -> Option Json.Tree
  | scalar s => s.tree?
  | absent => some Json.Tree.null
  | unit => some Json.Tree.null
  | unitRecord => some Json.Tree.null
  | unitVariant name => some (Json.Tree.str name)
  | wrapped Wrapper.optional inside => tree? inside
  | wrapped Wrapper.newtype inside => tree? inside
  | row RowForm.sequence items => (treeItems? items).map Json.Tree.list
  | row RowForm.tuple items => (treeItems? items).map Json.Tree.list
  | row RowForm.tupleRecord items => (treeItems? items).map Json.Tree.list
  | record RecordForm.record fields => (treeFields? fields).map Json.Tree.object
  | slots parts => (treeSlots? parts).map Json.Tree.object
  | _ => none

def treeItems? : List Serial -> Option (List Json.Tree)
  | [] => some []
  | item :: rest =>
      match tree? item, treeItems? rest with
      | some tree, some trees => some (tree :: trees)
      | _, _ => none

def treeFields? : List (Text × Serial) -> Option (List (Text × Json.Tree))
  | [] => some []
  | (name, field) :: rest =>
      match tree? field, treeFields? rest with
      | some tree, some members => some ((name, tree) :: members)
      | _, _ => none

/-- The members of a map that is handed over whole: each key is followed by its value. -/
def treeSlots? : List (Slot × Serial) -> Option (List (Text × Json.Tree))
  | [] => some []
  | (Slot.key, key) :: (Slot.value, part) :: rest =>
      match keyText? key, tree? part, treeSlots? rest with
      | some name, some tree, some members => some ((name, tree) :: members)
      | _, _, _ => none
  | _ => none

end

end Serial

/-!
## Scalars and keys
-/

namespace Json

theorem Tree.alike_ofInteger (n : Int64) :
    (Value.int n).alike (Tree.ofInteger n).value = true := by
  rcases Tree.ofInteger_cases n with ⟨k, _, hscalar⟩ | ⟨m, hn, hscalar⟩
  · rw [hscalar]
    exact Value.alike_of_scalar_display rfl rfl rfl
  · rw [hscalar]
    apply Value.alike_of_scalar_display
    · rfl
    · rfl
    · show Text.ofInt n.toInt = Text.ofNat m.toNat
      rw [hn]
      rfl

end Json

namespace Scalar

theorem alike_tree {s : Scalar} {tree : Json.Tree} (h : s.tree? = some tree) :
    s.value.alike tree.value = true := by
  cases s with
  | float32 bits => cases h
  | float64 x => cases h
  | int8 n =>
      cases h
      exact Json.Tree.alike_ofInteger _
  | int16 n =>
      cases h
      exact Json.Tree.alike_ofInteger _
  | int32 n =>
      cases h
      exact Json.Tree.alike_ofInteger _
  | int64 n =>
      cases h
      exact Json.Tree.alike_ofInteger _
  | _ =>
      cases h
      exact Value.alike_of_scalar_display rfl rfl rfl

end Scalar

namespace Serial

theorem exists_of_keyText? : forall (key : Serial) {name : Text},
    key.keyText? = some name ->
    exists v, key.value = Except.ok v ∧
      forall b : MapBuilder, b.putKey v = Except.ok { b with pending := some name }
  | scalar (Scalar.char c), _, h => by
      cases h
      exact ⟨Value.char c, rfl, fun b => rfl⟩
  | scalar (Scalar.str s), _, h => by
      cases h
      exact ⟨Value.str s, rfl, fun b => rfl⟩
  | unitVariant name, _, h => by
      cases h
      exact ⟨Value.str name, rfl, fun b => rfl⟩
  | wrapped Wrapper.newtype inside, _, h => by
      rcases exists_of_keyText? inside h with ⟨v, hvalue, hput⟩
      exact ⟨v, hvalue, hput⟩

theorem exists_of_tree?_row {form : RowForm} {items : List Serial} {tree : Json.Tree}
    (h : (row form items).tree? = some tree) :
    exists trees, treeItems? items = some trees ∧ tree = Json.Tree.list trees := by
  cases form with
  | sequence =>
      rcases Option.map_eq_some_iff.mp h with ⟨trees, htrees, rfl⟩
      exact ⟨trees, htrees, rfl⟩
  | tuple =>
      rcases Option.map_eq_some_iff.mp h with ⟨trees, htrees, rfl⟩
      exact ⟨trees, htrees, rfl⟩
  | tupleRecord =>
      rcases Option.map_eq_some_iff.mp h with ⟨trees, htrees, rfl⟩
      exact ⟨trees, htrees, rfl⟩
  | tupleVariant => cases h

/-!
## All parts
-/

mutual

/-- The value of serialized data is like the one that its JSON tree stands for. -/
theorem exists_alike_tree : forall (d : Serial) {tree : Json.Tree}, d.tree? = some tree ->
    exists v, d.value = Except.ok v ∧ v.alike tree.value = true
  | scalar s, _, h => ⟨s.value, rfl, Scalar.alike_tree h⟩
  | absent, _, h => by
      cases h
      exact ⟨Value.null, rfl, rfl⟩
  | unit, _, h => by
      cases h
      exact ⟨Value.null, rfl, rfl⟩
  | unitRecord, _, h => by
      cases h
      exact ⟨Value.null, rfl, rfl⟩
  | unitVariant name, _, h => by
      cases h
      exact ⟨Value.str name, rfl, Value.alike_of_scalar_display rfl rfl rfl⟩
  | wrapped Wrapper.optional inside, _, h => exists_alike_tree inside h
  | wrapped Wrapper.newtype inside, _, h => exists_alike_tree inside h
  | row form items, _, h => by
      rcases exists_of_tree?_row h with ⟨trees, htrees, rfl⟩
      rcases exists_alike_treeItems items htrees with ⟨vs, hvs, hlike⟩
      refine ⟨Value.list vs, ?_, hlike⟩
      rw [value, hvs]
  | record RecordForm.record fields, _, h => by
      rcases Option.map_eq_some_iff.mp h with ⟨members, hmembers, rfl⟩
      have hstart : Value.alikeEntries [] [] = true := rfl
      rcases exists_alike_treeFields fields hmembers hstart with
        ⟨entries, hentries, hlike⟩
      refine ⟨Value.map entries, ?_, hlike⟩
      rw [value, hentries]
  | slots parts, _, h => by
      rcases Option.map_eq_some_iff.mp h with ⟨members, hmembers, rfl⟩
      have hstart : Value.alikeEntries [] [] = true := rfl
      rcases exists_alike_treeSlots parts hmembers hstart with
        ⟨entries, hentries, hlike⟩
      refine ⟨Value.map entries, ?_, hlike⟩
      rw [value, MapBuilder.empty, hentries]

theorem exists_alike_treeItems : forall (items : List Serial) {trees : List Json.Tree},
    treeItems? items = some trees ->
    exists vs, valueItems items = Except.ok vs ∧
      Value.alikeItems vs (Json.Tree.valueItems trees) = true
  | [], _, h => by
      cases h
      exact ⟨[], rfl, rfl⟩
  | item :: rest, _, h => by
      rw [treeItems?] at h
      split at h
      case h_1 tree trees htree htrees =>
        cases h
        rcases exists_alike_tree item htree with ⟨v, hv, hlike⟩
        rcases exists_alike_treeItems rest htrees with ⟨vs, hvs, hlikes⟩
        refine ⟨v :: vs, ?_, ?_⟩
        · rw [valueItems, hv, hvs]
        · rw [Json.Tree.valueItems, Value.alikeItems, hlike, hlikes]
          rfl
      case h_2 =>
        cases h

theorem exists_alike_treeFields : forall (fields : List (Text × Serial))
    {members : List (Text × Json.Tree)}, treeFields? fields = some members ->
    forall {xs ys : Table Value}, Value.alikeEntries xs ys = true ->
    exists entries, valueFields xs fields = Except.ok entries ∧
      Value.alikeEntries entries
        (Table.insertAll ys (Json.Tree.valueMembers members)) = true
  | [], _, h, xs, _, hlike => by
      cases h
      exact ⟨xs, rfl, hlike⟩
  | (name, field) :: rest, _, h, _, _, hlike => by
      rw [treeFields?] at h
      split at h
      case h_1 tree members htree hmembers =>
        cases h
        rcases exists_alike_tree field htree with ⟨v, hv, hvalue⟩
        have hinserted := Value.alikeEntries_insert hlike name hvalue
        rcases exists_alike_treeFields rest hmembers hinserted with
          ⟨entries, hentries, hlikes⟩
        refine ⟨entries, ?_, hlikes⟩
        rw [valueFields, hv]
        exact hentries
      case h_2 =>
        cases h

theorem exists_alike_treeSlots : forall (parts : List (Slot × Serial))
    {members : List (Text × Json.Tree)}, treeSlots? parts = some members ->
    forall {xs ys : Table Value}, Value.alikeEntries xs ys = true ->
    exists entries, valueSlots ⟨xs, none⟩ parts = Except.ok ⟨entries, none⟩ ∧
      Value.alikeEntries entries
        (Table.insertAll ys (Json.Tree.valueMembers members)) = true
  | [], _, h, xs, _, hlike => by
      cases h
      exact ⟨xs, rfl, hlike⟩
  | (Slot.key, key) :: (Slot.value, part) :: rest, _, h, _, _, hlike => by
      rw [treeSlots?] at h
      split at h
      case h_1 name tree members hname htree hmembers =>
        cases h
        rcases exists_of_keyText? key hname with ⟨k, hk, hput⟩
        rcases exists_alike_tree part htree with ⟨v, hv, hvalue⟩
        have hinserted := Value.alikeEntries_insert hlike name hvalue
        rcases exists_alike_treeSlots rest hmembers hinserted with
          ⟨entries, hentries, hlikes⟩
        refine ⟨entries, ?_, hlikes⟩
        -- The key and its value are two steps of the builder, and one member.
        rw [valueSlots, hk]
        dsimp only [MapBuilder.put]
        rw [hput]
        dsimp only
        rw [valueSlots, hv]
        exact hentries
      case h_2 =>
        cases h

end

/-- Data that can be written as a JSON object no deeper than documents may be nested
gives template data on both ways, directly and through its document, and no template can
tell the results apart. -/
theorem value_alike_ofJson {d : Serial} {tree : Json.Tree} (htree : d.tree? = some tree)
    (hroot : tree.isObject = true) (hdepth : tree.depth ≤ 127) :
    exists native decoded, d.value = Except.ok native ∧
      Value.ofJson tree.print = Except.ok decoded ∧ native.alike decoded = true := by
  rcases exists_alike_tree d htree with ⟨native, hnative, hlike⟩
  cases tree with
  | object members =>
      have hdecoded := Json.Tree.ofJson_print hdepth
      exact ⟨native, _, hnative, hdecoded, hlike⟩
  | _ => cases hroot

/-- A record with a repeated name, and inside it a map with a repeated key. -/
def mixedRecord : Serial :=
  record RecordForm.record
    [(['n'], scalar (Scalar.nat8 7)),
      (['n'], wrapped Wrapper.optional (scalar (Scalar.int8 (-7)))),
      (['s', '"'], wrapped Wrapper.newtype (scalar (Scalar.str ['\\', '\x01', '\n', 'é']))),
      (['r'], row RowForm.tuple [scalar (Scalar.char 'x'), absent, unitVariant ['V']]),
      (['m'], map [(scalar (Scalar.str ['k']), unit),
        (scalar (Scalar.str []), row RowForm.sequence []),
        (scalar (Scalar.str ['k']), scalar (Scalar.int64 5))])]

def mixedTree : Json.Tree :=
  Json.Tree.object
    [(['n'], Json.Tree.natural 7), (['n'], Json.Tree.integer (-7)),
      (['s', '"'], Json.Tree.str ['\\', '\x01', '\n', 'é']),
      (['r'], Json.Tree.list [Json.Tree.str ['x'], Json.Tree.null, Json.Tree.str ['V']]),
      (['m'], Json.Tree.object [(['k'], Json.Tree.null), ([], Json.Tree.list []),
        (['k'], Json.Tree.integer 5)])]

theorem value_alike_ofJson_mixed :
    mixedRecord.tree? = some mixedTree ∧ mixedTree.isObject = true ∧
      mixedTree.depth ≤ 127 ∧
      exists native decoded, mixedRecord.value = Except.ok native ∧
        Value.ofJson mixedTree.print = Except.ok decoded ∧
        native.alike decoded = true := by
  have htree : mixedRecord.tree? = some mixedTree := rfl
  have hroot : mixedTree.isObject = true := rfl
  have hdepth : mixedTree.depth ≤ 127 := by
    decide
  exact ⟨htree, hroot, hdepth, value_alike_ofJson htree hroot hdepth⟩

end Serial

end Stencil
