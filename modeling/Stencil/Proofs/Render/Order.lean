import Stencil.Proofs.Data.Order
import Stencil.Proofs.Json.Order
import Stencil.Proofs.Value.Order
import Stencil.Registry.Execute

/-!
# The order of entries does not show

## Observations

A value is observed by printing it, by comparing it with other values, and by rendering
templates over it.  Data whose maps and records have their entries in different orders is
turned into values that no observation tells apart, whether it is handed over, presented
to a reader, read from a document, or native.  Inside a value nothing is left of the order
either: whoever visits the entries of a map finds out the same in every order.
-/

namespace Stencil

namespace Value

structure Indistinguishable (a b : Value) : Prop where
  display : a.display = b.display
  alike : a.alike b = true
  alike_left : forall c : Value, c.alike a = c.alike b
  alike_right : forall c : Value, a.alike c = b.alike c
  execute : forall (reg : Registry) (name : Text) (sink : Sink),
    reg.execute name a sink = reg.execute name b sink
  executeAlone : forall (t : Template) (sink : Sink), t.execute a sink = t.execute b sink

theorem indistinguishable_refl (a : Value) : Indistinguishable a a :=
  ⟨rfl, alike_refl a, fun _ => rfl, fun _ => rfl, fun _ _ _ => rfl, fun _ _ => rfl⟩

/-- Data that differs in the order of entries gives indistinguishable values on every way,
and the entries of a map may be visited in any order. -/
theorem entry_order_unobservable :
    (forall {d e : Serial} {v : Value}, d.Reordered e -> d.value = Except.ok v ->
      exists w, e.value = Except.ok w ∧ Indistinguishable v w) ∧
    (forall {d e : Presented} {v : Value}, d.Reordered e -> d.value = Except.ok v ->
      exists w, e.value = Except.ok w ∧ Indistinguishable v w) ∧
    (forall {s t : Text} {v : Value}, Json.Reordered Json.nestingLimit s t ->
      ofJson s = Except.ok v -> exists w, ofJson t = Except.ok w ∧ Indistinguishable v w) ∧
    (forall {m n : Native}, m.Reordered n -> Indistinguishable m.toValue n.toValue) ∧
    forall {entries : List (Text × Value)}, (Table.keys entries).Nodup ->
      Visited entries := by
  refine ⟨?_, ?_, ?_, ?_, visited_of_nodup⟩
  · intro d e v h hd
    exact ⟨v, h.value_eq hd, indistinguishable_refl v⟩
  · intro d e v h hd
    exact ⟨v, h.value_eq hd, indistinguishable_refl v⟩
  · intro s t v h hs
    exact ⟨v, h.ofJson_eq hs, indistinguishable_refl v⟩
  · intro m n h
    rw [h.toValue_eq]
    exact indistinguishable_refl n.toValue

/-!
## One value in two orders on every way
-/

def sampleValue : Value :=
  map [(['a'], list [nat 1, str ['q']]), (['b'], map [(['x'], null), (['z'], bool true)])]

def sampleList : Serial :=
  Serial.row RowForm.tuple
    [Serial.scalar (Scalar.nat8 1), Serial.wrapped Wrapper.newtype (Serial.unitVariant ['q'])]

/-- An entry whose key comes after a key that is forgotten. -/
def sampleEntryZ : SlotEntry :=
  ⟨[Serial.scalar (Scalar.int8 (-1))], Serial.scalar (Scalar.char 'z'),
    Serial.scalar (Scalar.bool true)⟩

def sampleEntryX : SlotEntry :=
  ⟨[], Serial.scalar (Scalar.str ['x']), Serial.absent⟩

def sampleSerial : Serial :=
  Serial.record RecordForm.record
    [(['b'], Serial.slots ([sampleEntryZ, sampleEntryX].flatMap SlotEntry.parts ++ [])),
      (['a'], sampleList)]

def sampleSerialReordered : Serial :=
  Serial.record RecordForm.record
    [(['a'], sampleList),
      (['b'], Serial.slots ([sampleEntryX, sampleEntryZ].flatMap SlotEntry.parts ++ []))]

theorem sampleSerial_reordered : sampleSerial.Reordered sampleSerialReordered := by
  have hkeys : ([sampleEntryZ, sampleEntryX].map fun e => e.key.shownKey?).Nodup := by
    decide
  have hinside := Serial.Reordered.entries [] (List.Perm.swap sampleEntryX sampleEntryZ [])
    hkeys
  refine (Serial.Reordered.field RecordForm.record ['b'] [] [(['a'], sampleList)]
    hinside).trans ?_
  exact Serial.Reordered.fields RecordForm.record (List.Perm.swap _ _ []) (by decide)

/-- The sample as it is presented, with layers that leave no trace and with these entries
for the inner map. -/
def samplePresentedMap (entries : List (Presented × Presented)) : Presented :=
  Presented.map
    [(Presented.bytes [0x62], Presented.present (Presented.map entries)),
      (Presented.scalar (Scalar.char 'a'), Presented.newtype (Presented.row
        [Presented.scalar (Scalar.nat16 1), Presented.scalar (Scalar.str ['q'])]))]

def samplePresentedEntries : List (Presented × Presented) :=
  [(Presented.scalar (Scalar.str ['z']), Presented.scalar (Scalar.bool true)),
    (Presented.scalar (Scalar.char 'x'), Presented.unit)]

theorem samplePresented_reordered :
    (samplePresentedMap samplePresentedEntries).Reordered
      (samplePresentedMap samplePresentedEntries.reverse) := by
  have hinside := Presented.Reordered.entries (List.reverse_perm samplePresentedEntries).symm
    (by decide)
  exact Presented.Reordered.entry _ [] _ (Presented.Reordered.present hinside)

def sampleText : Text :=
  "\x7b\"b\": \x7b\"z\":true,\"x\" :null\x7d ,\"a\":[1,\"q\"]\x7d".toList

def sampleTextReordered : Text :=
  "\x7b\"a\":[1,\"q\"],\"b\": \x7b\"x\" :null,\"z\":true\x7d \x7d".toList

theorem sampleText_reordered :
    Json.Reordered Json.nestingLimit sampleText sampleTextReordered ∧
      ofJson sampleText = Except.ok sampleValue := by
  have hz : Json.Spells (Json.member (Json.value 125)) "\"z\":true".toList
      (['z'], Presented.scalar (Scalar.bool true)) :=
    Json.spells_member (Json.names_quoted ['z'] [] rfl)
      (Json.Tree.reads_print (Json.Tree.bool true) 125 (Nat.zero_le _)).spells
  have hx : Json.Spells (Json.member (Json.value 125)) "\"x\" :null".toList
      (['x'], Presented.unit) :=
    Json.spells_member (Json.names_quoted ['x'] [' '] rfl)
      (Json.Tree.reads_print Json.Tree.null 125 (Nat.zero_le _)).spells
  have ha : Json.Spells (Json.member (Json.value 126)) "\"a\":[1,\"q\"]".toList
      (['a'], Presented.row [Presented.scalar (Scalar.nat64 1),
        Presented.scalar (Scalar.str ['q'])]) :=
    Json.spells_member (Json.names_quoted ['a'] [] rfl)
      (Json.Tree.reads_print (Json.Tree.list [Json.Tree.natural 1, Json.Tree.str ['q']]) 126
        (by decide)).spells
  have hb : Json.Names "\"b\":".toList ['b'] := Json.names_quoted ['b'] [] rfl
  have hspace : forall c, c ∈ [' '] -> Json.isSpace c = true := by
    intro c hc
    rw [List.mem_singleton.mp hc]
    rfl
  have hinside := Json.Reordered.members (List.Forall₂.cons hz
    (List.Forall₂.cons hx List.Forall₂.nil)) (by decide) (List.Perm.swap _ _ [])
  have hzx := (Json.spells_object (List.Forall₂.cons hz
    (List.Forall₂.cons hx List.Forall₂.nil))).spaced hspace hspace
  have hxz := (Json.spells_object (List.Forall₂.cons hx
    (List.Forall₂.cons hz List.Forall₂.nil))).spaced hspace hspace
  have hbefore := List.Forall₂.cons (Json.spells_member hb hzx)
    (List.Forall₂.cons ha List.Forall₂.nil)
  have hbetween := List.Forall₂.cons (Json.spells_member hb hxz)
    (List.Forall₂.cons ha List.Forall₂.nil)
  constructor
  · have hfirst := Json.Reordered.member List.Forall₂.nil
      (List.Forall₂.cons ha List.Forall₂.nil) hb (Json.Reordered.spaced hspace hspace hinside)
    exact hfirst.trans (Json.Reordered.members hbetween (by decide) (List.Perm.swap _ _ []))
  · have hdocument : Json.document sampleText = Except.ok sampleValue :=
      Json.document_eq_ok_iff.mpr ⟨_, Json.spells_object hbefore, rfl⟩
    exact Json.ofJson_eq_ok_iff.mpr ⟨hdocument, rfl⟩

def sampleNative (first second : Text × Native) : Native :=
  Native.map
    [(['b'], Native.reference (Native.map [first, second])),
      (['a'], Native.list [Native.pointerNat 1, Native.scalar (Scalar.str ['q'])])]

def sampleNativeZ : Text × Native :=
  (['z'], Native.present (Native.scalar (Scalar.bool true)))

def sampleNativeX : Text × Native :=
  (['x'], Native.absent)

theorem sampleNative_reordered :
    (sampleNative sampleNativeZ sampleNativeX).Reordered
      (sampleNative sampleNativeX sampleNativeZ) := by
  have hinside := Native.Reordered.entries (List.Perm.swap sampleNativeX sampleNativeZ [])
    (by decide)
  exact Native.Reordered.entry ['b'] [] _ (Native.Reordered.reference hinside)

theorem entry_order_unobservable_sample :
    (sampleSerial.Reordered sampleSerialReordered ∧
      sampleSerial.value = Except.ok sampleValue ∧
      exists w, sampleSerialReordered.value = Except.ok w ∧
        Indistinguishable sampleValue w) ∧
    ((samplePresentedMap samplePresentedEntries).Reordered
        (samplePresentedMap samplePresentedEntries.reverse) ∧
      (samplePresentedMap samplePresentedEntries).value = Except.ok sampleValue ∧
      exists w, (samplePresentedMap samplePresentedEntries.reverse).value = Except.ok w ∧
        Indistinguishable sampleValue w) ∧
    (Json.Reordered Json.nestingLimit sampleText sampleTextReordered ∧
      ofJson sampleText = Except.ok sampleValue ∧
      exists w, ofJson sampleTextReordered = Except.ok w ∧
        Indistinguishable sampleValue w) ∧
    ((sampleNative sampleNativeZ sampleNativeX).Reordered
        (sampleNative sampleNativeX sampleNativeZ) ∧
      Indistinguishable (sampleNative sampleNativeZ sampleNativeX).toValue
        (sampleNative sampleNativeX sampleNativeZ).toValue) ∧
    (Table.keys [(['z'], bool true), (['x'], null)]).Nodup ∧
      Visited [(['z'], bool true), (['x'], null)] := by
  rcases entry_order_unobservable with ⟨hserial, hpresented, htext, hnative, hvisited⟩
  have hkeys : (Table.keys [(['z'], bool true), (['x'], null)]).Nodup := by
    decide
  refine ⟨⟨sampleSerial_reordered, rfl, hserial sampleSerial_reordered rfl⟩,
    ⟨samplePresented_reordered, rfl, hpresented samplePresented_reordered rfl⟩, ?_,
    ⟨sampleNative_reordered, hnative sampleNative_reordered⟩, hkeys, hvisited hkeys⟩
  rcases sampleText_reordered with ⟨hreordered, hvalue⟩
  exact ⟨hreordered, hvalue, htext hreordered hvalue⟩

end Value

end Stencil
