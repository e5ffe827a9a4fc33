import Stencil.Proofs.Data.Entries

/-!
# Three ways from native data to a value

## Turning, handing over, and presenting

Native data can be turned into template data at once.  It can also be handed over part by
part, the way a producer does it, or be presented to a reader; then it goes through the
rules for data that comes from elsewhere.  References and the words that are as wide as a
pointer leave no trace on these ways, and texts are the keys of maps.

A finished value inside native data is template data already.  It is not handed over or
presented, so data with such values has only the first way.
-/

namespace Stencil

namespace Native

mutual

/-- The data has no finished value inside. -/
def isPlain : Native -> Bool
  | present inside => isPlain inside
  | reference inside => isPlain inside
  | value _ => false
  | list items => arePlain items
  | map entries => arePlainEntries entries
  | _ => true

def arePlain : List Native -> Bool
  | [] => true
  | item :: rest => isPlain item && arePlain rest

def arePlainEntries : List (Text × Native) -> Bool
  | [] => true
  | (_, item) :: rest => isPlain item && arePlainEntries rest

end

mutual

def serial? : Native -> Option Serial
  | scalar s => some (Serial.scalar s)
  | pointerInt n => some (Serial.scalar (Scalar.int64 n))
  | pointerNat n => some (Serial.scalar (Scalar.nat64 n))
  | unit => some Serial.unit
  | absent => some Serial.absent
  | present inside => (serial? inside).map (Serial.wrapped Wrapper.optional)
  | reference inside => serial? inside
  | value _ => none
  | list items => (serialItems? items).map (Serial.row RowForm.sequence)
  | map entries => (serialEntries? entries).map Serial.map

def serialItems? : List Native -> Option (List Serial)
  | [] => some []
  | item :: rest =>
      match serial? item, serialItems? rest with
      | some d, some ds => some (d :: ds)
      | _, _ => none

def serialEntries? : List (Text × Native) -> Option (List (Serial × Serial))
  | [] => some []
  | (key, item) :: rest =>
      match serial? item, serialEntries? rest with
      | some d, some ds => some ((Serial.scalar (Scalar.str key), d) :: ds)
      | _, _ => none

end

mutual

def presented? : Native -> Option Presented
  | scalar s => some (Presented.scalar s)
  | pointerInt n => some (Presented.scalar (Scalar.int64 n))
  | pointerNat n => some (Presented.scalar (Scalar.nat64 n))
  | unit => some Presented.unit
  | absent => some Presented.absent
  | present inside => (presented? inside).map Presented.present
  | reference inside => presented? inside
  | value _ => none
  | list items => (presentedItems? items).map Presented.row
  | map entries => (presentedEntries? entries).map Presented.map

def presentedItems? : List Native -> Option (List Presented)
  | [] => some []
  | item :: rest =>
      match presented? item, presentedItems? rest with
      | some d, some ds => some (d :: ds)
      | _, _ => none

def presentedEntries? : List (Text × Native) -> Option (List (Presented × Presented))
  | [] => some []
  | (key, item) :: rest =>
      match presented? item, presentedEntries? rest with
      | some d, some ds => some ((Presented.scalar (Scalar.str key), d) :: ds)
      | _, _ => none

end

/-!
## Handing over
-/

mutual

theorem exists_serial : forall n : Native, n.isPlain = true ->
    exists d, n.serial? = some d ∧ d.value = Except.ok n.toValue
  | scalar s, _ => ⟨_, rfl, rfl⟩
  | pointerInt n, _ => ⟨_, rfl, rfl⟩
  | pointerNat n, _ => ⟨_, rfl, rfl⟩
  | unit, _ => ⟨_, rfl, rfl⟩
  | absent, _ => ⟨_, rfl, rfl⟩
  | present inside, h => by
      rcases exists_serial inside h with ⟨d, hd, hvalue⟩
      refine ⟨Serial.wrapped Wrapper.optional d, ?_, hvalue⟩
      rw [serial?, hd]
      rfl
  | reference inside, h => exists_serial inside h
  | list items, h => by
      rcases exists_serialItems items h with ⟨ds, hds, hvalues⟩
      refine ⟨Serial.row RowForm.sequence ds, ?_, ?_⟩
      · rw [serial?, hds]
        rfl
      · rw [toValue]
        exact Serial.value_row_eq_ok_iff.mpr ⟨_, hvalues, rfl⟩
  | map entries, h => by
      rcases exists_serialEntries entries h with ⟨pairs, hpairs, hvalues⟩
      refine ⟨Serial.map pairs, ?_, ?_⟩
      · rw [serial?, hpairs]
        rfl
      · rw [toValue_map]
        exact Serial.value_map hvalues

theorem exists_serialItems : forall items : List Native, arePlain items = true ->
    exists ds, serialItems? items = some ds ∧
      List.Forall₂ (fun d v => d.value = Except.ok v) ds (toValues items)
  | [], _ => ⟨[], rfl, List.Forall₂.nil⟩
  | item :: rest, h => by
      rcases Bool.and_eq_true_iff.mp h with ⟨hitem, hrest⟩
      rcases exists_serial item hitem with ⟨d, hd, hvalue⟩
      rcases exists_serialItems rest hrest with ⟨ds, hds, hvalues⟩
      refine ⟨d :: ds, ?_, List.Forall₂.cons hvalue hvalues⟩
      rw [serialItems?, hd, hds]

theorem exists_serialEntries : forall entries : List (Text × Native),
    arePlainEntries entries = true ->
    exists pairs, serialEntries? entries = some pairs ∧
      List.Forall₂ (fun pair entry => pair.1.shownKey? = some entry.1 ∧
        pair.2.value = Except.ok entry.2) pairs (valueEntries entries)
  | [], _ => ⟨[], rfl, List.Forall₂.nil⟩
  | (key, item) :: rest, h => by
      rcases Bool.and_eq_true_iff.mp h with ⟨hitem, hrest⟩
      rcases exists_serial item hitem with ⟨d, hd, hvalue⟩
      rcases exists_serialEntries rest hrest with ⟨pairs, hpairs, hvalues⟩
      refine ⟨(Serial.scalar (Scalar.str key), d) :: pairs, ?_,
        List.Forall₂.cons ⟨rfl, hvalue⟩ hvalues⟩
      rw [serialEntries?, hd, hpairs]

end

/-!
## Presenting
-/

mutual

theorem exists_presented : forall n : Native, n.isPlain = true ->
    exists d, n.presented? = some d ∧ d.value = Except.ok n.toValue
  | scalar s, _ => ⟨_, rfl, rfl⟩
  | pointerInt n, _ => ⟨_, rfl, rfl⟩
  | pointerNat n, _ => ⟨_, rfl, rfl⟩
  | unit, _ => ⟨_, rfl, rfl⟩
  | absent, _ => ⟨_, rfl, rfl⟩
  | present inside, h => by
      rcases exists_presented inside h with ⟨d, hd, hvalue⟩
      refine ⟨Presented.present d, ?_, hvalue⟩
      rw [presented?, hd]
      rfl
  | reference inside, h => exists_presented inside h
  | list items, h => by
      rcases exists_presentedItems items h with ⟨ds, hds, hvalues⟩
      refine ⟨Presented.row ds, ?_, ?_⟩
      · rw [presented?, hds]
        rfl
      · rw [toValue]
        exact Presented.value_row_eq_ok_iff.mpr ⟨_, hvalues, rfl⟩
  | map entries, h => by
      rcases exists_presentedEntries entries h with ⟨pairs, hpairs, hvalues⟩
      refine ⟨Presented.map pairs, ?_, ?_⟩
      · rw [presented?, hpairs]
        rfl
      · rw [toValue_map]
        exact Presented.value_map_eq_ok_iff.mpr ⟨_, hvalues, rfl⟩

theorem exists_presentedItems : forall items : List Native, arePlain items = true ->
    exists ds, presentedItems? items = some ds ∧
      List.Forall₂ (fun d v => d.value = Except.ok v) ds (toValues items)
  | [], _ => ⟨[], rfl, List.Forall₂.nil⟩
  | item :: rest, h => by
      rcases Bool.and_eq_true_iff.mp h with ⟨hitem, hrest⟩
      rcases exists_presented item hitem with ⟨d, hd, hvalue⟩
      rcases exists_presentedItems rest hrest with ⟨ds, hds, hvalues⟩
      refine ⟨d :: ds, ?_, List.Forall₂.cons hvalue hvalues⟩
      rw [presentedItems?, hd, hds]

theorem exists_presentedEntries : forall entries : List (Text × Native),
    arePlainEntries entries = true ->
    exists pairs, presentedEntries? entries = some pairs ∧
      List.Forall₂ Presented.Fills pairs (valueEntries entries)
  | [], _ => ⟨[], rfl, List.Forall₂.nil⟩
  | (key, item) :: rest, h => by
      rcases Bool.and_eq_true_iff.mp h with ⟨hitem, hrest⟩
      rcases exists_presented item hitem with ⟨d, hd, hvalue⟩
      rcases exists_presentedEntries rest hrest with ⟨pairs, hpairs, hvalues⟩
      refine ⟨(Presented.scalar (Scalar.str key), d) :: pairs, ?_,
        List.Forall₂.cons ⟨rfl, hvalue⟩ hvalues⟩
      rw [presentedEntries?, hd, hpairs]

end

/-- Native data without finished values is handed over and presented, and all three ways
succeed with the same value. -/
theorem conversions_agree {n : Native} (h : n.isPlain = true) :
    exists (serial : Serial) (presented : Presented),
      n.serial? = some serial ∧ n.presented? = some presented ∧
      serial.value = Except.ok n.toValue ∧ presented.value = Except.ok n.toValue := by
  rcases exists_serial n h with ⟨serial, hserial, hvalue⟩
  rcases exists_presented n h with ⟨presented, hpresented, hvalue'⟩
  exact ⟨serial, presented, hserial, hpresented, hvalue, hvalue'⟩

/-- References and options inside one another, a repeated key, and a number that is not
a number. -/
def mixedData : Native :=
  map [(['a'], reference (present (reference (scalar (Scalar.int8 (-5)))))),
    (['b'], list [pointerNat 7, absent, unit, scalar (Scalar.float32 0x7FC00000)]),
    (['a'], map [([], scalar (Scalar.char 'x')), (['k'], pointerInt (-7))])]

theorem conversions_agree_mixed :
    mixedData.isPlain = true ∧
      exists (serial : Serial) (presented : Presented),
        mixedData.serial? = some serial ∧ mixedData.presented? = some presented ∧
        serial.value = Except.ok mixedData.toValue ∧
        presented.value = Except.ok mixedData.toValue := by
  have hplain : mixedData.isPlain = true := by
    decide
  exact ⟨hplain, conversions_agree hplain⟩

end Native

end Stencil
