import Stencil.Proofs.Data.Entries

/-!
# Building maps

## Keys and values in turn

A map is handed over as a row of keys and values.  Each value needs a key that was handed
over since the last value, and it is bound to the last such key; a key that is followed
by another key, or by nothing, is forgotten.
-/

namespace Stencil

namespace Slot

def KeyWaits (roles : List Slot) : Prop :=
  exists earlier later, roles = earlier ++ key :: later ∧ value ∉ later

def ValuesHaveKeys (roles : List Slot) : Prop :=
  forall before after, roles = before ++ value :: after -> KeyWaits before

variable {roles : List Slot} {slot : Slot}

theorem not_keyWaits_nil : ¬ KeyWaits [] := by
  rintro ⟨earlier, later, hnil, _⟩
  cases earlier <;> cases hnil

theorem keyWaits_concat : KeyWaits (roles ++ [slot]) ↔ slot = key := by
  constructor
  · rintro ⟨earlier, later, heq, hlater⟩
    rcases List.eq_nil_or_concat' later with rfl | ⟨front, last, rfl⟩
    · exact List.singleton_inj.mp (List.append_inj_right' heq rfl)
    · rw [← List.cons_append, ← List.append_assoc] at heq
      cases List.singleton_inj.mp (List.append_inj_right' heq rfl)
      cases slot with
      | key => rfl
      | value => simp at hlater
  · rintro rfl
    exact ⟨roles, [], rfl, List.not_mem_nil⟩

theorem valuesHaveKeys_nil : ValuesHaveKeys [] := by
  intro before after hnil
  cases before <;> cases hnil

theorem valuesHaveKeys_concat :
    ValuesHaveKeys (roles ++ [slot]) ↔
      ValuesHaveKeys roles ∧ (slot = value -> KeyWaits roles) := by
  constructor
  · intro h
    constructor
    · rintro before after rfl
      exact h before (after ++ [slot]) (by simp)
    · rintro rfl
      exact h roles [] rfl
  · rintro ⟨hroles, hslot⟩ before after heq
    rcases List.eq_nil_or_concat' after with rfl | ⟨front, last, rfl⟩
    · cases List.append_inj_left' heq rfl
      exact hslot (List.singleton_inj.mp (List.append_inj_right' heq rfl))
    · rw [← List.cons_append, ← List.append_assoc] at heq
      exact hroles before front (List.append_inj_left' heq rfl)

end Slot

/-!
## Building a map

A map that is being built is settled by the keys and values that were handed to it.
-/

namespace MapBuilder

/-- Each value with the text of the key right before it.  A key that is not followed by a
value is left out. -/
def bindings : List (Slot × Value) -> List (Text × Value)
  | (Slot.key, key) :: (Slot.value, v) :: rest => (key.display, v) :: bindings rest
  | _ :: rest => bindings rest
  | [] => []

variable {b next : MapBuilder} {calls : List (Slot × Value)} {slot : Slot} {v : Value}

theorem bindings_append_key (calls rest : List (Slot × Value)) (key : Value) :
    bindings (calls ++ (Slot.key, key) :: rest) =
      bindings calls ++ bindings ((Slot.key, key) :: rest) := by
  fun_induction bindings calls with
  | case1 first v others ih => simp [bindings, ih]
  | case2 first others hothers ih =>
      rw [List.cons_append, bindings, ih]
      rintro k v after rfl hafter
      cases others with
      | nil => cases hafter
      | cons second others =>
          cases hafter
          exact hothers k v others rfl rfl
  | case3 => rfl

theorem bindings_concat_key (calls : List (Slot × Value)) (key : Value) :
    bindings (calls ++ [(Slot.key, key)]) = bindings calls := by
  rw [bindings_append_key]
  exact List.append_nil _

theorem bindings_concat_entry (calls : List (Slot × Value)) (key v : Value) :
    bindings (calls ++ [(Slot.key, key)] ++ [(Slot.value, v)]) =
      bindings calls ++ [(key.display, v)] := by
  rw [List.append_assoc]
  exact bindings_append_key calls [(Slot.value, v)] key

structure BuiltFrom (b : MapBuilder) (calls : List (Slot × Value)) : Prop where
  entries : b.entries = Table.ofEntries (bindings calls)
  pending : forall name, b.pending = some name ↔
    exists before key, calls = before ++ [(Slot.key, key)] ∧ key.display = name

theorem builtFrom_empty : empty.BuiltFrom [] := by
  refine ⟨rfl, fun name => ?_⟩
  constructor
  · intro h
    cases h
  · rintro ⟨before, key, hnil, _⟩
    cases before <;> cases hnil

theorem pending_isSome_iff (h : b.BuiltFrom calls) :
    b.pending.isSome = true ↔ Slot.KeyWaits (calls.map Prod.fst) := by
  rw [Option.isSome_iff_exists]
  constructor
  · rintro ⟨name, hname⟩
    rcases (h.pending name).mp hname with ⟨before, key, rfl, _⟩
    rw [List.map_append]
    exact Slot.keyWaits_concat.mpr rfl
  · intro hwaits
    rcases List.eq_nil_or_concat' calls with rfl | ⟨before, last, rfl⟩
    · exact absurd hwaits Slot.not_keyWaits_nil
    · rcases last with ⟨slot, key⟩
      rw [List.map_append] at hwaits
      cases Slot.keyWaits_concat.mp hwaits
      exact ⟨key.display, (h.pending _).mpr ⟨before, key, rfl, rfl⟩⟩

theorem putKey_eq_ok_iff :
    b.putKey v = Except.ok next ↔
      v.keyText?.isSome = true ∧ next = { b with pending := some v.display } := by
  cases v <;> simp [putKey, Value.keyText?, eq_comm]

theorem putValue_eq_ok_iff :
    b.putValue v = Except.ok next ↔
      exists name, b.pending = some name ∧
        next = ⟨Table.insert name v b.entries, none⟩ := by
  unfold putValue
  cases b.pending with
  | none => simp
  | some name => simp [eq_comm]

theorem BuiltFrom.put (h : b.BuiltFrom calls) (hput : b.put v slot = Except.ok next) :
    next.BuiltFrom (calls ++ [(slot, v)]) := by
  cases slot with
  | key =>
      rcases putKey_eq_ok_iff.mp hput with ⟨_, rfl⟩
      constructor
      case entries => rw [bindings_concat_key, h.entries]
      case pending =>
        intro name
        constructor
        · intro hname
          exact ⟨calls, v, rfl, Option.some.inj hname⟩
        · rintro ⟨before, key, heq, rfl⟩
          cases List.singleton_inj.mp (List.append_inj_right' heq rfl)
          rfl
  | value =>
      rcases putValue_eq_ok_iff.mp hput with ⟨name, hname, rfl⟩
      rcases (h.pending name).mp hname with ⟨before, key, rfl, rfl⟩
      constructor
      case entries =>
        rw [bindings_concat_entry, Table.ofEntries_concat, h.entries, bindings_concat_key]
      case pending =>
        intro other
        constructor
        · intro hother
          cases hother
        · rintro ⟨front, last, heq, _⟩
          cases List.singleton_inj.mp (List.append_inj_right' heq rfl)

theorem exists_put_iff (h : b.BuiltFrom calls) :
    (exists next, b.put v slot = Except.ok next) ↔
      (slot = Slot.key -> v.keyText?.isSome = true) ∧
        (slot = Slot.value -> Slot.KeyWaits (calls.map Prod.fst)) := by
  cases slot with
  | key => simp [MapBuilder.put, putKey_eq_ok_iff]
  | value =>
      simp [MapBuilder.put, putValue_eq_ok_iff, ← pending_isSome_iff h,
        Option.isSome_iff_exists]

theorem put_eq_error_iff (h : b.BuiltFrom calls) {fault : DataFault} :
    b.put v slot = Except.error fault ↔
      (slot = Slot.key ∧ v.keyText?.isSome = false ∧ DataFault.keyNotScalar = fault) ∨
        (slot = Slot.value ∧ ¬ Slot.KeyWaits (calls.map Prod.fst) ∧
          DataFault.valueWithoutKey = fault) := by
  rw [← pending_isSome_iff h]
  cases slot with
  | key => cases v <;> simp [MapBuilder.put, putKey, Value.keyText?]
  | value =>
      unfold MapBuilder.put putValue
      cases b.pending with
      | none => simp
      | some name => simp

end MapBuilder

end Stencil
