import Stencil.Proofs.Value.Order

/-!
# Likeness is an equivalence

## Values by their texts

Values are alike if they become the same once every scalar in them is replaced by what it
prints.  So likeness is an equivalence, on all values, and it contains the equality that
compares scalars numerically; except that it tells the two floating-point zeros apart,
and that NaN is alike to itself.
-/

namespace Stencil

namespace Value

variable {a b : Value} {as bs : List Value} {xs ys : List (Text × Value)}

mutual

def textual : Value -> Value
  | map entries => map (textualEntries entries)
  | list items => list (textualItems items)
  | v => str v.display

def textualItems : List Value -> List Value
  | [] => []
  | item :: rest => textual item :: textualItems rest

def textualEntries : List (Text × Value) -> List (Text × Value)
  | [] => []
  | (key, item) :: rest => (key, textual item) :: textualEntries rest

end

theorem textual_of_scalar (h : a.kind = Kind.scalar) : a.textual = str a.display := by
  cases a with
  | map entries => cases h
  | list items => cases h
  | _ => rfl

theorem kind_textual (a : Value) : a.textual.kind = a.kind := by
  cases a <;> rfl

theorem alike_scalar_iff (h : a.kind = Kind.scalar) :
    a.alike b = true ↔ a.textual = b.textual := by
  rw [textual_of_scalar h]
  constructor
  · intro halike
    rw [textual_of_scalar ((kind_eq_of_alike halike).symm.trans h),
      display_eq_of_scalar_alike h halike]
  · intro heq
    have hkind : b.kind = Kind.scalar := by rw [← kind_textual b, ← heq]; rfl
    rw [textual_of_scalar hkind] at heq
    exact alike_of_scalar_display h hkind (str.inj heq)

mutual

/-- Likeness is the equality of the textual forms. -/
theorem alike_iff_textual : forall a b : Value, a.alike b = true ↔ a.textual = b.textual
  | map xs, b => by
      cases b with
      | map ys => simp only [alike, textual, map.injEq, alikeEntries_iff_textual xs ys]
      | _ => simp [alike, kind, textual]
  | list as, b => by
      cases b with
      | list bs => simp only [alike, textual, list.injEq, alikeItems_iff_textual as bs]
      | _ => simp [alike, kind, textual]
  | null, _ => alike_scalar_iff rfl
  | bool _, _ => alike_scalar_iff rfl
  | char _, _ => alike_scalar_iff rfl
  | str _, _ => alike_scalar_iff rfl
  | int _, _ => alike_scalar_iff rfl
  | nat _, _ => alike_scalar_iff rfl
  | float _, _ => alike_scalar_iff rfl
  | bytes _, _ => alike_scalar_iff rfl

theorem alikeItems_iff_textual : forall as bs : List Value,
    alikeItems as bs = true ↔ textualItems as = textualItems bs
  | [], [] => by simp [alikeItems]
  | [], _ :: _ => by simp [alikeItems, textualItems]
  | _ :: _, [] => by simp [alikeItems, textualItems]
  | a :: as, b :: bs => by
      simp only [alikeItems, textualItems, Bool.and_eq_true, List.cons.injEq,
        alike_iff_textual a b, alikeItems_iff_textual as bs]

theorem alikeEntries_iff_textual : forall xs ys : List (Text × Value),
    alikeEntries xs ys = true ↔ textualEntries xs = textualEntries ys
  | [], [] => by simp [alikeEntries]
  | [], (_, _) :: _ => by simp [alikeEntries, textualEntries]
  | (_, _) :: _, [] => by simp [alikeEntries, textualEntries]
  | (j, a) :: xs, (k, b) :: ys => by
      simp only [alikeEntries, textualEntries, Bool.and_eq_true, decide_eq_true_eq,
        List.cons.injEq, Prod.mk.injEq, alike_iff_textual a b,
        alikeEntries_iff_textual xs ys]

end

/-!
## Numeric equality

Values that are the same are equal, NaN aside, unless a zero in one of them is negative.
-/

mutual

/-- Some number inside the value is the negative zero. -/
def hasNegativeZero : Value -> Bool
  | map entries => anyNegativeZeroBound entries
  | list items => anyNegativeZero items
  | float x => x.isZero && x.isNegative
  | _ => false

def anyNegativeZero : List Value -> Bool
  | [] => false
  | item :: rest => hasNegativeZero item || anyNegativeZero rest

def anyNegativeZeroBound : List (Text × Value) -> Bool
  | [] => false
  | (_, item) :: rest => hasNegativeZero item || anyNegativeZeroBound rest

end

theorem anyNegativeZeroBound_eq_any (xs : List (Text × Value)) :
    anyNegativeZeroBound xs = xs.any fun entry => entry.2.hasNegativeZero := by
  induction xs with
  | nil => rfl
  | cons entry rest ih => simp [anyNegativeZeroBound, ih]

theorem eq_zero_of_isZero {x : Binary64} (hzero : x.isZero = true)
    (hpositive : (x.isZero && x.isNegative) = false) : x = ⟨0⟩ := by
  rw [hzero, Bool.true_and, Binary64.isNegative, decide_eq_false_iff_not] at hpositive
  rw [Binary64.isZero, Bool.and_eq_true, decide_eq_true_eq, decide_eq_true_eq,
    Binary64.exponentField, Binary64.fractionField] at hzero
  have hunit : Binary64.exponentUnit = 4503599627370496 := rfl
  have hsign : Binary64.signUnit = 9223372036854775808 := rfl
  have hbits : x.bits.toNat = 0 := by
    rw [hunit] at hzero
    omega
  exact congrArg Binary64.mk (UInt64.toNat.inj hbits)

theorem eq_of_numEq {x y : Binary64} (h : x.numEq y = true)
    (hx : (x.isZero && x.isNegative) = false) (hy : (y.isZero && y.isNegative) = false) :
    x = y := by
  simp only [Binary64.numEq, Bool.and_eq_true, Bool.or_eq_true, decide_eq_true_eq] at h
  rcases h.2 with heq | hzero
  · exact heq
  · rw [eq_zero_of_isZero hzero.1 hx, eq_zero_of_isZero hzero.2 hy]

theorem eq_of_same_scalar (hkind : a.kind = Kind.scalar) (h : a.same b = true)
    (ha : a.hasNegativeZero = false) (hb : b.hasNegativeZero = false) : a = b := by
  unfold same at h
  split at h
  · rfl
  · rw [of_decide_eq_true h]
  · rw [of_decide_eq_true h]
  · rw [of_decide_eq_true h]
  · rw [of_decide_eq_true h]
  · rw [of_decide_eq_true h]
  · rw [eq_of_numEq h ha hb]
  · rw [of_decide_eq_true h]
  · cases hkind
  · cases hkind
  · cases h

mutual

/-- Without negative zeros, only equal values are the same. -/
theorem eq_of_same : forall a b : Value, a.same b = true -> a.hasNegativeZero = false ->
    b.hasNegativeZero = false -> a = b
  | map xs, b, h, hx, hb => by
      cases b with
      | map ys => rw [eq_of_sameEntries xs ys (by simpa only [same] using h) hx hb]
      | _ => simp [same] at h
  | list as, b, h, ha, hb => by
      cases b with
      | list bs => rw [eq_of_sameItems as bs (by simpa only [same] using h) ha hb]
      | _ => simp [same] at h
  | null, _, h, ha, hb => eq_of_same_scalar rfl h ha hb
  | bool _, _, h, ha, hb => eq_of_same_scalar rfl h ha hb
  | char _, _, h, ha, hb => eq_of_same_scalar rfl h ha hb
  | str _, _, h, ha, hb => eq_of_same_scalar rfl h ha hb
  | int _, _, h, ha, hb => eq_of_same_scalar rfl h ha hb
  | nat _, _, h, ha, hb => eq_of_same_scalar rfl h ha hb
  | float _, _, h, ha, hb => eq_of_same_scalar rfl h ha hb
  | bytes _, _, h, ha, hb => eq_of_same_scalar rfl h ha hb

theorem eq_of_sameItems : forall as bs : List Value, sameItems as bs = true ->
    anyNegativeZero as = false -> anyNegativeZero bs = false -> as = bs
  | [], [], _, _, _ => rfl
  | [], _ :: _, h, _, _ => by simp [sameItems] at h
  | _ :: _, [], h, _, _ => by simp [sameItems] at h
  | a :: as, b :: bs, h, ha, hb => by
      simp only [sameItems, Bool.and_eq_true] at h
      simp only [anyNegativeZero, Bool.or_eq_false_iff] at ha hb
      rw [eq_of_same a b h.1 ha.1 hb.1, eq_of_sameItems as bs h.2 ha.2 hb.2]

theorem eq_of_sameEntries : forall xs ys : List (Text × Value), sameEntries xs ys = true ->
    anyNegativeZeroBound xs = false -> anyNegativeZeroBound ys = false -> xs = ys
  | [], [], _, _, _ => rfl
  | [], _ :: _, h, _, _ => by simp [sameEntries] at h
  | _ :: _, [], h, _, _ => by simp [sameEntries] at h
  | (j, a) :: xs, (k, b) :: ys, h, hx, hy => by
      simp only [sameEntries, Bool.and_eq_true, decide_eq_true_eq] at h
      simp only [anyNegativeZeroBound, Bool.or_eq_false_iff] at hx hy
      rw [h.1.1, eq_of_same a b h.1.2 hx.1 hy.1, eq_of_sameEntries xs ys h.2 hx.2 hy.2]

end

/-!
## Maps in any order

A map whose entries can be visited in any order is compared from one side: the entries of
both are counted, and what each entry of the first one binds is compared with what the
second one binds to its key.  At every depth this comes to the same as going through the
sorted entries of both in step.
-/

mutual

/-- Compares maps by visiting the entries of the first one, lists item by item, and all
other values with the given equality. -/
def compared (equal : Value -> Value -> Bool) : Value -> Value -> Bool
  | map xs, map ys => xs.length = ys.length && comparedEntries equal xs ys
  | list as, list bs => as.length = bs.length && comparedItems equal as bs
  | a, b => equal a b

def comparedItems (equal : Value -> Value -> Bool) : List Value -> List Value -> Bool
  | a :: as, b :: bs => compared equal a b && comparedItems equal as bs
  | _, _ => true

def comparedEntries (equal : Value -> Value -> Bool) :
    List (Text × Value) -> List (Text × Value) -> Bool
  | [], _ => true
  | (key, a) :: rest, ys =>
      (Table.find? key ys).any (fun b => compared equal a b) && comparedEntries equal rest ys

end

mutual

def Keyed : Value -> Prop
  | map entries => (Table.keys entries).Nodup ∧ KeyedEntries entries
  | list items => KeyedItems items
  | _ => True

def KeyedItems : List Value -> Prop
  | [] => True
  | item :: rest => Keyed item ∧ KeyedItems rest

def KeyedEntries : List (Text × Value) -> Prop
  | [] => True
  | (_, item) :: rest => Keyed item ∧ KeyedEntries rest

end

mutual

/-- The value with the entries of every map in the order of their keys. -/
def arranged : Value -> Value
  | map entries => map (Table.ofEntries (arrangedEntries entries))
  | list items => list (arrangedItems items)
  | v => v

def arrangedItems : List Value -> List Value
  | [] => []
  | item :: rest => arranged item :: arrangedItems rest

def arrangedEntries : List (Text × Value) -> List (Text × Value)
  | [] => []
  | (key, item) :: rest => (key, arranged item) :: arrangedEntries rest

end

theorem arrangedEntries_eq_mapItems (xs : List (Text × Value)) :
    arrangedEntries xs = Table.mapItems (fun _ => arranged) xs := by
  induction xs with
  | nil => rfl
  | cons entry rest ih => simp [arrangedEntries, ih, Table.mapItems]

@[simp] theorem length_arrangedEntries (xs : List (Text × Value)) :
    (arrangedEntries xs).length = xs.length := by
  rw [arrangedEntries_eq_mapItems, Table.mapItems, List.length_map]

@[simp] theorem keys_arrangedEntries (xs : List (Text × Value)) :
    Table.keys (arrangedEntries xs) = Table.keys xs := by
  rw [arrangedEntries_eq_mapItems, Table.mapItems, Table.keys, List.map_map]
  rfl

theorem find?_arrangedEntries (key : Text) (xs : List (Text × Value)) :
    Table.find? key (arrangedEntries xs) = (Table.find? key xs).map arranged := by
  rw [arrangedEntries_eq_mapItems, Table.find?_mapItems]

theorem KeyedEntries.of_find? (h : KeyedEntries xs) {key : Text}
    (hfind : Table.find? key xs = some a) : a.Keyed := by
  induction xs with
  | nil => cases hfind
  | cons entry rest ih =>
      rcases entry with ⟨k, first⟩
      rcases h with ⟨hfirst, hrest⟩
      rw [Table.find?_cons] at hfind
      split at hfind
      · cases hfind
        exact hfirst
      · exact ih hrest hfind

theorem arranged_of_scalar (h : a.kind = Kind.scalar) : a.arranged = a := by
  cases a with
  | map entries => cases h
  | list items => cases h
  | _ => rfl

theorem kind_arranged (a : Value) : a.arranged.kind = a.kind := by
  cases a <;> rfl

structure Structural (equal : Value -> Value -> Bool) : Prop where
  kind : forall a b, equal a b = true -> a.kind = b.kind
  items : forall as bs, equal (list as) (list bs) = true ↔
    List.Forall₂ (fun a b => equal a b = true) as bs
  entries : forall xs ys, equal (map xs) (map ys) = true ↔
    List.Forall₂ (fun x y => x.1 = y.1 ∧ equal x.2 y.2 = true) xs ys

namespace Structural

variable {equal : Value -> Value -> Bool}

theorem eq_false (h : Structural equal) (hne : a.kind ≠ b.kind) : equal a b = false :=
  Bool.eq_false_iff.mpr fun heq => hne (h.kind a b heq)

theorem compared_of_kind_ne (h : Structural equal) (hne : a.kind ≠ b.kind) :
    compared equal a b = equal a.arranged b.arranged := by
  have harranged : a.arranged.kind ≠ b.arranged.kind := by
    rwa [kind_arranged, kind_arranged]
  rw [h.eq_false harranged]
  unfold compared
  split
  · exact absurd rfl hne
  · exact absurd rfl hne
  · exact h.eq_false hne

theorem compared_scalar (h : Structural equal) (hkind : a.kind = Kind.scalar) :
    compared equal a b = equal a.arranged b.arranged := by
  by_cases hb : b.kind = Kind.scalar
  · rw [arranged_of_scalar hkind, arranged_of_scalar hb]
    unfold compared
    split
    · cases hkind
    · cases hkind
    · rfl
  · exact h.compared_of_kind_ne (by rw [hkind]; exact Ne.symm hb)

mutual

/-- The comparison from one side is the equality of the arranged values. -/
theorem compared_eq (h : Structural equal) : forall a b : Value, a.Keyed -> b.Keyed ->
    compared equal a b = equal a.arranged b.arranged
  | map xs, b, ha, hb => by
      cases b with
      | map ys =>
          rcases ha with ⟨hxs, hitems⟩
          rcases hb with ⟨hys, hothers⟩
          rw [Bool.eq_iff_iff, compared, arranged, arranged, h.entries,
            Table.forall₂_ofEntries (fun a b => equal a b = true) (by simpa using hxs)
              (by simpa using hys),
            Bool.and_eq_true, decide_eq_true_eq, comparedEntries_iff h xs hitems hothers,
            length_arrangedEntries, length_arrangedEntries]
      | _ => exact h.compared_of_kind_ne (by simp [Value.kind])
  | list as, b, ha, hb => by
      cases b with
      | list bs =>
          rw [Bool.eq_iff_iff, compared, arranged, arranged, h.items, Bool.and_eq_true,
            decide_eq_true_eq, comparedItems_iff h as bs ha hb]
      | _ => exact h.compared_of_kind_ne (by simp [Value.kind])
  | null, _, _, _ => h.compared_scalar rfl
  | bool _, _, _, _ => h.compared_scalar rfl
  | char _, _, _, _ => h.compared_scalar rfl
  | str _, _, _, _ => h.compared_scalar rfl
  | int _, _, _, _ => h.compared_scalar rfl
  | nat _, _, _, _ => h.compared_scalar rfl
  | float _, _, _, _ => h.compared_scalar rfl
  | bytes _, _, _, _ => h.compared_scalar rfl

theorem comparedItems_iff (h : Structural equal) : forall as bs : List Value,
    KeyedItems as -> KeyedItems bs ->
      ((as.length = bs.length ∧ comparedItems equal as bs = true) ↔
        List.Forall₂ (fun a b => equal a b = true) (arrangedItems as) (arrangedItems bs))
  | [], [], _, _ => by simp [comparedItems, arrangedItems]
  | [], _ :: _, _, _ => by simp [arrangedItems]
  | _ :: _, [], _, _ => by simp [arrangedItems]
  | a :: as, b :: bs, ha, hb => by
      simp only [comparedItems, arrangedItems, List.forall₂_cons, List.length_cons,
        Nat.add_right_cancel_iff, Bool.and_eq_true, compared_eq h a b ha.1 hb.1,
        ← comparedItems_iff h as bs ha.2 hb.2]
      exact and_left_comm

theorem comparedEntries_iff (h : Structural equal) : forall (xs : List (Text × Value))
    {ys : List (Text × Value)}, KeyedEntries xs -> KeyedEntries ys ->
      (comparedEntries equal xs ys = true ↔
        forall entry, entry ∈ arrangedEntries xs ->
          exists b, Table.find? entry.1 (arrangedEntries ys) = some b ∧
            equal entry.2 b = true)
  | [], _, _, _ => by simp [comparedEntries, arrangedEntries]
  | (key, a) :: xs, ys, hxs, hys => by
      have hhead : (Table.find? key ys).any (fun b => compared equal a b) = true ↔
          exists b, Table.find? key (arrangedEntries ys) = some b ∧
            equal a.arranged b = true := by
        rw [find?_arrangedEntries]
        cases hfind : Table.find? key ys with
        | none => simp
        | some b => simp [compared_eq h a b hxs.1 (hys.of_find? hfind)]
      rw [comparedEntries, Bool.and_eq_true, hhead, comparedEntries_iff h xs hxs.2 hys,
        arrangedEntries, List.forall_mem_cons]

end

end Structural

theorem kind_eq_of_same (h : a.same b = true) : a.kind = b.kind := by
  unfold same at h
  split at h
  all_goals first | rfl | cases h

theorem sameItems_iff_forall₂ :
    sameItems as bs = true ↔ List.Forall₂ (fun a b => a.same b = true) as bs := by
  induction as generalizing bs with
  | nil =>
      cases bs with
      | nil => simp [sameItems]
      | cons b bs => simp [sameItems]
  | cons a as ih =>
      cases bs with
      | nil => simp [sameItems]
      | cons b bs => simp [sameItems, ih]

theorem sameEntries_iff_forall₂ :
    sameEntries xs ys = true ↔
      List.Forall₂ (fun x y => x.1 = y.1 ∧ x.2.same y.2 = true) xs ys := by
  induction xs generalizing ys with
  | nil =>
      cases ys with
      | nil => simp [sameEntries]
      | cons y ys => simp [sameEntries]
  | cons x xs ih =>
      cases ys with
      | nil => simp [sameEntries]
      | cons y ys => simp [sameEntries, ih]

theorem structural_alike : Structural alike where
  kind _ _ h := kind_eq_of_alike h
  items _ _ := by rw [alike, alikeItems_iff_forall₂]
  entries _ _ := by rw [alike, alikeEntries_iff_forall₂]

theorem structural_same : Structural same where
  kind _ _ h := kind_eq_of_same h
  items _ _ := by rw [same, sameItems_iff_forall₂]
  entries _ _ := by rw [same, sameEntries_iff_forall₂]

mutual

theorem hasNegativeZero_arranged : forall a : Value, a.Keyed ->
    a.arranged.hasNegativeZero = a.hasNegativeZero
  | map xs, h => by
      have hkeys : (Table.keys (arrangedEntries xs)).Nodup := by simpa using h.1
      rw [arranged, hasNegativeZero, hasNegativeZero, anyNegativeZeroBound_eq_any,
        (Table.ofEntries_perm hkeys).any_eq, ← anyNegativeZeroBound_eq_any,
        anyNegativeZeroBound_arranged xs h.2]
  | list as, h => by
      rw [arranged, hasNegativeZero, hasNegativeZero, anyNegativeZero_arranged as h]
  | null, _ => rfl
  | bool _, _ => rfl
  | char _, _ => rfl
  | str _, _ => rfl
  | int _, _ => rfl
  | nat _, _ => rfl
  | float _, _ => rfl
  | bytes _, _ => rfl

theorem anyNegativeZero_arranged : forall as : List Value, KeyedItems as ->
    anyNegativeZero (arrangedItems as) = anyNegativeZero as
  | [], _ => rfl
  | a :: as, h => by
      rw [arrangedItems, anyNegativeZero, anyNegativeZero, hasNegativeZero_arranged a h.1,
        anyNegativeZero_arranged as h.2]

theorem anyNegativeZeroBound_arranged : forall xs : List (Text × Value), KeyedEntries xs ->
    anyNegativeZeroBound (arrangedEntries xs) = anyNegativeZeroBound xs
  | [], _ => rfl
  | (_, a) :: xs, h => by
      rw [arrangedEntries, anyNegativeZeroBound, anyNegativeZeroBound,
        hasNegativeZero_arranged a h.1, anyNegativeZeroBound_arranged xs h.2]

end

/-!
## What likeness is
-/

/-- A comparison by what is printed: an equivalence on the values of a domain that keeps
the three kinds apart and contains the given equality, as far as no zero is negative. -/
structure IsLikeness (domain : Value -> Prop) (like equal : Value -> Value -> Bool) :
    Prop where
  equivalence : Equivalence fun a b : { v : Value // domain v } => like a b = true
  kind : forall a b, domain a -> domain b -> like a b = true -> a.kind = b.kind
  of_equal : forall a b, domain a -> domain b -> equal a b = true ->
    a.hasNegativeZero = false -> b.hasNegativeZero = false -> like a b = true

theorem alike_of_same (h : a.same b = true) (ha : a.hasNegativeZero = false)
    (hb : b.hasNegativeZero = false) : a.alike b = true := by
  rw [eq_of_same a b h ha hb]
  exact alike_refl b

theorem isLikeness_alike : IsLikeness (fun _ => True) alike same where
  equivalence := by
    simp only [alike_iff_textual]
    exact ⟨fun _ => rfl, Eq.symm, Eq.trans⟩
  kind _ _ _ _ h := kind_eq_of_alike h
  of_equal _ _ _ _ h ha hb := alike_of_same h ha hb

theorem isLikeness_compared : IsLikeness Keyed (compared alike) (compared same) where
  equivalence := by
    have heq : forall a b : { v : Value // v.Keyed },
        compared alike a b = true ↔ a.val.arranged.textual = b.val.arranged.textual := by
      intro a b
      rw [structural_alike.compared_eq a b a.property b.property, alike_iff_textual]
    simp only [heq]
    exact ⟨fun _ => rfl, Eq.symm, Eq.trans⟩
  kind a b ha hb h := by
    rw [structural_alike.compared_eq a b ha hb] at h
    rw [← kind_arranged a, ← kind_arranged b]
    exact kind_eq_of_alike h
  of_equal a b ha hb h hza hzb := by
    rw [structural_same.compared_eq a b ha hb] at h
    rw [structural_alike.compared_eq a b ha hb]
    rw [← hasNegativeZero_arranged a ha] at hza
    rw [← hasNegativeZero_arranged b hb] at hzb
    exact alike_of_same h hza hzb

/-- Likeness is an equivalence that contains numeric equality, for all values.  So is the
comparison that visits only the entries of the first of two maps, for values whose maps
have different keys in any order; it is the likeness of the values with sorted keys. -/
theorem isLikeness_alike_compared :
    IsLikeness (fun _ => True) alike same ∧
      IsLikeness Keyed (compared alike) (compared same) ∧
      forall a b : Value, a.Keyed -> b.Keyed ->
        compared alike a b = a.arranged.alike b.arranged ∧
          compared same a b = a.arranged.same b.arranged :=
  ⟨isLikeness_alike, isLikeness_compared, fun a b ha hb =>
    ⟨structural_alike.compared_eq a b ha hb, structural_same.compared_eq a b ha hb⟩⟩

def unsortedSample : Value :=
  list [map [(['z'], nat 5), (['x'], float ⟨0x7ff8000000000000⟩)], bool true]

def sortedSample : Value :=
  list [map [(['x'], str "NaN".toList), (['z'], int 5)], str "true".toList]

theorem isLikeness_alike_compared_sample :
    unsortedSample.Keyed ∧ sortedSample.Keyed ∧
      compared alike sortedSample unsortedSample = true ∧
      unsortedSample.arranged.alike sortedSample.arranged = true ∧
      sortedSample.same sortedSample = true ∧ sortedSample.hasNegativeZero = false ∧
      sortedSample.alike sortedSample = true := by
  have hunsorted : unsortedSample.Keyed := by
    simp [unsortedSample, Keyed, KeyedItems, KeyedEntries, Table.keys]
  have hsorted : sortedSample.Keyed := by
    simp [sortedSample, Keyed, KeyedItems, KeyedEntries, Table.keys]
  have halike : compared alike unsortedSample sortedSample = true := by decide
  have hlaws := isLikeness_alike_compared
  rcases hlaws with ⟨hall, hkeyed, harranged⟩
  refine ⟨hunsorted, hsorted, ?_, ?_, by decide, by decide, ?_⟩
  · exact @hkeyed.equivalence.symm ⟨_, hunsorted⟩ ⟨_, hsorted⟩ halike
  · rw [← (harranged _ _ hunsorted hsorted).1]
    exact halike
  · exact hall.of_equal _ _ trivial trivial (by decide) (by decide) (by decide)

end Value

end Stencil
