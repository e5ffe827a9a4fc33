import Mathlib.Data.List.Forall2
import Stencil.Proofs.Table
import Stencil.Value.Equality

/-!
# Likeness of values

## Alike values have the same shape and print the same

Values that are alike may differ in their scalars, a number against its numeral
or bytes against a text, anywhere inside.  They print the same, and what is taken
from the same place in both is alike again.
-/

namespace Stencil

namespace Value

variable {a b : Value} {as bs : List Value} {xs ys : List (Text × Value)}

/-!
## What is alike has the same kind
-/

theorem exists_of_map_alike (h : (map xs).alike b = true) :
    exists ys, b = map ys ∧ alikeEntries xs ys = true := by
  cases b with
  | map ys => exact ⟨ys, rfl, by simpa [alike] using h⟩
  | _ => simp [alike, kind] at h

theorem exists_of_list_alike (h : (list as).alike b = true) :
    exists bs, b = list bs ∧ alikeItems as bs = true := by
  cases b with
  | list bs => exact ⟨bs, rfl, by simpa [alike] using h⟩
  | _ => simp [alike, kind] at h

theorem kind_eq_of_alike (h : a.alike b = true) : a.kind = b.kind := by
  unfold alike at h
  split at h
  · rfl
  · rfl
  · simp only [Bool.and_eq_true, decide_eq_true_eq] at h
    rw [h.1.1, h.1.2]

theorem display_eq_of_scalar_alike (hkind : a.kind = Kind.scalar)
    (h : a.alike b = true) : a.display = b.display := by
  unfold alike at h
  split at h
  · cases hkind
  · cases hkind
  · simp only [Bool.and_eq_true, decide_eq_true_eq] at h
    exact h.2

theorem alike_of_scalar_display (ha : a.kind = Kind.scalar) (hb : b.kind = Kind.scalar)
    (h : a.display = b.display) : a.alike b = true := by
  unfold alike
  split
  · cases ha
  · cases ha
  · simp only [ha, hb, h, decide_true, Bool.and_true]

theorem alikeItems_iff_forall₂ :
    alikeItems as bs = true ↔ List.Forall₂ (fun a b => a.alike b = true) as bs := by
  induction as generalizing bs with
  | nil =>
      cases bs with
      | nil => simp [alikeItems]
      | cons b bs => simp [alikeItems]
  | cons a as ih =>
      cases bs with
      | nil => simp [alikeItems]
      | cons b bs => simp [alikeItems, ih]

theorem alikeEntries_iff_forall₂ :
    alikeEntries xs ys = true ↔
      List.Forall₂ (fun x y => x.1 = y.1 ∧ x.2.alike y.2 = true) xs ys := by
  induction xs generalizing ys with
  | nil =>
      cases ys with
      | nil => simp [alikeEntries]
      | cons y ys => simp [alikeEntries]
  | cons x xs ih =>
      cases ys with
      | nil => simp [alikeEntries]
      | cons y ys => simp [alikeEntries, ih]

mutual

theorem alike_refl : forall a : Value, a.alike a = true
  | map xs => by
      rw [alike]
      exact alikeEntries_refl xs
  | list as => by
      rw [alike]
      exact alikeItems_refl as
  | null => alike_of_scalar_display rfl rfl rfl
  | bool _ => alike_of_scalar_display rfl rfl rfl
  | char _ => alike_of_scalar_display rfl rfl rfl
  | str _ => alike_of_scalar_display rfl rfl rfl
  | int _ => alike_of_scalar_display rfl rfl rfl
  | nat _ => alike_of_scalar_display rfl rfl rfl
  | float _ => alike_of_scalar_display rfl rfl rfl
  | bytes _ => alike_of_scalar_display rfl rfl rfl

theorem alikeItems_refl : forall as : List Value, alikeItems as as = true
  | [] => by simp [alikeItems]
  | a :: as => by simp [alikeItems, alike_refl a, alikeItems_refl as]

theorem alikeEntries_refl : forall xs : List (Text × Value), alikeEntries xs xs = true
  | [] => by simp [alikeEntries]
  | (key, a) :: xs => by simp [alikeEntries, alike_refl a, alikeEntries_refl xs]

end

/-!
## What is alike prints the same
-/

mutual

theorem display_eq_of_alike :
    forall (a : Value) {b : Value}, a.alike b = true -> a.display = b.display
  | map xs, b, h => by
      rcases exists_of_map_alike h with ⟨ys, rfl, hentries⟩
      rw [display, display, displayEntries_eq_of_alike xs hentries]
  | list as, b, h => by
      rcases exists_of_list_alike h with ⟨bs, rfl, hitems⟩
      rw [display, display, displayItems_eq_of_alike as hitems]
  | null, _, h => display_eq_of_scalar_alike rfl h
  | bool _, _, h => display_eq_of_scalar_alike rfl h
  | char _, _, h => display_eq_of_scalar_alike rfl h
  | str _, _, h => display_eq_of_scalar_alike rfl h
  | int _, _, h => display_eq_of_scalar_alike rfl h
  | nat _, _, h => display_eq_of_scalar_alike rfl h
  | float _, _, h => display_eq_of_scalar_alike rfl h
  | bytes _, _, h => display_eq_of_scalar_alike rfl h

theorem displayItems_eq_of_alike :
    forall (as : List Value) {bs : List Value},
      alikeItems as bs = true -> displayItems as = displayItems bs
  | [], [], _ => rfl
  | [], _ :: _, h => by simp [alikeItems] at h
  | _ :: _, [], h => by simp [alikeItems] at h
  | a :: as, b :: bs, h => by
      simp only [alikeItems, Bool.and_eq_true] at h
      rw [displayItems, displayItems, display_eq_of_alike a h.1,
        displayItems_eq_of_alike as h.2]

theorem displayEntries_eq_of_alike :
    forall (xs : List (Text × Value)) {ys : List (Text × Value)},
      alikeEntries xs ys = true -> displayEntries xs = displayEntries ys
  | [], [], _ => rfl
  | [], _ :: _, h => by simp [alikeEntries] at h
  | _ :: _, [], h => by simp [alikeEntries] at h
  | (j, a) :: xs, (k, b) :: ys, h => by
      simp only [alikeEntries, Bool.and_eq_true, decide_eq_true_eq] at h
      rw [displayEntries, displayEntries, h.1.1, display_eq_of_alike a h.1.2,
        displayEntries_eq_of_alike xs h.2]

end

/-!
## What is alike has the same parts
-/

theorem find?_alike (h : alikeEntries xs ys = true) (key : Text) :
    Option.Rel (fun a b => a.alike b = true) (Table.find? key xs)
      (Table.find? key ys) := by
  rw [alikeEntries_iff_forall₂] at h
  induction h with
  | nil =>
      exact Option.Rel.none
  | @cons x y xs ys hhead _ ih =>
      rcases x with ⟨j, a⟩
      rcases y with ⟨k, b⟩
      rcases hhead with ⟨hkey, hab⟩
      cases hkey
      rw [Table.find?_cons, Table.find?_cons]
      split
      · exact Option.Rel.some hab
      · exact ih

theorem asMap?_alike (h : a.alike b = true) :
    Option.Rel (fun xs ys => alikeEntries xs ys = true) a.asMap? b.asMap? := by
  cases a with
  | map xs =>
      rcases exists_of_map_alike h with ⟨ys, rfl, hentries⟩
      exact Option.Rel.some hentries
  | _ =>
      have hkind := kind_eq_of_alike h
      cases b with
      | map ys => cases hkind
      | _ => exact Option.Rel.none

theorem asList?_alike (h : a.alike b = true) :
    Option.Rel (List.Forall₂ fun a b => a.alike b = true) a.asList? b.asList? := by
  cases a with
  | list as =>
      rcases exists_of_list_alike h with ⟨bs, rfl, hitems⟩
      exact Option.Rel.some (alikeItems_iff_forall₂.mp hitems)
  | _ =>
      have hkind := kind_eq_of_alike h
      cases b with
      | list bs => cases hkind
      | _ => exact Option.Rel.none

theorem isEmpty_eq_of_alike (h : alikeEntries xs ys = true) :
    xs.isEmpty = ys.isEmpty := by
  cases alikeEntries_iff_forall₂.mp h with
  | nil => rfl
  | cons _ _ => rfl

theorem alikeEntries_insert (h : alikeEntries xs ys = true) (key : Text)
    (hab : a.alike b = true) :
    alikeEntries (Table.insert key a xs) (Table.insert key b ys) = true := by
  rw [alikeEntries_iff_forall₂] at h ⊢
  induction h with
  | nil => exact List.Forall₂.cons ⟨rfl, hab⟩ List.Forall₂.nil
  | @cons x y xs ys hhead hrest ih =>
      rcases x with ⟨j, c⟩
      rcases y with ⟨k, d⟩
      rcases hhead with ⟨hkey, hcd⟩
      cases hkey
      unfold Table.insert
      split
      · exact List.Forall₂.cons ⟨rfl, hab⟩ (List.Forall₂.cons ⟨rfl, hcd⟩ hrest)
      · split
        · exact List.Forall₂.cons ⟨rfl, hab⟩ hrest
        · exact List.Forall₂.cons ⟨rfl, hcd⟩ ih

end Value

end Stencil
