import Mathlib.Data.List.Forall2

/-!
# Rows of attempts

## The first failure

A row of computations that may fail is tried from the left.  The row succeeds if each of
them does; otherwise it fails as the first one does that fails, behind a part of the row
that succeeds by itself.
-/

namespace Stencil

variable {source target state fault : Type} {xs : List source} {e : fault}

theorem map_eq_ok_iff {x : Except fault source} {f : source -> target} {b : target} :
    x.map f = Except.ok b ↔ exists a, x = Except.ok a ∧ f a = b := by
  cases x with
  | error found => simp [Except.map]
  | ok a => simp [Except.map]

theorem map_eq_error_iff {x : Except fault source} {f : source -> target} :
    x.map f = Except.error e ↔ x = Except.error e := by
  cases x with
  | error found => simp [Except.map]
  | ok a => simp [Except.map]

theorem exists_map_eq_ok_iff {x : Except fault source} {f : source -> target} :
    (exists b, x.map f = Except.ok b) ↔ exists a, x = Except.ok a := by
  cases x with
  | error found => simp [Except.map]
  | ok a => simp [Except.map]

theorem mapError_eq_ok_iff {x : Except fault target} {f : fault -> source} {b : target} :
    x.mapError f = Except.ok b ↔ x = Except.ok b := by
  cases x with
  | error found => simp [Except.mapError]
  | ok a => simp [Except.mapError]

theorem mapError_eq_error_iff {x : Except fault target} {f : fault -> source}
    {e : source} :
    x.mapError f = Except.error e ↔ exists found, x = Except.error found ∧ f found = e := by
  cases x with
  | error found => simp [Except.mapError]
  | ok a => simp [Except.mapError]

theorem mapM_eq_ok_iff {f : source -> Except fault target} {ys : List target} :
    xs.mapM f = Except.ok ys ↔ List.Forall₂ (fun x y => f x = Except.ok y) xs ys := by
  induction xs generalizing ys with
  | nil =>
      rw [List.mapM_nil, List.forall₂_nil_left_iff]
      constructor
      · intro h
        cases h
        rfl
      · intro h
        rw [h]
        rfl
  | cons x rest ih =>
      rw [List.mapM_cons, List.forall₂_cons_left_iff]
      cases hx : f x with
      | error found =>
          constructor
          · intro h
            cases h
          · rintro ⟨y, others, hy, _, _⟩
            cases hy
      | ok y =>
          constructor
          · intro h
            cases hrest : rest.mapM f with
            | error found =>
                rw [hrest] at h
                cases h
            | ok others =>
                rw [hrest] at h
                cases h
                exact ⟨y, others, rfl, ih.mp hrest, rfl⟩
          · rintro ⟨_, others, hy, hrest, rfl⟩
            cases hy
            rw [ih.mpr hrest]
            rfl

theorem exists_forall₂_iff {R : source -> target -> Prop} :
    (exists ys, List.Forall₂ R xs ys) ↔ forall x, x ∈ xs -> exists y, R x y := by
  induction xs with
  | nil => simp
  | cons x rest ih =>
      rw [List.forall_mem_cons, ← ih]
      constructor
      · rintro ⟨ys, h⟩
        cases h with
        | cons hx hrest => exact ⟨⟨_, hx⟩, _, hrest⟩
      · rintro ⟨⟨y, hx⟩, ys, hrest⟩
        exact ⟨y :: ys, List.Forall₂.cons hx hrest⟩

theorem forall₂_imp_of_mem {R S : source -> target -> Prop} {ys : List target}
    (h : List.Forall₂ R xs ys) (himp : forall x, x ∈ xs -> forall y, R x y -> S x y) :
    List.Forall₂ S xs ys :=
  ((List.forall₂_and_left xs ys).mpr ⟨himp, h⟩).imp fun _ y hxy => hxy.1 y hxy.2

theorem exists_mem_of_forall₂ {R : source -> target -> Prop} {ys : List target}
    (h : List.Forall₂ R xs ys) {x : source} (hmem : x ∈ xs) :
    exists y, y ∈ ys ∧ R x y := by
  induction h with
  | nil => cases hmem
  | @cons a b _ _ hfirst _ ih =>
      rcases List.mem_cons.mp hmem with rfl | hrest
      · exact ⟨b, List.mem_cons_self, hfirst⟩
      · rcases ih hrest with ⟨y, hy, hxy⟩
        exact ⟨y, List.mem_cons_of_mem _ hy, hxy⟩

theorem forall₂_labelled_iff {label : Type} {R : source -> target -> Prop}
    {sources : List (label × source)} {targets : List (label × target)} :
    List.Forall₂ (fun x y => x.1 = y.1 ∧ R x.2 y.2) sources targets ↔
      sources.map Prod.fst = targets.map Prod.fst ∧
        List.Forall₂ R (sources.map Prod.snd) (targets.map Prod.snd) := by
  induction sources generalizing targets with
  | nil => cases targets <;> simp
  | cons x rest ih =>
      cases targets with
      | nil => simp
      | cons y others =>
          simp only [List.forall₂_cons, ih, List.map_cons, List.cons.injEq]
          exact and_and_and_comm

theorem mapM_eq_error_iff {f : source -> Except fault target} :
    xs.mapM f = Except.error e ↔
      exists before x after ys, xs = before ++ x :: after ∧
        before.mapM f = Except.ok ys ∧ f x = Except.error e := by
  constructor
  · intro h
    induction xs with
    | nil => cases h
    | cons first rest ih =>
        rw [List.mapM_cons] at h
        cases hfirst : f first with
        | error found =>
            rw [hfirst] at h
            cases h
            exact ⟨[], first, rest, [], rfl, rfl, hfirst⟩
        | ok y =>
            cases hrest : rest.mapM f with
            | ok others =>
                rw [hfirst, hrest] at h
                cases h
            | error found =>
                rw [hfirst, hrest] at h
                cases h
                rcases ih hrest with ⟨before, x, after, ys, rfl, hbefore, hx⟩
                refine ⟨first :: before, x, after, y :: ys, rfl, ?_, hx⟩
                rw [List.mapM_cons, hfirst, hbefore]
                rfl
  · rintro ⟨before, x, after, ys, rfl, hbefore, hx⟩
    rw [List.mapM_append, hbefore, List.mapM_cons, hx]
    rfl

theorem foldlM_eq_error_iff {f : state -> source -> Except fault state} {start : state} :
    xs.foldlM f start = Except.error e ↔
      exists before x after middle, xs = before ++ x :: after ∧
        before.foldlM f start = Except.ok middle ∧ f middle x = Except.error e := by
  constructor
  · intro h
    induction xs generalizing start with
    | nil => cases h
    | cons first rest ih =>
        rw [List.foldlM_cons] at h
        cases hfirst : f start first with
        | error found =>
            rw [hfirst] at h
            cases h
            exact ⟨[], first, rest, start, rfl, rfl, hfirst⟩
        | ok next =>
            rw [hfirst] at h
            rcases ih h with ⟨before, x, after, middle, rfl, hbefore, hx⟩
            refine ⟨first :: before, x, after, middle, rfl, ?_, hx⟩
            rw [List.foldlM_cons, hfirst]
            exact hbefore
  · rintro ⟨before, x, after, middle, rfl, hbefore, hx⟩
    rw [List.foldlM_append, hbefore]
    show (x :: after).foldlM f middle = Except.error e
    rw [List.foldlM_cons, hx]
    rfl

end Stencil
