import Mathlib.Data.List.Infix
import Stencil.Text.Basic

/-!
# Replacing what a pattern matches

## From the left, and as much as possible

A text is searched from left to right for a pattern.  Where the pattern matches, the
longest match is replaced, and the search goes on behind it; any other character is
kept.  So a match starts as far to the left as it can, and matches do not overlap.

This settles what becomes of every text.  If the replacement is shorter than any match,
then a text is shortened unless the pattern occurs nowhere in it.
-/

namespace Stencil

namespace Text

structure Longest (pattern : Text -> Prop) (found rest : Text) : Prop where
  matched : pattern found
  length_le : forall other, other <+: found ++ rest -> pattern other ->
    other.length ≤ found.length

inductive Replaced (pattern : Text -> Prop) (new : Text) : Text -> Text -> Prop where
  | nil : Replaced pattern new [] []
  | keep {c : Char} {s t : Text} :
      (forall found, found <+: c :: s -> ¬ pattern found) ->
      Replaced pattern new s t ->
      Replaced pattern new (c :: s) (c :: t)
  | replace {found rest t : Text} :
      found ≠ [] ->
      Longest pattern found rest ->
      Replaced pattern new rest t ->
      Replaced pattern new (found ++ rest) (new ++ t)

variable {pattern : Text -> Prop} {new s t u found rest : Text}

theorem Longest.eq {found' rest' : Text} (h : Longest pattern found rest)
    (h' : Longest pattern found' rest') (heq : found ++ rest = found' ++ rest') :
    found = found' ∧ rest = rest' := by
  have hle := h.length_le found' (heq ▸ List.prefix_append _ _) h'.matched
  have hge := h'.length_le found (heq ▸ List.prefix_append _ _) h.matched
  exact List.append_inj heq (Nat.le_antisymm hge hle)

theorem Replaced.unique (h : Replaced pattern new s t) (h' : Replaced pattern new s u) :
    t = u := by
  induction h generalizing u with
  | nil =>
      generalize hs : ([] : Text) = s at h'
      cases h' with
      | nil => rfl
      | keep _ _ => cases hs
      | replace hne _ _ => exact absurd (List.append_eq_nil_iff.mp hs.symm).1 hne
  | @keep c s t hnone _ ih =>
      generalize hs : c :: s = whole at h'
      cases h' with
      | nil => cases hs
      | keep _ hrest =>
          cases hs
          rw [ih hrest]
      | replace _ hlongest _ =>
          exact absurd hlongest.matched (hnone _ (hs ▸ List.prefix_append _ _))
  | @replace found rest t hne hlongest _ ih =>
      generalize hs : found ++ rest = whole at h'
      cases h' with
      | nil => exact absurd (List.append_eq_nil_iff.mp hs).1 hne
      | keep hnone _ =>
          exact absurd hlongest.matched (hnone _ (hs ▸ List.prefix_append _ _))
      | replace _ hlongest' hrest =>
          rcases hlongest.eq hlongest' hs with ⟨rfl, rfl⟩
          rw [ih hrest]

/-!
## Shorter replacements
-/

theorem Replaced.length_le (hshorter : forall found, pattern found -> new.length < found.length)
    (h : Replaced pattern new s t) : t.length ≤ s.length := by
  induction h with
  | nil => exact Nat.le_refl _
  | keep _ _ ih => exact Nat.succ_le_succ ih
  | replace _ hlongest _ ih =>
      have hlt := hshorter _ hlongest.matched
      rw [List.length_append, List.length_append]
      omega

theorem Replaced.not_infix_of_length_eq
    (hshorter : forall found, pattern found -> new.length < found.length)
    (h : Replaced pattern new s t) (hlength : t.length = s.length) (hfound : pattern found) :
    ¬ found <:+: s := by
  induction h with
  | nil =>
      intro hinfix
      have hlt := hshorter found hfound
      rw [List.infix_nil.mp hinfix] at hlt
      exact absurd hlt (Nat.not_lt_zero _)
  | keep hnone _ ih =>
      intro hinfix
      rcases List.infix_cons_iff.mp hinfix with hhere | hlater
      · exact hnone found hhere hfound
      · exact ih (Nat.succ.inj hlength) hlater
  | replace _ hlongest hrest _ =>
      have hlt := hshorter _ hlongest.matched
      have hle := hrest.length_le hshorter
      rw [List.length_append, List.length_append] at hlength
      omega

theorem Replaced.not_infix_of_self
    (hshorter : forall found, pattern found -> new.length < found.length)
    (h : Replaced pattern new s s) (hfound : pattern found) : ¬ found <:+: s :=
  h.not_infix_of_length_eq hshorter rfl hfound

/-!
## Runs of characters of a kind
-/

structure Run (p : Char -> Bool) (run rest : Text) : Prop where
  all : forall c, c ∈ run -> p c = true
  ends : rest.head?.all (fun c => !p c) = true

variable {p : Char -> Bool} {run : Text}

theorem exists_run (p : Char -> Bool) (s : Text) :
    exists run rest, s = run ++ rest ∧ Run p run rest := by
  induction s with
  | nil => exact ⟨[], [], rfl, by simp, rfl⟩
  | cons c s ih =>
      cases hc : p c with
      | true =>
          rcases ih with ⟨run, rest, rfl, hrun⟩
          refine ⟨c :: run, rest, rfl, ?_, hrun.ends⟩
          simpa [hc] using hrun.all
      | false => exact ⟨[], c :: s, rfl, by simp, by simp [hc]⟩

theorem Run.dropWhile_eq (h : Run p run rest) : (run ++ rest).dropWhile p = rest := by
  rw [List.dropWhile_append_of_pos h.all]
  cases rest with
  | nil => rfl
  | cons c rest =>
      have hc : p c = false := by simpa using h.ends
      exact List.dropWhile_cons_of_neg (by simp [hc])

theorem Run.length_le {other : Text} (h : Run p run rest)
    (hother : forall c, c ∈ other -> p c = true) (hstart : other <+: run ++ rest) :
    other.length ≤ run.length := by
  by_contra hlt
  rw [Nat.not_le] at hlt
  rcases List.prefix_of_prefix_length_le (List.prefix_append run rest) hstart
    (Nat.le_of_lt hlt) with ⟨more, rfl⟩
  cases more with
  | nil => simp at hlt
  | cons c more =>
      rw [List.prefix_append_right_inj] at hstart
      rcases hstart with ⟨behind, rfl⟩
      have hc := hother c (by simp)
      have hends := h.ends
      simp [hc] at hends

end Text

end Stencil
