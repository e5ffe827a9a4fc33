import Stencil.Proofs.Text.Replacement
import Stencil.Template.Filter

/-!
# The passes of a filter are replacements

## A line break in place of white space

Each pass of a filter puts one line break in place of every match of a pattern, from the
left and as much as possible at a time.  The patterns are a line break with blanks behind
it, blanks with a line break behind them, and two or more line breaks.  So a filter is
settled by its patterns and their order, whatever way the passes go about it.
-/

namespace Stencil

namespace Filter

def AllBlank (s : Text) : Prop :=
  forall c, c ∈ s -> isBlank c = true

def IsIndent (found : Text) : Prop :=
  exists blanks, blanks ≠ [] ∧ AllBlank blanks ∧ found = '\n' :: blanks

def IsTrail (found : Text) : Prop :=
  exists blanks, blanks ≠ [] ∧ AllBlank blanks ∧ found = blanks ++ ['\n']

def IsGap (found : Text) : Prop :=
  exists count, 2 ≤ count ∧ found = List.replicate count '\n'

def Pass (chosen : Bool) (pattern : Text -> Prop) (s t : Text) : Prop :=
  if chosen then Text.Replaced pattern ['\n'] s t else t = s

/-- The passes that the filter chooses lead from the first text to the second. -/
def Rewrites (filter : Filter) (s t : Text) : Prop :=
  exists u v, Pass filter.trimLeft IsIndent s u ∧ Pass filter.trimRight IsTrail u v ∧
    Pass filter.collapse IsGap v t

theorem Pass.unique {chosen : Bool} {pattern : Text -> Prop} {s t u : Text}
    (h : Pass chosen pattern s t) (h' : Pass chosen pattern s u) : t = u := by
  cases chosen with
  | false => exact Eq.trans h (Eq.symm h')
  | true => exact Text.Replaced.unique h h'

theorem Rewrites.unique {filter : Filter} {s t u : Text} (h : filter.Rewrites s t)
    (h' : filter.Rewrites s u) : t = u := by
  rcases h with ⟨v, w, hleft, hright, hcollapse⟩
  rcases h' with ⟨v', w', hleft', hright', hcollapse'⟩
  rw [hleft.unique hleft'] at hright
  rw [hright.unique hright'] at hcollapse
  exact hcollapse.unique hcollapse'

theorem one_lt_length_of_isIndent {found : Text} (h : IsIndent found) :
    ['\n'].length < found.length := by
  rcases h with ⟨blanks, hne, _, rfl⟩
  simpa using List.length_pos_iff.mpr hne

theorem one_lt_length_of_isTrail {found : Text} (h : IsTrail found) :
    ['\n'].length < found.length := by
  rcases h with ⟨blanks, hne, _, rfl⟩
  simpa using List.length_pos_iff.mpr hne

theorem one_lt_length_of_isGap {found : Text} (h : IsGap found) :
    ['\n'].length < found.length := by
  rcases h with ⟨count, hcount, rfl⟩
  rwa [List.length_replicate]

/-!
## Blanks behind line breaks
-/

theorem dropIndents_true (s : Text) :
    dropIndents true s = dropIndents false (s.dropWhile isBlank) := by
  induction s with
  | nil => rfl
  | cons c rest ih =>
      cases hblank : isBlank c with
      | true =>
          rw [List.dropWhile_cons_of_pos hblank, ← ih]
          simp [dropIndents, hblank]
      | false =>
          rw [List.dropWhile_cons_of_neg (by simp [hblank])]
          simp [dropIndents, hblank]

theorem dropIndents_break (s : Text) :
    dropIndents false ('\n' :: s) = '\n' :: dropIndents false (s.dropWhile isBlank) := by
  rw [← dropIndents_true]
  rfl

theorem dropIndents_of_ne {c : Char} (h : c ≠ '\n') (s : Text) :
    dropIndents false (c :: s) = c :: dropIndents false s := by
  simp [dropIndents, h]

theorem longest_isIndent {blanks rest : Text} (h : Text.Run isBlank blanks rest)
    (hne : blanks ≠ []) : Text.Longest IsIndent ('\n' :: blanks) rest := by
  refine ⟨⟨blanks, hne, h.all, rfl⟩, ?_⟩
  intro other hstart hother
  rcases hother with ⟨others, _, hothers, rfl⟩
  exact Nat.succ_le_succ (h.length_le hothers (List.cons_prefix_cons.mp hstart).2)

theorem replaced_dropIndents (s : Text) :
    Text.Replaced IsIndent ['\n'] s (dropIndents false s) := by
  induction hlength : s.length using Nat.strongRecOn generalizing s with
  | ind length ih =>
      subst hlength
      cases s with
      | nil => exact Text.Replaced.nil
      | cons c s =>
          by_cases hc : c = '\n'
          · subst hc
            rcases Text.exists_run isBlank s with ⟨blanks, rest, rfl, hrun⟩
            have hshorter : rest.length < ('\n' :: (blanks ++ rest)).length := by
              simp only [List.length_cons, List.length_append]
              omega
            have hrest := ih rest.length hshorter rest rfl
            rw [dropIndents_break, hrun.dropWhile_eq]
            by_cases hnil : blanks = []
            · subst hnil
              refine Text.Replaced.keep ?_ hrest
              intro found hstart hfound
              rcases hfound with ⟨others, hne, hothers, rfl⟩
              have hle := hrun.length_le hothers (List.cons_prefix_cons.mp hstart).2
              exact hne (List.length_eq_zero_iff.mp (Nat.le_zero.mp hle))
            · exact Text.Replaced.replace (by simp) (longest_isIndent hrun hnil) hrest
          · rw [dropIndents_of_ne hc]
            refine Text.Replaced.keep ?_ (ih s.length (by simp) s rfl)
            intro found hstart hfound
            rcases hfound with ⟨others, _, _, rfl⟩
            exact hc (List.cons_prefix_cons.mp hstart).1.symm

/-!
## Blanks in front of line breaks
-/

theorem dropTrails_of_not_blank {c : Char} (h : ¬ isBlank c = true) (s : Text) :
    dropTrails (c :: s) = c :: dropTrails s := by
  simp [dropTrails, h]

theorem dropTrails_of_allBlank {blanks : Text} (h : AllBlank blanks) (s : Text) :
    dropTrails (blanks ++ '\n' :: s) = '\n' :: dropTrails s := by
  induction blanks with
  | nil => rfl
  | cons c blanks ih =>
      have hc := h c List.mem_cons_self
      have hkept := ih fun d hmem => h d (List.mem_cons_of_mem c hmem)
      simp [dropTrails, hkept, hc]

theorem head?_dropTrails_iff {s : Text} :
    (dropTrails s).head? = some '\n' ↔
      exists blanks rest, AllBlank blanks ∧ s = blanks ++ '\n' :: rest := by
  constructor
  · intro h
    induction s with
    | nil => cases h
    | cons c s ih =>
        unfold dropTrails at h
        dsimp only at h
        split at h
        case isTrue hdrop =>
          rcases ih h with ⟨blanks, rest, hblanks, rfl⟩
          have hc := (Bool.and_eq_true_iff.mp hdrop).1
          exact ⟨c :: blanks, rest, List.forall_mem_cons.mpr ⟨hc, hblanks⟩, rfl⟩
        case isFalse =>
          cases h
          exact ⟨[], s, List.forall_mem_nil _, rfl⟩
  · rintro ⟨blanks, rest, hblanks, rfl⟩
    rw [dropTrails_of_allBlank hblanks]
    rfl

theorem longest_isTrail {blanks : Text} (hblanks : AllBlank blanks) (hne : blanks ≠ [])
    (rest : Text) : Text.Longest IsTrail (blanks ++ ['\n']) rest := by
  refine ⟨⟨blanks, hne, hblanks, rfl⟩, ?_⟩
  intro other hstart hother
  rcases hother with ⟨others, _, hothers, rfl⟩
  have hrun : Text.Run isBlank blanks ('\n' :: rest) := ⟨hblanks, rfl⟩
  have hle := hrun.length_le hothers
    ((List.prefix_append others ['\n']).trans (by simpa using hstart))
  simpa using hle

/-- Nothing matches where the pass keeps a character. -/
theorem not_isTrail_of_kept {c : Char} {s found : Text}
    (h : ¬ (isBlank c = true ∧ (dropTrails s).head? = some '\n')) (hstart : found <+: c :: s) :
    ¬ IsTrail found := by
  rintro ⟨blanks, hne, hblanks, rfl⟩
  cases blanks with
  | nil => exact hne rfl
  | cons d others =>
      rcases List.cons_prefix_cons.mp hstart with ⟨rfl, rest, rfl⟩
      rcases List.forall_mem_cons.mp hblanks with ⟨hd, hothers⟩
      exact h ⟨hd, head?_dropTrails_iff.mpr ⟨others, rest, hothers, by simp⟩⟩

theorem replaced_dropTrails (s : Text) :
    Text.Replaced IsTrail ['\n'] s (dropTrails s) := by
  induction hlength : s.length using Nat.strongRecOn generalizing s with
  | ind length ih =>
      subst hlength
      cases s with
      | nil => exact Text.Replaced.nil
      | cons c s =>
          by_cases hdrop : isBlank c = true ∧ (dropTrails s).head? = some '\n'
          · rcases head?_dropTrails_iff.mp hdrop.2 with ⟨blanks, rest, hblanks, rfl⟩
            have hall : AllBlank (c :: blanks) := List.forall_mem_cons.mpr ⟨hdrop.1, hblanks⟩
            have hshorter : rest.length < (c :: (blanks ++ '\n' :: rest)).length := by
              simp only [List.length_cons, List.length_append]
              omega
            have hrest := ih rest.length hshorter rest rfl
            have hboth := Text.Replaced.replace (by simp)
              (longest_isTrail hall (by simp) rest) hrest
            rw [← List.cons_append, dropTrails_of_allBlank hall]
            simpa using hboth
          · have hkept : dropTrails (c :: s) = c :: dropTrails s := by
              simp only [dropTrails, Bool.and_eq_true, decide_eq_true_eq, if_neg hdrop]
            rw [hkept]
            exact Text.Replaced.keep (fun found hstart => not_isTrail_of_kept hdrop hstart)
              (ih s.length (by simp) s rfl)

/-!
## Line breaks in a row
-/

theorem head?_dropBreaks (s : Text) : (dropBreaks s).head? = s.head? := by
  cases s with
  | nil => rfl
  | cons c s =>
      unfold dropBreaks
      dsimp only
      split
      case isTrue hdrop =>
        rcases Bool.and_eq_true_iff.mp hdrop with ⟨hc, hhead⟩
        rw [of_decide_eq_true hhead, of_decide_eq_true hc]
        rfl
      case isFalse => rfl

theorem dropBreaks_break_break (s : Text) :
    dropBreaks ('\n' :: '\n' :: s) = dropBreaks ('\n' :: s) := by
  have hhead := head?_dropBreaks ('\n' :: s)
  rw [dropBreaks]
  simp [hhead]

theorem dropBreaks_cons {c : Char} {s : Text} (h : ¬ (c = '\n' ∧ s.head? = some '\n')) :
    dropBreaks (c :: s) = c :: dropBreaks s := by
  simp only [dropBreaks, head?_dropBreaks, Bool.and_eq_true, decide_eq_true_eq, if_neg h]

theorem dropBreaks_of_run {run rest : Text} (h : Text.Run (fun c => c = '\n') run rest) :
    dropBreaks ('\n' :: '\n' :: run ++ rest) = '\n' :: dropBreaks rest := by
  rcases h with ⟨hall, hends⟩
  induction run with
  | nil =>
      have hhead : rest.head? ≠ some '\n' := by
        intro hhead
        simp [hhead] at hends
      rw [List.cons_append, List.singleton_append, dropBreaks_break_break]
      exact dropBreaks_cons fun hboth => hhead hboth.2
  | cons c run ih =>
      rcases List.forall_mem_cons.mp hall with ⟨hc, hrun⟩
      rw [of_decide_eq_true hc, List.cons_append, List.cons_append, dropBreaks_break_break]
      exact ih hrun

theorem isGap_break_break {run : Text} (h : forall c, c ∈ run -> c = '\n') :
    IsGap ('\n' :: '\n' :: run) :=
  ⟨run.length + 2, Nat.le_add_left 2 _, List.eq_replicate_iff.mpr ⟨rfl, by simpa using h⟩⟩

theorem longest_isGap {run rest : Text} (h : Text.Run (fun c => c = '\n') run rest) :
    Text.Longest IsGap ('\n' :: '\n' :: run) rest := by
  have hrun : Text.Run (fun c => c = '\n') ('\n' :: '\n' :: run) rest :=
    ⟨by simpa using h.all, h.ends⟩
  refine ⟨isGap_break_break (by simpa using h.all), ?_⟩
  intro other hstart hother
  rcases hother with ⟨count, _, rfl⟩
  exact hrun.length_le (by simp) hstart

theorem replaced_dropBreaks (s : Text) :
    Text.Replaced IsGap ['\n'] s (dropBreaks s) := by
  induction hlength : s.length using Nat.strongRecOn generalizing s with
  | ind length ih =>
      subst hlength
      cases s with
      | nil => exact Text.Replaced.nil
      | cons c s =>
          by_cases hgap : c = '\n' ∧ s.head? = some '\n'
          · rcases hgap with ⟨rfl, hhead⟩
            rcases List.head?_eq_some_iff.mp hhead with ⟨s, rfl⟩
            rcases Text.exists_run (fun c => c = '\n') s with ⟨run, rest, rfl, hrun⟩
            have hshorter : rest.length < ('\n' :: '\n' :: (run ++ rest)).length := by
              simp only [List.length_cons, List.length_append]
              omega
            have hrest := ih rest.length hshorter rest rfl
            rw [← List.cons_append, ← List.cons_append, dropBreaks_of_run hrun]
            exact Text.Replaced.replace (by simp) (longest_isGap hrun) hrest
          · rw [dropBreaks_cons hgap]
            refine Text.Replaced.keep ?_ (ih s.length (by simp) s rfl)
            intro found hstart hfound
            rcases hfound with ⟨count, hcount, rfl⟩
            rcases Nat.exists_eq_add_of_le' hcount with ⟨more, rfl⟩
            rcases List.cons_prefix_cons.mp hstart with ⟨rfl, rest, rfl⟩
            exact hgap ⟨rfl, rfl⟩

/-!
## All passes
-/

theorem pass_ite {chosen : Bool} {pattern : Text -> Prop} {s t : Text}
    (h : Text.Replaced pattern ['\n'] s t) : Pass chosen pattern s (if chosen then t else s) := by
  cases chosen with
  | false => rfl
  | true => exact h

/-- A filter makes of a text what its passes lead to, and nothing else. -/
theorem rewrites_iff {filter : Filter} {s t : Text} :
    filter.Rewrites s t ↔ t = filter.onText s := by
  have hself : filter.Rewrites s (filter.onText s) :=
    ⟨_, _, pass_ite (replaced_dropIndents s), pass_ite (replaced_dropTrails _),
      pass_ite (replaced_dropBreaks _)⟩
  constructor
  · intro h
    exact h.unique hself
  · rintro rfl
    exact hself

end Filter

end Stencil
