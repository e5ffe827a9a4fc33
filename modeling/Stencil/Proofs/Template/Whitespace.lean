import Stencil.Proofs.Template.Texts
import Stencil.Template.Basic

/-!
# What filters leave

## Ink and line breaks

A filter removes spaces, tabs and line breaks from literal texts and nothing else, so
that the other characters of a text, its ink, stay the same.  It removes a line break
only in front of another one: a text that has line breaks keeps at least one of them.

Filters that are applied in turn act on each literal text alone.  Together they are one
change of the texts of a tree, whatever their number.
-/

namespace Stencil

namespace Filter

def isWhite (c : Char) : Bool :=
  isBlank c || c = '\n'

/-- The characters of a text other than spaces, tabs and line breaks. -/
def ink (s : Text) : Text :=
  s.filter fun c => !isWhite c

theorem ink_append (s t : Text) : ink (s ++ t) = ink s ++ ink t :=
  List.filter_append s t

structure Keeps (s t : Text) : Prop where
  ink_eq : ink t = ink s
  break_mem : '\n' ∈ t ↔ '\n' ∈ s

namespace Keeps

variable {s t u : Text} {c : Char}

theorem refl (s : Text) : Keeps s s :=
  ⟨rfl, Iff.rfl⟩

theorem trans (h : Keeps s t) (h' : Keeps t u) : Keeps s u :=
  ⟨h'.ink_eq.trans h.ink_eq, h'.break_mem.trans h.break_mem⟩

theorem cons (h : Keeps s t) (c : Char) : Keeps (c :: s) (c :: t) := by
  constructor
  · have hink := h.ink_eq
    unfold ink at hink ⊢
    rw [List.filter_cons, List.filter_cons, hink]
  · rw [List.mem_cons, List.mem_cons, h.break_mem]

theorem drop_blank (h : Keeps s t) (hblank : isBlank c = true) : Keeps (c :: s) t := by
  constructor
  · rw [h.ink_eq]
    simp [ink, isWhite, hblank]
  · have hne : '\n' ≠ c := by
      intro heq
      subst heq
      cases hblank
    rw [h.break_mem, List.mem_cons]
    exact (or_iff_right hne).symm

theorem drop_break (h : Keeps s t) (hmem : '\n' ∈ t) : Keeps ('\n' :: s) t := by
  constructor
  · rw [h.ink_eq]
    rfl
  · exact iff_of_true hmem List.mem_cons_self

theorem ite {b : Bool} (h : Keeps s t) : Keeps s (if b then t else s) := by
  split
  · exact h
  · exact refl s

end Keeps

theorem keeps_dropIndents (afterBreak : Bool) (s : Text) :
    Keeps s (dropIndents afterBreak s) := by
  induction s generalizing afterBreak with
  | nil => exact Keeps.refl []
  | cons c rest ih =>
      rw [dropIndents]
      split
      case isTrue hdrop =>
        exact (ih true).drop_blank (Bool.and_eq_true_iff.mp hdrop).2
      case isFalse =>
        exact (ih _).cons c

theorem keeps_dropTrails (s : Text) : Keeps s (dropTrails s) := by
  induction s with
  | nil => exact Keeps.refl []
  | cons c rest ih =>
      unfold dropTrails
      dsimp only
      split
      case isTrue hdrop =>
        exact ih.drop_blank (Bool.and_eq_true_iff.mp hdrop).1
      case isFalse =>
        exact ih.cons c

theorem keeps_dropBreaks (s : Text) : Keeps s (dropBreaks s) := by
  induction s with
  | nil => exact Keeps.refl []
  | cons c rest ih =>
      unfold dropBreaks
      dsimp only
      split
      case isTrue hdrop =>
        -- The line break in front of which this one stands is kept.
        rcases Bool.and_eq_true_iff.mp hdrop with ⟨hbreak, hhead⟩
        have hc : c = '\n' := of_decide_eq_true hbreak
        subst hc
        exact ih.drop_break (List.mem_of_mem_head? (of_decide_eq_true hhead))
      case isFalse =>
        exact ih.cons c

theorem keeps_onText (filter : Filter) (s : Text) : Keeps s (filter.onText s) := by
  have hleft := (keeps_dropIndents false s).ite (b := filter.trimLeft)
  have hright := hleft.trans ((keeps_dropTrails _).ite (b := filter.trimRight))
  exact hright.trans ((keeps_dropBreaks _).ite (b := filter.collapse))

/-!
## Filters in turn
-/

def onTextAll (filters : List Filter) (s : Text) : Text :=
  filters.foldl (fun s filter => filter.onText s) s

theorem keeps_onTextAll (filters : List Filter) (s : Text) :
    Keeps s (onTextAll filters s) := by
  induction filters generalizing s with
  | nil => exact Keeps.refl s
  | cons filter rest ih => exact (keeps_onText filter s).trans (ih (filter.onText s))

end Filter

namespace Template

def filterAll (filters : List Filter) (t : Template) : Template :=
  filters.foldl (fun t filter => t.filter filter) t

theorem name_filterAll (filters : List Filter) (t : Template) :
    (t.filterAll filters).name = t.name := by
  induction filters generalizing t with
  | nil => rfl
  | cons filter rest ih => exact ih (t.filter filter)

theorem nodes_filterAll (filters : List Filter) (t : Template) :
    (t.filterAll filters).nodes =
      Node.mapTextsAll (Filter.onTextAll filters) t.nodes := by
  induction filters generalizing t with
  | nil => exact (Node.mapTextsAll_id t.nodes).symm
  | cons filter rest ih =>
      have hnodes : (t.filter filter).nodes = Node.mapTextsAll filter.onText t.nodes :=
        filter.onNodes_eq_mapTextsAll t.nodes
      rw [filterAll, List.foldl_cons, ← filterAll, ih, hnodes,
        Node.mapTextsAll_mapTextsAll]
      rfl

end Template

end Stencil
