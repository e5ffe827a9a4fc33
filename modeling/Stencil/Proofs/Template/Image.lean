import Mathlib.Data.List.Basic
import Stencil.Proofs.Template.Fence
import Stencil.Proofs.Template.Grammar
import Stencil.Proofs.Template.Texts

/-!
# The image of parsing

## Trees that templates have

A parsed template has no empty literal text, and its blocks nest no deeper than the
limit.  Renaming keeps this, and so does every filter, since a filter keeps at
least one character of a text.  Nothing else can be said of the trees of templates:
each tree like this is the tree of a source, whatever its names and texts are.
-/

namespace Stencil

namespace Node

structure Writable (nodes : List Node) : Prop where
  shallow : depthAll nodes ≤ blockDepthLimit
  texts_ne_nil : forall s, s ∈ textsAll nodes -> s ≠ []

mutual

theorem run_mem_bracketing {s : Text} :
    forall node : Node, s ∈ texts node -> Segment.run s ∈ bracketing node
  | text t, h => by
      rw [List.mem_singleton.mp h]
      exact List.mem_singleton.mpr rfl
  | print name, h => by cases h
  | embed name, h => by cases h
  | block kind name children, h => by
      have hinside := run_mem_bracketingAll children h
      simp [bracketing, hinside]

theorem run_mem_bracketingAll {s : Text} :
    forall nodes : List Node, s ∈ textsAll nodes -> Segment.run s ∈ bracketingAll nodes
  | [], h => by cases h
  | node :: rest, h => by
      rw [bracketingAll, List.mem_append]
      exact (List.mem_append.mp h).imp (run_mem_bracketing node)
        (run_mem_bracketingAll rest)

end

def SegmentOf (strings : List Text) (segment : Segment) : Prop :=
  (exists s, s ∈ strings ∧ segment = Segment.run s) ∨
    exists mark name, segment = Segment.tag mark name ∧
      mark ≠ Mark.comment ∧ mark ≠ Mark.delimiters

theorem SegmentOf.mono {strings others : List Text} {segment : Segment}
    (h : SegmentOf strings segment) (hsubset : strings ⊆ others) :
    SegmentOf others segment := by
  rcases h with ⟨s, hmem, rfl⟩ | htag
  · exact Or.inl ⟨s, hsubset hmem, rfl⟩
  · exact Or.inr htag

mutual

theorem segmentOf_of_mem_bracketing {segment : Segment} :
    forall node : Node, segment ∈ bracketing node -> SegmentOf (texts node) segment
  | text s, h =>
      Or.inl ⟨s, List.mem_singleton.mpr rfl, List.mem_singleton.mp h⟩
  | print name, h => by
      rw [List.mem_singleton.mp h]
      exact Or.inr ⟨_, _, rfl, by simp, by simp⟩
  | embed name, h => by
      rw [List.mem_singleton.mp h]
      exact Or.inr ⟨_, _, rfl, by simp, by simp⟩
  | block kind name children, h => by
      rcases List.mem_cons.mp h with rfl | hrest
      · exact Or.inr ⟨_, _, rfl, by simp, by simp⟩
      · rcases List.mem_append.mp hrest with hinside | hclosing
        · exact segmentOf_of_mem_bracketingAll children hinside
        · rw [List.mem_singleton.mp hclosing]
          exact Or.inr ⟨_, _, rfl, by simp, by simp⟩

theorem segmentOf_of_mem_bracketingAll {segment : Segment} :
    forall nodes : List Node, segment ∈ bracketingAll nodes ->
      SegmentOf (textsAll nodes) segment
  | [], h => by cases h
  | node :: rest, h => by
      rcases List.mem_append.mp h with hnode | hrest
      · exact (segmentOf_of_mem_bracketing node hnode).mono
          (List.subset_append_left _ _)
      · exact (segmentOf_of_mem_bracketingAll rest hrest).mono
          (List.subset_append_right _ _)

end

end Node

/-!
## What is read is writable
-/

theorem Segment.Spells.run_ne_nil {d : Delimiters} {row : List Segment}
    {source s : Text} (h : Spells d row source) (hmem : run s ∈ row) : s ≠ [] := by
  induction h with
  | nil =>
      cases hmem
  | cons hcut _ ih =>
      rcases List.mem_cons.mp hmem with rfl | hrest
      · cases hcut with
        | run hne _ => exact hne
      · exact ih hrest

theorem Node.writable_of_ofSource? {source : Text} {nodes : List Node}
    (h : ofSource? source = Except.ok nodes) : Writable nodes := by
  rcases ofSource?_eq_ok_iff.mp h with ⟨row, hspells, hshown, hdepth⟩
  refine ⟨hdepth, ?_⟩
  intro s hmem
  apply hspells.run_ne_nil
  have hrun := run_mem_bracketingAll nodes hmem
  rw [← hshown] at hrun
  exact (List.mem_filter.mp hrun).1

/-!
## Filters keep trees writable
-/

namespace Filter

theorem dropIndents_ne_nil {s : Text} (h : s ≠ []) : dropIndents false s ≠ [] := by
  cases s with
  | nil => exact h
  | cons c rest => simp [dropIndents]

private theorem kept_ne_nil (drop : Bool) (c : Char) (kept : Text) :
    (if drop && kept.head? = some '\n' then kept else c :: kept) ≠ [] := by
  intro hnil
  split at hnil
  case isTrue hdrop =>
    rw [hnil] at hdrop
    simp at hdrop
  case isFalse =>
    cases hnil

theorem dropTrails_ne_nil {s : Text} (h : s ≠ []) : dropTrails s ≠ [] := by
  cases s with
  | nil => exact h
  | cons c rest => exact kept_ne_nil (isBlank c) c (dropTrails rest)

theorem dropBreaks_ne_nil {s : Text} (h : s ≠ []) : dropBreaks s ≠ [] := by
  cases s with
  | nil => exact h
  | cons c rest => exact kept_ne_nil (c = '\n') c (dropBreaks rest)

private theorem ite_ne_nil {b : Bool} {s t : Text} (hs : s ≠ []) (ht : t ≠ []) :
    (if b then s else t) ≠ [] := by
  split
  · exact hs
  · exact ht

theorem onText_ne_nil (filter : Filter) {s : Text} (h : s ≠ []) :
    filter.onText s ≠ [] := by
  have hleft : (if filter.trimLeft then dropIndents false s else s) ≠ [] :=
    ite_ne_nil (dropIndents_ne_nil h) h
  have hright := ite_ne_nil (b := filter.trimRight) (dropTrails_ne_nil hleft) hleft
  exact ite_ne_nil (b := filter.collapse) (dropBreaks_ne_nil hright) hright

theorem writable_onNodes (filter : Filter) {nodes : List Node}
    (h : Node.Writable nodes) : Node.Writable (filter.onNodes nodes) := by
  rw [onNodes_eq_mapTextsAll]
  constructor
  · rw [Node.depthAll_mapTextsAll]
    exact h.shallow
  · intro s hmem
    rw [Node.textsAll_mapTextsAll] at hmem
    rcases List.mem_map.mp hmem with ⟨t, ht, rfl⟩
    exact filter.onText_ne_nil (h.texts_ne_nil t ht)

end Filter

/-!
## What is writable can be read

Each segment of a tree is written with an empty comment behind it, which keeps runs
apart, and between delimiters that guard every name and text of the tree.
-/

namespace Segment

def emptyComment : Segment :=
  tag Mark.comment []

/-- The segments with a comment behind each of them. -/
def commented (row : List Segment) : List Segment :=
  row.flatMap fun segment => [segment, emptyComment]

variable {d : Delimiters} {length : Nat} {segment : Segment} {row : List Segment}

theorem cutOff_commented {strings : List Text} (hd : d.Guards length)
    (hstrings : forall s, s ∈ strings -> s ≠ [])
    (hsegment : Node.SegmentOf strings segment) (hlength : segment.content.length ≤ length)
    (rest : Text) :
    CutOffAll d [segment, emptyComment] d rest
      (spellAll d [segment, emptyComment] ++ rest) := by
  have hcomment : CutOff d emptyComment d rest (emptyComment.spell d ++ rest) :=
    cutOff_spell_tag hd (by simp) (Nat.zero_le _) rest
  have hfirst : CutOff d segment d (emptyComment.spell d ++ rest)
      (segment.spell d ++ (emptyComment.spell d ++ rest)) := by
    rcases hsegment with ⟨s, hs, rfl⟩ | ⟨mark, name, rfl, _, hmark⟩
    · have hrun := cutOff_spell_run hd (hstrings s hs) hlength
        (Mark.comment.toChar :: (d.right ++ rest))
      simpa [emptyComment, spell] using hrun
    · exact cutOff_spell_tag hd hmark hlength _
  have hboth := CutOffAll.cons hfirst hcomment.all
  simpa [spellAll] using hboth

theorem cutOffAll_commented {strings : List Text} (hd : d.Guards length)
    (hstrings : forall s, s ∈ strings -> s ≠ [])
    (hrow : forall segment, segment ∈ row -> Node.SegmentOf strings segment)
    (hlength : forall segment, segment ∈ row -> segment.content.length ≤ length)
    (rest : Text) :
    CutOffAll d (commented row) d rest (spellAll d (commented row) ++ rest) :=
  cutOffAll_flatMap (fun segment => [segment, emptyComment])
    (fun segment hmem rest =>
      cutOff_commented hd hstrings (hrow segment hmem) (hlength segment hmem) rest)
    rest

theorem filter_isShown_commented {strings : List Text}
    (hrow : forall segment, segment ∈ row -> Node.SegmentOf strings segment) :
    (commented row).filter isShown = row := by
  induction row with
  | nil => rfl
  | cons segment row ih =>
      have hrest := ih fun other hmem => hrow other (List.mem_cons_of_mem _ hmem)
      have hshown : segment.isShown = true := by
        rcases hrow segment List.mem_cons_self with
          ⟨s, _, rfl⟩ | ⟨mark, name, rfl, hcomment, hdelimiters⟩
        · rfl
        · cases mark with
          | comment => exact absurd rfl hcomment
          | delimiters => exact absurd rfl hdelimiters
          | _ => rfl
      rw [commented, List.flatMap_cons, List.filter_append, ← commented, hrest,
        List.filter_cons_of_pos hshown]
      rfl

end Segment

theorem Node.exists_source {nodes : List Node} (h : Writable nodes) :
    exists source, ofSource? source = Except.ok nodes := by
  rcases Delimiters.exists_guards Delimiters.proper_initial
    ((bracketingAll nodes).flatMap Segment.content).length with
    ⟨guards, hguards, hnamed, hbody⟩
  have hrow : forall segment, segment ∈ bracketingAll nodes ->
      SegmentOf (textsAll nodes) segment :=
    fun segment => segmentOf_of_mem_bracketingAll nodes
  have hcut := Segment.cutOffAll_commented hguards h.texts_ne_nil hrow
    (fun segment hmem => Segment.length_content_le hmem) []
  have hall := Segment.CutOffAll.cons
    (Segment.cutOff_spell_change (d := Delimiters.initial) hnamed hbody _) hcut
  refine ⟨_, ofSource?_eq_ok_iff.mpr ⟨_, hall.spells, ?_, h.shallow⟩⟩
  rw [List.filter_cons_of_neg (by simp [Segment.isShown]),
    Segment.filter_isShown_commented hrow]

namespace Template

/-- The templates that a program can get: by parsing, renaming and filtering. -/
inductive Obtainable : Template -> Prop where
  | parse {name source : Text} {t : Template} :
      Template.parse name source = Except.ok t ->
      Obtainable t
  | parseUnnamed {source : Text} {t : Template} :
      Template.parseUnnamed source = Except.ok t ->
      Obtainable t
  | rename {t : Template} (name : Text) :
      Obtainable t ->
      Obtainable (t.rename name)
  | filter {t : Template} (filter : Filter) :
      Obtainable t ->
      Obtainable (t.filter filter)

theorem writable_of_parse {name source : Text} {t : Template}
    (h : parse name source = Except.ok t) : Node.Writable t.nodes := by
  unfold parse at h
  split at h
  case h_1 =>
    cases h
  case h_2 nodes hnodes =>
    cases h
    exact Node.writable_of_ofSource? hnodes

theorem Obtainable.writable {t : Template} (h : Obtainable t) :
    Node.Writable t.nodes := by
  induction h with
  | parse hparse => exact writable_of_parse hparse
  | parseUnnamed hparse => exact writable_of_parse hparse
  | rename name _ ih => exact ih
  | filter filter _ ih => exact filter.writable_onNodes ih

/-- The trees of templates are exactly the writable ones: parsing, renaming and
filtering give no others, and each of them is read from some source. -/
theorem parse_image_exact :
    (forall t : Template, t.Obtainable -> Node.Writable t.nodes) ∧
      forall (name : Text) (nodes : List Node), Node.Writable nodes ->
        exists source, parse name source = Except.ok ⟨name, nodes⟩ := by
  constructor
  · intro t h
    exact h.writable
  · intro name nodes h
    rcases Node.exists_source h with ⟨source, hsource⟩
    exists source
    rw [parse, hsource]

/-- Texts next to one another, which look like tags, and names with delimiters and
spaces in them or without any character. -/
def trickyNodes : List Node :=
  [Node.text ['\x7b', '\x7b'], Node.text ['\n', ' '],
    Node.block BlockKind.each []
      [Node.print ['\x7d', '\x7d'], Node.embed ['a', ' ', 'b'], Node.text ['\x7d']],
    Node.text ['a', 'b']]

/-- A block with an indented line in it. -/
def indentedTemplate : Template :=
  ⟨['n'], [Node.block BlockKind.within ['a'] [Node.text ['\n', ' ', ' ', 'x']]]⟩

theorem parse_image_exact_tricky :
    ((indentedTemplate.rename ['m']).filter (Filter.ofBits 2)).Obtainable ∧
      Node.Writable ((indentedTemplate.rename ['m']).filter (Filter.ofBits 2)).nodes ∧
      Node.Writable trickyNodes ∧
      exists source, parse ['t'] source = Except.ok ⟨['t'], trickyNodes⟩ := by
  have hparse : parse ['n'] "\x7b\x7b$a\x7d\x7d\n  x\x7b\x7b/a\x7d\x7d".toList =
      Except.ok indentedTemplate := by
    decide +kernel
  have hobtainable := ((Obtainable.parse hparse).rename ['m']).filter (Filter.ofBits 2)
  have hwritable : Node.Writable trickyNodes :=
    ⟨by decide +kernel, by decide +kernel⟩
  exact ⟨hobtainable, parse_image_exact.1 _ hobtainable, hwritable,
    parse_image_exact.2 ['t'] trickyNodes hwritable⟩

end Template

end Stencil
