import Stencil.Proofs.Template.Cutting

/-!
# Delimiters that guard short texts

## Long marks that do not overlap themselves

A text that contains a delimiter, or ends with the beginning of one, cannot stand
before it.  A mark of one letter repeated, with another letter at the end, does not
overlap itself, so that it occurs in no text that is shorter than itself, nor
across the end of such a text.  With such delimiters every segment up to some
length can be written down, whatever its characters are.
-/

namespace Stencil

namespace Text

/-- So many letters `x` before a letter `y`. -/
def fence (x y : Char) (length : Nat) : Text :=
  List.replicate length x ++ [y]

variable {x y c : Char} {before : Text} {length : Nat}

theorem fence_ne_nil (x y : Char) (length : Nat) : fence x y length ≠ [] := by
  simp [fence]

theorem not_mem_fence (hx : c ≠ x) (hy : c ≠ y) (length : Nat) :
    c ∉ fence x y length := by
  intro hmem
  rcases List.mem_append.mp hmem with hrepeated | hlast
  · exact hx (List.eq_of_mem_replicate hrepeated)
  · exact hy (List.mem_singleton.mp hlast)

theorem getElem?_append_fence {i : Nat} (h : before.length ≤ i)
    (hi : i < before.length + length) (rest : Text) :
    (before ++ (fence x y length ++ rest))[i]? = some x := by
  rw [List.getElem?_append_right h, fence, List.append_assoc,
    List.getElem?_append_left (by simp; omega), List.getElem?_replicate,
    if_pos (by omega)]

theorem getElem?_append_fence_last (x y : Char) (length : Nat) (before rest : Text) :
    (before ++ fence x y length ++ rest)[before.length + length]? = some y := by
  rw [fence, ← List.append_assoc, List.append_assoc,
    List.getElem?_append_right (by simp)]
  simp

/-- An occurrence that begins inside a short text would end inside the fence, where
its last letter is not. -/
theorem firstAt_fence (hxy : x ≠ y) (h : before.length ≤ length) (rest : Text) :
    FirstAt (fence x y length) before (fence x y length ++ rest) := by
  refine ⟨List.prefix_append _ _, ?_⟩
  intro p q hsplit
  apply Nat.le_of_not_lt
  intro hlt
  have hlast := getElem?_append_fence_last x y length p q
  rw [← hsplit, getElem?_append_fence (by omega) (by omega)] at hlast
  exact hxy (Option.some.inj hlast)

end Text

namespace Delimiters

structure Guards (d : Delimiters) (length : Nat) : Prop where
  left : forall {before : Text}, before.length ≤ length ->
    forall rest, Text.FirstAt d.left before (d.left ++ rest)
  right : forall {before : Text}, before.length ≤ length ->
    forall rest, Text.FirstAt d.right before (d.right ++ rest)

def body (d : Delimiters) : Text :=
  d.left ++ ' ' :: d.right

theorem exists_letters (c : Char) :
    exists x y : Char, x ≠ y ∧ ' ' ≠ x ∧ ' ' ≠ y ∧ c ≠ x ∧ c ≠ y := by
  by_cases ha : c = 'a'
  · subst ha
    exists 'b', 'c'
  · by_cases hb : c = 'b'
    · subst hb
      exists 'a', 'c'
    · exact ⟨'a', 'b', by decide, by decide, by decide, ha, hb⟩

/-- Under any delimiters others can be named that guard all texts up to a length. -/
theorem exists_guards {d : Delimiters} (hd : d.Proper) (length : Nat) :
    exists guards : Delimiters, guards.Guards length ∧ guards.NamedBy guards.body ∧
      forall rest, Text.FirstAt d.right guards.body (d.right ++ rest) := by
  cases hright : d.right with
  | nil =>
      exact absurd hright hd.right_ne_nil
  | cons c right =>
      rcases exists_letters c with ⟨x, y, hxy, hspacex, hspacey, hcx, hcy⟩
      have hspace := Text.not_mem_fence hspacex hspacey length
      have hc := Text.not_mem_fence hcx hcy length
      have hcspace : c ≠ ' ' := by
        intro heq
        apply hd.space_not_mem_right
        rw [hright, heq]
        exact List.mem_cons_self
      exists ⟨Text.fence x y length, Text.fence x y length⟩
      refine ⟨⟨Text.firstAt_fence hxy, Text.firstAt_fence hxy⟩,
        ⟨rfl, Text.fence_ne_nil x y length, Text.fence_ne_nil x y length, hspace, hspace⟩,
        ?_⟩
      apply Text.firstAt_of_head_not_mem
      intro hmem
      rcases List.mem_append.mp hmem with hleft | hrest
      · exact hc hleft
      · rcases List.mem_cons.mp hrest with hhead | htail
        · exact hcspace hhead
        · exact hc htail

end Delimiters

/-!
## Writing segments between guards
-/

namespace Segment

/-- The segment as it stands in a source. -/
def spell (d : Delimiters) : Segment -> Text
  | run s => s
  | tag mark body => d.left ++ mark.toChar :: (body ++ d.right)

def spellAll (d : Delimiters) (row : List Segment) : Text :=
  row.flatMap (spell d)

variable {d : Delimiters} {length : Nat} {mark : Mark} {body s : Text}
variable {segment : Segment} {row : List Segment}

theorem length_content_le (hmem : segment ∈ row) :
    segment.content.length ≤ (row.flatMap content).length := by
  rw [List.flatMap_def]
  exact (List.sublist_flatten_of_mem (List.mem_map_of_mem hmem)).length_le

theorem cutOff_spell_tag (hd : d.Guards length) (hmark : mark ≠ Mark.delimiters)
    (hbody : body.length ≤ length) (rest : Text) :
    CutOff d (tag mark body) d rest ((tag mark body).spell d ++ rest) := by
  have htag := CutOff.tag (d := d) hmark (hd.right hbody rest)
  simpa [spell] using htag

theorem cutOff_spell_run (hd : d.Guards length) (hne : s ≠ []) (hs : s.length ≤ length)
    (rest : Text) :
    CutOff d (run s) d (d.left ++ rest) ((run s).spell d ++ (d.left ++ rest)) :=
  CutOff.run hne (Or.inl (hd.left hs rest))

theorem cutOff_spell_change {guards : Delimiters} (hnamed : guards.NamedBy guards.body)
    (hbody : forall rest, Text.FirstAt d.right guards.body (d.right ++ rest))
    (rest : Text) :
    CutOff d (tag Mark.delimiters guards.body) guards rest
      ((tag Mark.delimiters guards.body).spell d ++ rest) := by
  have hchange := CutOff.change (d := d) hnamed (hbody rest)
  simpa [spell] using hchange

theorem cutOffAll_flatMap (pieces : Segment -> List Segment)
    (h : forall segment, segment ∈ row -> forall rest,
      CutOffAll d (pieces segment) d rest (spellAll d (pieces segment) ++ rest))
    (rest : Text) :
    CutOffAll d (row.flatMap pieces) d rest
      (spellAll d (row.flatMap pieces) ++ rest) := by
  induction row with
  | nil =>
      exact CutOffAll.nil
  | cons segment row ih =>
      have hfirst := h segment List.mem_cons_self
      have hrest := ih fun other hmem => h other (List.mem_cons_of_mem _ hmem)
      have hall := (hfirst _).trans hrest
      simpa [spellAll] using hall

theorem cutOffAll_spell_tags (hd : d.Guards length)
    (hrow : forall segment, segment ∈ row ->
      exists mark name, segment = tag mark name ∧ mark ≠ Mark.delimiters)
    (hlength : forall segment, segment ∈ row -> segment.content.length ≤ length)
    (rest : Text) : CutOffAll d row d rest (spellAll d row ++ rest) := by
  have hsingle : forall segment, segment ∈ row -> forall rest,
      CutOffAll d [segment] d rest (spellAll d [segment] ++ rest) := by
    intro segment hmem rest
    rcases hrow segment hmem with ⟨mark, name, rfl, hmark⟩
    have hname : name.length ≤ length := hlength (tag mark name) hmem
    simpa [spellAll] using (cutOff_spell_tag hd hmark hname rest).all
  have hall := cutOffAll_flatMap (fun segment => [segment]) hsingle rest
  rwa [List.flatMap_singleton'] at hall

end Segment

namespace Scanner

open Segment

/-- Any tags can be written behind a source that is scanned without a fault.  A space
keeps the last text from running into them, and new delimiters from cutting their
names short. -/
theorem exists_segments_append {source : Text} {row settled tags : List Segment}
    {last rest : Text} {d : Delimiters}
    (hscan : Scan source row settled last rest d none)
    (htags : forall segment, segment ∈ tags ->
      exists mark name, segment = tag mark name ∧ mark ≠ Mark.delimiters) :
    exists (more : Text) (guards : Delimiters),
      (start (source ++ more)).segments =
        (locate 1 (settled ++
          Segment.run (last ++ [' ']) :: tag Mark.delimiters guards.body :: tags),
          none) := by
  rcases Delimiters.exists_guards hscan.proper (tags.flatMap content).length with
    ⟨guards, hguards, hnamed, hbody⟩
  have hrest := hscan.rest_eq_nil
  subst hrest
  -- What is appended, from its end to its beginning.
  have hcutTags := cutOffAll_spell_tags hguards htags
    (fun segment hmem => length_content_le hmem) []
  have hcutChange := cutOff_spell_change hnamed hbody (spellAll guards tags ++ [])
  have hfirst := Text.firstAt_of_separated hscan.proper.left_ne_nil
    hscan.proper.space_not_mem_left hscan.settled.not_infix
    (Mark.delimiters.toChar ::
      (guards.body ++ (d.right ++ (spellAll guards tags ++ []))))
  have hcutRun := CutOff.run (d := d) (by simp) (Or.inl hfirst)
  have hsettled := hscan.settled.append
    (' ' :: ((tag Mark.delimiters guards.body).spell d ++ (spellAll guards tags ++ [])))
  have hbehind : CutOffAll d
      (Segment.run (last ++ [' ']) :: tag Mark.delimiters guards.body :: tags) guards []
      (last ++ ' ' :: ((tag Mark.delimiters guards.body).spell d ++
        (spellAll guards tags ++ []))) := by
    refine CutOffAll.cons ?_ (CutOffAll.cons hcutChange hcutTags)
    simpa [spell] using hcutRun
  have hall := hsettled.trans hbehind
  refine ⟨_, guards, (segments_of_cutOffAll hall 1).trans ?_⟩
  rw [segments_of_rest_nil rfl, List.append_nil]

end Scanner

end Stencil
