import Stencil.Proofs.Text.Occurrence
import Stencil.Template.Scanner

/-!
# Spelling of segments

## The grammar of segments

A row of segments spells a source under the delimiters in force.  A run stands
for itself, and a tag is spelled by the left delimiter, the character of its
mark, its body and the right delimiter.  A change of delimiters holds for
everything after it.  Runs and bodies extend to the first occurrence of the
delimiter that ends them, so that a source is spelled by at most one row.

The scanner is compared with this grammar one segment at a time.
-/

namespace Stencil

namespace Delimiters

structure NamedBy (d : Delimiters) (body : Text) : Prop where
  spelled : body = d.left ++ ' ' :: d.right
  left_ne_nil : d.left ≠ []
  right_ne_nil : d.right ≠ []
  space_not_mem_left : ' ' ∉ d.left
  space_not_mem_right : ' ' ∉ d.right

end Delimiters

namespace Segment

/-- A segment is cut off a source under the delimiters `d`; the delimiters `d'`
are in force for the rest of it. -/
inductive CutOff (d : Delimiters) :
    Segment -> Delimiters -> (rest source : Text) -> Prop where
  | run {s rest : Text} :
      s ≠ [] ->
      Text.ExtendsTo d.left s rest ->
      CutOff d (run s) d rest (s ++ rest)
  | tag {mark : Mark} {body rest : Text} :
      mark ≠ Mark.delimiters ->
      Text.FirstAt d.right body (d.right ++ rest) ->
      CutOff d (tag mark body) d rest
        (d.left ++ mark.toChar :: (body ++ (d.right ++ rest)))
  | change {d' : Delimiters} {body rest : Text} :
      d'.NamedBy body ->
      Text.FirstAt d.right body (d.right ++ rest) ->
      CutOff d (tag Mark.delimiters body) d' rest
        (d.left ++ Mark.delimiters.toChar :: (body ++ (d.right ++ rest)))

inductive Spells : Delimiters -> List Segment -> Text -> Prop where
  | nil {d : Delimiters} : Spells d [] []
  | cons {d d' : Delimiters} {segment : Segment} {segments : List Segment}
      {rest source : Text} :
      CutOff d segment d' rest source ->
      Spells d' segments rest ->
      Spells d (segment :: segments) source

/-- The part of a segment whose line breaks are counted. -/
def content : Segment -> Text
  | run s => s
  | tag _ body => body

theorem CutOff.source_ne_nil {d d' : Delimiters} {segment : Segment}
    {rest source : Text} (h : CutOff d segment d' rest source) : source ≠ [] := by
  cases h with
  | run hne _ =>
      simp [hne]
  | tag _ _ =>
      simp
  | change _ _ =>
      simp

end Segment

/-!
## Names of delimiters
-/

private theorem splitOn_eq_pair_iff {body left right : Text} :
    body.splitOn ' ' = [left, right] ↔
      body = left ++ ' ' :: right ∧ ' ' ∉ left ∧ ' ' ∉ right := by
  constructor
  · intro h
    have hbody : [' '].intercalate (body.splitOn ' ') = body :=
      List.intercalate_splitOn ' '
    rw [h] at hbody
    refine ⟨?_, ?_, ?_⟩
    · simpa [List.intercalate] using hbody.symm
    · exact Text.not_mem_of_mem_splitOn (s := body) (by simp [h])
    · exact Text.not_mem_of_mem_splitOn (s := body) (by simp [h])
  · intro h
    rcases h with ⟨rfl, hleft, hright⟩
    rw [List.splitOn_append_cons_self_of_not_mem hleft,
      List.splitOn_eq_singleton hright]

theorem Delimiters.ofBody?_eq_some_iff {body : Text} {d : Delimiters} :
    ofBody? body = some d ↔ d.NamedBy body := by
  unfold ofBody?
  constructor
  · intro h
    split at h
    case h_1 left right hsplit =>
      split at h
      case isTrue hne =>
        cases h
        rcases splitOn_eq_pair_iff.mp hsplit with ⟨hbody, hleft, hright⟩
        exact ⟨hbody, hne.1, hne.2, hleft, hright⟩
      case isFalse =>
        cases h
    case h_2 =>
      cases h
  · intro h
    have hsplit : body.splitOn ' ' = [d.left, d.right] :=
      splitOn_eq_pair_iff.mpr
        ⟨h.spelled, h.space_not_mem_left, h.space_not_mem_right⟩
    rw [hsplit]
    exact if_pos ⟨h.left_ne_nil, h.right_ne_nil⟩

theorem Mark.ofChar?_eq_some_iff {c : Char} {mark : Mark} :
    ofChar? c = some mark ↔ c = mark.toChar := by
  constructor
  · intro h
    unfold ofChar? at h
    split at h
    all_goals cases h
    all_goals rfl
  · intro h
    rw [h]
    exact ofChar?_toChar mark

/-!
## One segment of the scan
-/

namespace Scanner

open Segment

theorem finishTag_of_ne {mark : Mark} (hmark : mark ≠ Mark.delimiters)
    (s : Scanner) (line : Nat) (body : Text) :
    s.finishTag line mark body = (Except.ok ⟨line, tag mark body⟩, s) := by
  cases mark with
  | delimiters => exact absurd rfl hmark
  | opening kind => rfl
  | closing => rfl
  | print => rfl
  | embed => rfl
  | comment => rfl

theorem finishTag_of_namedBy {d : Delimiters} {body : Text} (h : d.NamedBy body)
    (s : Scanner) (line : Nat) :
    s.finishTag line Mark.delimiters body =
      (Except.ok ⟨line, tag Mark.delimiters body⟩, { s with delimiters := d }) := by
  simp only [finishTag, Delimiters.ofBody?_eq_some_iff.mpr h]

/-- A tag is cut off up to the first right delimiter, whatever its mark. -/
theorem cut_tag {d : Delimiters} {body rest : Text}
    (hbody : Text.FirstAt d.right body (d.right ++ rest)) (mark : Mark) (line : Nat) :
    cut ⟨d, line, d.left ++ mark.toChar :: (body ++ (d.right ++ rest))⟩ =
      finishTag ⟨d, line + Text.lineBreaks body, rest⟩ line mark body := by
  have hcut := Text.cutAround?_eq_some_iff.mpr ⟨rfl, hbody⟩
  simp only [cut, Text.isPrefixOf?_append, cutTag, Mark.ofChar?_toChar, hcut, advance]

theorem cut_of_cutOff {d d' : Delimiters} {segment : Segment} {rest source : Text}
    (h : CutOff d segment d' rest source) (line : Nat) :
    cut ⟨d, line, source⟩ =
      (Except.ok ⟨line, segment⟩,
        ⟨d', line + Text.lineBreaks segment.content, rest⟩) := by
  cases h with
  | run hne hextends =>
      rename_i s
      have hleft : d.left.isPrefixOf? (s ++ rest) = none :=
        Text.isPrefixOf?_eq_none_iff.mpr (hextends.not_prefix hne)
      have hcut := Text.cutBefore_eq_of_extendsTo hextends
      simp only [cut, hleft, cutRun, hcut, advance, content]
  | tag hmark hbody =>
      rw [cut_tag hbody, finishTag_of_ne hmark]
      rfl
  | change hnamed hbody =>
      rw [cut_tag hbody, finishTag_of_namedBy hnamed]
      rfl

theorem finishTag_eq_ok {s after : Scanner} {line : Nat} {mark : Mark} {body : Text}
    {located : LocatedSegment}
    (h : s.finishTag line mark body = (Except.ok located, after)) :
    located.segment = tag mark body ∧ after.rest = s.rest ∧
      ((mark ≠ Mark.delimiters ∧ after.delimiters = s.delimiters) ∨
        (mark = Mark.delimiters ∧ after.delimiters.NamedBy body)) := by
  by_cases hmark : mark = Mark.delimiters
  · subst hmark
    cases hnames : Delimiters.ofBody? body with
    | none =>
        simp only [finishTag, hnames, fail] at h
        cases h
    | some d =>
        have hnamed := Delimiters.ofBody?_eq_some_iff.mp hnames
        rw [finishTag_of_namedBy hnamed] at h
        cases h
        exact ⟨rfl, rfl, Or.inr ⟨rfl, hnamed⟩⟩
  · rw [finishTag_of_ne hmark] at h
    cases h
    exact ⟨rfl, rfl, Or.inl ⟨hmark, rfl⟩⟩

theorem cutOff_of_cutTag {s after : Scanner} {inside : Text}
    {located : LocatedSegment}
    (h : s.cutTag inside = (Except.ok located, after)) :
    CutOff s.delimiters located.segment after.delimiters after.rest
      (s.delimiters.left ++ inside) := by
  cases inside with
  | nil =>
      simp only [cutTag, fail] at h
      cases h
  | cons c inside =>
      cases hmark : Mark.ofChar? c with
      | none =>
          simp only [cutTag, hmark, fail] at h
          cases h
      | some mark =>
          cases hcut : Text.cutAround? s.delimiters.right inside with
          | none =>
              simp only [cutTag, hmark, hcut, fail] at h
              cases h
          | some parts =>
              rcases parts with ⟨body, rest⟩
              simp only [cutTag, hmark, hcut, advance] at h
              rcases Text.cutAround?_eq_some_iff.mp hcut with ⟨rfl, hbody⟩
              rw [Mark.ofChar?_eq_some_iff.mp hmark]
              rcases finishTag_eq_ok h with ⟨hsegment, hrest, hmarked⟩
              rw [hsegment, hrest]
              rcases hmarked with ⟨hne, hd⟩ | ⟨rfl, hnamed⟩
              · rw [hd]
                exact CutOff.tag hne hbody
              · exact CutOff.change hnamed hbody

theorem cutOff_of_cutRun {s after : Scanner} {located : LocatedSegment}
    (hleft : ¬ s.delimiters.left <+: s.rest) (hne : s.rest ≠ [])
    (h : s.cutRun = (Except.ok located, after)) :
    CutOff s.delimiters located.segment after.delimiters after.rest s.rest := by
  rcases hcut : Text.cutBefore s.delimiters.left s.rest with ⟨text, rest⟩
  rcases Text.cutBefore_eq_iff.mp hcut with ⟨hrest, hextends⟩
  simp only [cutRun, hcut] at h
  cases h
  rw [hrest] at hleft hne ⊢
  refine CutOff.run ?_ hextends
  intro hnil
  subst hnil
  rcases hextends with hfirst | ⟨rfl, _⟩
  · exact hleft hfirst.starts
  · exact hne rfl

theorem cutOff_of_cut {s after : Scanner} {located : LocatedSegment}
    (hne : s.rest ≠ []) (h : s.cut = (Except.ok located, after)) :
    CutOff s.delimiters located.segment after.delimiters after.rest s.rest := by
  unfold cut at h
  split at h
  case h_1 inside hleft =>
    rw [Text.isPrefixOf?_eq_some hleft]
    exact cutOff_of_cutTag h
  case h_2 hleft =>
    exact cutOff_of_cutRun (Text.isPrefixOf?_eq_none_iff.mp hleft) hne h

/-!
## The whole scan
-/

theorem segments_of_rest_nil {s : Scanner} (h : s.rest = []) :
    s.segments = ([], none) := by
  rw [segments, dif_pos h]

theorem segments_of_cut {s after : Scanner} {located : LocatedSegment}
    (hne : s.rest ≠ []) (h : s.cut = (Except.ok located, after)) :
    s.segments = (located :: after.segments.1, after.segments.2) := by
  rw [segments, dif_neg hne]
  split
  case h_1 hcut =>
    rw [h] at hcut
    cases hcut
  case h_2 hcut =>
    rw [h] at hcut
    cases hcut
    rfl

/-- A scan without a fault spells the source. -/
theorem spells_of_segments {s : Scanner} {located : List LocatedSegment}
    (h : s.segments = (located, none)) :
    Spells s.delimiters (located.map LocatedSegment.segment) s.rest := by
  fun_induction segments s generalizing located with
  | case1 s hnil =>
      cases h
      rw [hnil]
      exact Spells.nil
  | case2 s hne fault after hcut =>
      cases h
  | case3 s hne first after hcut more fault hmore ih =>
      cases h
      exact Spells.cons (cutOff_of_cut hne hcut) (ih hmore)

theorem exists_segments_of_spells {d : Delimiters} {row : List Segment}
    {source : Text} (h : Spells d row source) (line : Nat) :
    exists located : List LocatedSegment,
      segments ⟨d, line, source⟩ = (located, none) ∧
        located.map LocatedSegment.segment = row := by
  induction h generalizing line with
  | nil =>
      exact ⟨[], segments_of_rest_nil rfl, rfl⟩
  | cons hcut hrest ih =>
      rename_i d d' segment row rest source
      rcases ih (line + Text.lineBreaks segment.content) with
        ⟨located, hsegments, hmap⟩
      refine ⟨⟨line, segment⟩ :: located, ?_, ?_⟩
      · rw [segments_of_cut hcut.source_ne_nil (cut_of_cutOff hcut line), hsegments]
      · rw [List.map_cons, hmap]

end Scanner

end Stencil
