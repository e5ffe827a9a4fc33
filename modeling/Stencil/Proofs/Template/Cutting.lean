import Stencil.Proofs.Template.Spelling

/-!
# Cutting a source into segments

## From the start of a source to a boundary in it

A scan takes segments off the front of a source.  Between two of them it stands at
a boundary, where only three things matter: the delimiters in force, the line, and
what is left of the source.  Every scan reaches a last boundary, which is the end
of the source or the place of a fault.  Text that is appended to the source does
not move the boundaries, except that the last run may grow or shrink if nothing
comes after it.
-/

namespace Stencil

namespace Delimiters

structure Proper (d : Delimiters) : Prop where
  left_ne_nil : d.left ≠ []
  right_ne_nil : d.right ≠ []
  space_not_mem_left : ' ' ∉ d.left
  space_not_mem_right : ' ' ∉ d.right

theorem proper_initial : initial.Proper := by
  constructor
  all_goals decide

theorem NamedBy.proper {d : Delimiters} {body : Text} (h : d.NamedBy body) : d.Proper :=
  ⟨h.left_ne_nil, h.right_ne_nil, h.space_not_mem_left, h.space_not_mem_right⟩

end Delimiters

namespace Segment

inductive CutOffAll :
    Delimiters -> List Segment -> Delimiters -> (rest source : Text) -> Prop where
  | nil {d : Delimiters} {source : Text} : CutOffAll d [] d source source
  | cons {d d' d'' : Delimiters} {segment : Segment} {row : List Segment}
      {rest middle source : Text} :
      CutOff d segment d' middle source ->
      CutOffAll d' row d'' rest middle ->
      CutOffAll d (segment :: row) d'' rest source

variable {d d' d'' : Delimiters} {segment : Segment} {row others : List Segment}
variable {rest middle source : Text}

theorem CutOff.proper (hd : d.Proper) (h : CutOff d segment d' rest source) :
    d'.Proper := by
  cases h with
  | run _ _ => exact hd
  | tag _ _ => exact hd
  | change hnamed _ => exact hnamed.proper

theorem CutOffAll.proper (hd : d.Proper) (h : CutOffAll d row d' rest source) :
    d'.Proper := by
  induction h with
  | nil => exact hd
  | cons hcut _ ih => exact ih (hcut.proper hd)

theorem CutOff.all (h : CutOff d segment d' rest source) :
    CutOffAll d [segment] d' rest source :=
  CutOffAll.cons h CutOffAll.nil

theorem CutOffAll.trans (h : CutOffAll d row d' middle source)
    (hothers : CutOffAll d' others d'' rest middle) :
    CutOffAll d (row ++ others) d'' rest source := by
  induction h with
  | nil => exact hothers
  | cons hcut _ ih => exact CutOffAll.cons hcut (ih hothers)

theorem CutOffAll.spells (h : CutOffAll d row d' [] source) : Spells d row source := by
  generalize hrest : ([] : Text) = rest at h
  induction h with
  | nil =>
      rw [← hrest]
      exact Spells.nil
  | cons hcut _ ih =>
      exact Spells.cons hcut (ih hrest)

/-!
## Appending to the source
-/

/-- What is cut off a source is also cut off a longer one, unless it is a run up to
the end. -/
theorem CutOff.append (h : CutOff d segment d' rest source)
    (hrest : forall s, segment = Segment.run s -> rest ≠ []) (more : Text) :
    CutOff d segment d' (rest ++ more) (source ++ more) := by
  cases h with
  | @run s rest hne hextends =>
      rw [List.append_assoc]
      rcases hextends with hfirst | ⟨hnil, _⟩
      · exact CutOff.run hne (Or.inl (hfirst.append more))
      · exact absurd hnil (hrest s rfl)
  | tag hmark hbody =>
      have hmore := hbody.append more
      rw [List.append_assoc] at hmore
      simpa using CutOff.tag hmark hmore
  | change hnamed hbody =>
      have hmore := hbody.append more
      rw [List.append_assoc] at hmore
      simpa using CutOff.change hnamed hmore

structure Settled (d d' : Delimiters) (row settled : List Segment)
    (last rest source : Text) : Prop where
  row_eq : (row = settled ∧ last = []) ∨ (row = settled ++ [run last] ∧ rest = [])
  not_infix : ¬ d'.left <:+: last
  append : forall more, CutOffAll d settled d' (last ++ (rest ++ more)) (source ++ more)

theorem CutOffAll.eq_nil_of_source_nil (h : CutOffAll d row d' rest []) :
    row = [] ∧ d' = d ∧ rest = [] := by
  cases h with
  | nil => exact ⟨rfl, rfl, rfl⟩
  | cons hcut _ => exact absurd rfl hcut.source_ne_nil

theorem CutOffAll.exists_settled (hd : d.Proper) (h : CutOffAll d row d' rest source) :
    exists settled last, Settled d d' row settled last rest source := by
  induction h with
  | @nil d source =>
      have hnot : ¬ d.left <:+: [] := by
        simpa using hd.left_ne_nil
      exact ⟨[], [], Or.inl ⟨rfl, rfl⟩, hnot, fun _ => CutOffAll.nil⟩
  | @cons d d' d'' segment row rest middle source hcut hall ih =>
      rcases ih (hcut.proper hd) with ⟨settled, last, hsettled⟩
      -- Only a run up to the end of the source can change when more is appended.
      by_cases hend : (exists s, segment = Segment.run s) ∧ middle = []
      · rcases hend with ⟨⟨s, rfl⟩, rfl⟩
        rcases hall.eq_nil_of_source_nil with ⟨rfl, rfl, rfl⟩
        cases hcut with
        | run hne hextends =>
            refine ⟨[], s, Or.inr ⟨rfl, rfl⟩, ?_, fun more => ?_⟩
            · rcases hextends with hfirst | ⟨_, hnone⟩
              · exact absurd (List.prefix_nil.mp hfirst.starts) hd.left_ne_nil
              · exact hnone
            · simpa using CutOffAll.nil
      · refine ⟨segment :: settled, last, ?_, hsettled.not_infix, fun more => ?_⟩
        · rcases hsettled.row_eq with ⟨rfl, hlast⟩ | ⟨rfl, hrest⟩
          · exact Or.inl ⟨rfl, hlast⟩
          · exact Or.inr ⟨rfl, hrest⟩
        · refine CutOffAll.cons (hcut.append ?_ more) (hsettled.append more)
          intro s hrun hmiddle
          exact hend ⟨⟨s, hrun⟩, hmiddle⟩

/-!
## Lines
-/

def lineAfter (line : Nat) (row : List Segment) : Nat :=
  row.foldl (fun line segment => line + Text.lineBreaks segment.content) line

/-- Segments with the lines on which they start. -/
def locate (line : Nat) : List Segment -> List LocatedSegment
  | [] => []
  | segment :: row =>
      ⟨line, segment⟩ :: locate (line + Text.lineBreaks segment.content) row

theorem locate_append (line : Nat) (row others : List Segment) :
    locate line (row ++ others) =
      locate line row ++ locate (lineAfter line row) others := by
  induction row generalizing line with
  | nil => rfl
  | cons segment row ih => simp [locate, lineAfter, ih]

end Segment

/-!
## Faults of a tag
-/

namespace Scanner

variable {s : Scanner} {line : Nat} {mark : Mark} {inside body : Text} {fault : Fault}

theorem finishTag_error (h : (s.finishTag line mark body).1 = Except.error fault) :
    mark = Mark.delimiters ∧ Delimiters.ofBody? body = none ∧
      fault = ⟨s.line, ParseCause.malformedTag⟩ := by
  by_cases hmark : mark = Mark.delimiters
  · subst hmark
    cases hnames : Delimiters.ofBody? body with
    | none =>
        simp only [finishTag, hnames, fail] at h
        exact ⟨rfl, rfl, (Except.error.inj h).symm⟩
    | some d =>
        rw [finishTag_of_namedBy (Delimiters.ofBody?_eq_some_iff.mp hnames)] at h
        cases h
  · rw [finishTag_of_ne hmark] at h
    cases h

inductive TagFault (d : Delimiters) (line : Nat) (inside : Text) : Fault -> Prop where
  | unrecognized {c : Char} {rest : Text} :
      inside = c :: rest ->
      Mark.ofChar? c = none ->
      TagFault d line inside ⟨line, ParseCause.unrecognizedTag⟩
  | malformed {rest body after : Text} :
      inside = Mark.delimiters.toChar :: rest ->
      Text.cutAround? d.right rest = some (body, after) ->
      Delimiters.ofBody? body = none ->
      TagFault d line inside ⟨line + Text.lineBreaks body, ParseCause.malformedTag⟩
  | unmarked :
      inside = [] ->
      TagFault d line inside ⟨line, ParseCause.incompleteTag⟩
  | unended {mark : Mark} {rest : Text} :
      inside = mark.toChar :: rest ->
      Text.cutAround? d.right rest = none ->
      TagFault d line inside ⟨line, ParseCause.incompleteTag⟩

theorem tagFault_of_cutTag (h : (s.cutTag inside).1 = Except.error fault) :
    TagFault s.delimiters s.line inside fault := by
  cases inside with
  | nil =>
      simp only [cutTag, fail] at h
      cases h
      exact TagFault.unmarked rfl
  | cons c rest =>
      cases hmark : Mark.ofChar? c with
      | none =>
          simp only [cutTag, hmark, fail] at h
          cases h
          exact TagFault.unrecognized rfl hmark
      | some mark =>
          have hc := Mark.ofChar?_eq_some_iff.mp hmark
          cases hcut : Text.cutAround? s.delimiters.right rest with
          | none =>
              simp only [cutTag, hmark, hcut, fail] at h
              cases h
              exact TagFault.unended (by rw [hc]) hcut
          | some parts =>
              rcases parts with ⟨body, after⟩
              simp only [cutTag, hmark, hcut, advance] at h
              rcases finishTag_error h with ⟨rfl, hnames, rfl⟩
              exact TagFault.malformed (by rw [hc]) hcut hnames

theorem cutTag_of_tagFault (h : TagFault s.delimiters s.line inside fault) :
    (s.cutTag inside).1 = Except.error fault := by
  cases h with
  | unrecognized hinside hmark =>
      subst hinside
      simp only [cutTag, hmark, fail]
  | malformed hinside hcut hnames =>
      subst hinside
      simp only [cutTag, Mark.ofChar?_toChar, hcut, finishTag, hnames, fail, advance]
  | unmarked hinside =>
      subst hinside
      rfl
  | unended hinside hcut =>
      subst hinside
      simp only [cutTag, Mark.ofChar?_toChar, hcut, fail]

theorem cut_error_iff :
    s.cut.1 = Except.error fault ↔
      exists inside, s.rest = s.delimiters.left ++ inside ∧
        TagFault s.delimiters s.line inside fault := by
  constructor
  · intro h
    unfold cut at h
    split at h
    case h_1 inside hleft =>
      exact ⟨inside, Text.isPrefixOf?_eq_some hleft, tagFault_of_cutTag h⟩
    case h_2 =>
      cases h
  · intro h
    rcases h with ⟨inside, hrest, hfault⟩
    simp only [cut, hrest, Text.isPrefixOf?_append]
    exact cutTag_of_tagFault hfault

end Scanner

/-!
## The scan up to a boundary
-/

namespace Scanner

open Segment

variable {d d' : Delimiters} {row : List Segment} {rest source : Text}

theorem segments_of_cutOffAll (h : CutOffAll d row d' rest source) (line : Nat) :
    segments ⟨d, line, source⟩ =
      (locate line row ++ (segments ⟨d', lineAfter line row, rest⟩).1,
        (segments ⟨d', lineAfter line row, rest⟩).2) := by
  induction h generalizing line with
  | nil => rfl
  | @cons d d' d'' segment row rest middle source hcut _ ih =>
      rw [segments_of_cut hcut.source_ne_nil (cut_of_cutOff hcut line), ih]
      rfl

theorem segments_of_cut_error {s : Scanner} {fault : Fault} (hne : s.rest ≠ [])
    (h : s.cut.1 = Except.error fault) : s.segments = ([], some fault) := by
  rw [segments, dif_neg hne]
  split
  case h_1 hcut =>
    rw [hcut] at h
    cases h
    rfl
  case h_2 hcut =>
    rw [hcut] at h
    cases h

/-- What a scan stops for: the end of the source, or a fault on the current line. -/
def Stops (s : Scanner) (scanFault : Option Fault) : Prop :=
  (s.rest = [] ∧ scanFault = none) ∨
    (s.rest ≠ [] ∧ exists fault, s.cut.1 = Except.error fault ∧ scanFault = some fault)

/-- Every scan goes to a last boundary and stops there. -/
theorem exists_cutOffAll_of_segments (s : Scanner) :
    exists row d' rest, CutOffAll s.delimiters row d' rest s.rest ∧
      s.segments.1 = locate s.line row ∧
        Stops ⟨d', lineAfter s.line row, rest⟩ s.segments.2 := by
  fun_induction segments s with
  | case1 s hnil =>
      exact ⟨[], s.delimiters, s.rest, CutOffAll.nil, rfl, Or.inl ⟨hnil, rfl⟩⟩
  | case2 s hne fault after hcut =>
      refine ⟨[], s.delimiters, s.rest, CutOffAll.nil, rfl, Or.inr ⟨hne, fault, ?_, rfl⟩⟩
      exact congrArg Prod.fst hcut
  | case3 s hne first after hcut more fault hmore ih =>
      rcases ih with ⟨row, d', rest, hall, hrow, hstops⟩
      have hfirst := cutOff_of_cut hne hcut
      have hcut' := hcut.symm.trans (cut_of_cutOff hfirst s.line)
      rcases Prod.mk.inj hcut' with ⟨hsegment, hscanner⟩
      have hline : after.line = s.line + Text.lineBreaks first.segment.content :=
        congrArg Scanner.line hscanner
      rw [hmore, hline] at hrow hstops
      refine ⟨first.segment :: row, d', rest, CutOffAll.cons hfirst hall, ?_, hstops⟩
      simp only [locate]
      rw [← hrow, ← Except.ok.inj hsegment]

structure Scan (source : Text) (row settled : List Segment) (last rest : Text)
    (d : Delimiters) (scanFault : Option Fault) : Prop where
  segments_eq : (start source).segments = (locate 1 row, scanFault)
  stops : Stops ⟨d, lineAfter 1 row, rest⟩ scanFault
  proper : d.Proper
  settled : Settled Delimiters.initial d row settled last rest source

theorem exists_scan (source : Text) :
    exists row settled last rest d scanFault,
      Scan source row settled last rest d scanFault := by
  rcases exists_cutOffAll_of_segments (start source) with
    ⟨row, d, rest, hall, hrow, hstops⟩
  rcases hall.exists_settled Delimiters.proper_initial with ⟨settled, last, hsettled⟩
  exact ⟨row, settled, last, rest, d, _, Prod.ext hrow rfl, hstops,
    hall.proper Delimiters.proper_initial, hsettled⟩

namespace Scan

variable {settled : List Segment} {last : Text} {scanFault : Option Fault}

/-- The scan of a longer source goes on behind what is settled. -/
theorem segments_append (h : Scan source row settled last rest d scanFault)
    (more : Text) :
    (start (source ++ more)).segments =
      (locate 1 settled ++
          (segments ⟨d, lineAfter 1 settled, last ++ (rest ++ more)⟩).1,
        (segments ⟨d, lineAfter 1 settled, last ++ (rest ++ more)⟩).2) :=
  segments_of_cutOffAll (h.settled.append more) 1

theorem rest_eq_nil (h : Scan source row settled last rest d none) : rest = [] := by
  rcases h.stops with ⟨hnil, _⟩ | ⟨_, _, _, hsome⟩
  · exact hnil
  · cases hsome

theorem cut_eq_error {fault : Fault}
    (h : Scan source row settled last rest d (some fault)) :
    row = settled ∧ last = [] ∧ rest ≠ [] ∧
      (cut ⟨d, lineAfter 1 row, rest⟩).1 = Except.error fault := by
  rcases h.stops with ⟨_, hnone⟩ | ⟨hne, _, hcut, hsome⟩
  · cases hnone
  · cases hsome
    rcases h.settled.row_eq with ⟨hrow, hlast⟩ | ⟨_, hnil⟩
    · exact ⟨hrow, hlast, hne, hcut⟩
    · exact absurd hnil hne

end Scan

end Scanner

end Stencil
