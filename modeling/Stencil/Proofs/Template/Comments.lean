import Stencil.Proofs.Template.Numbering
import Stencil.Proofs.Template.Shift

/-!
# Comments

## A comment where a token can start

A comment may be put at any boundary between two segments, unless the boundary only
exists because the source ends there or because the text before it ends with a piece of a
delimiter: behind a tag, at the start of the source, or in front of a tag.  The segments
before the boundary stay as they are, and those behind it are found further down.  Since
the comment leaves no node, the row of the source is read as before, and a fault is about
the same segment: its line changes exactly if that segment is behind the comment.
-/

namespace Stencil

namespace Delimiters

def comment (d : Delimiters) (body : Text) : Text :=
  d.left ++ Mark.comment.toChar :: (body ++ d.right)

end Delimiters

/-!
## Another source behind a boundary
-/

namespace Segment

variable {d d' d'' : Delimiters} {segment : Segment} {row others : List Segment}
variable {rest rest' other source : Text}

theorem CutOff.unique {found : Segment} (h : CutOff d segment d' rest source)
    (hfound : CutOff d found d'' rest' source) :
    segment = found ∧ d' = d'' ∧ rest = rest' := by
  have hcut := (Scanner.cut_of_cutOff h 0).symm.trans (Scanner.cut_of_cutOff hfound 0)
  rcases Prod.mk.inj hcut with ⟨hsegment, hscanner⟩
  exact ⟨congrArg LocatedSegment.segment (Except.ok.inj hsegment),
    congrArg Scanner.delimiters hscanner, congrArg Scanner.rest hscanner⟩

theorem CutOffAll.exists_more (h : CutOffAll d row d' rest source)
    (hothers : CutOffAll d others d'' rest' source) (hle : row.length ≤ others.length) :
    exists more, others = row ++ more ∧ CutOffAll d' more d'' rest' rest := by
  induction h generalizing others with
  | nil => exact ⟨others, rfl, hothers⟩
  | cons hcut _ ih =>
      cases hothers with
      | nil => cases hle
      | cons hfirst hbehind =>
          rcases hcut.unique hfirst with ⟨rfl, rfl, rfl⟩
          rcases ih hbehind (Nat.le_of_succ_le_succ hle) with ⟨more, rfl, hmore⟩
          exact ⟨more, rfl, hmore⟩

theorem CutOffAll.length_le (h : CutOffAll d row d' rest source) :
    rest.length + row.length ≤ source.length := by
  induction h with
  | nil => exact Nat.le_refl _
  | cons hcut _ ih =>
      have hshort : _ < _ := Scanner.cut_shortens (s := ⟨_, 0, _⟩) hcut.source_ne_nil
        (Scanner.cut_of_cutOff hcut 0)
      dsimp only at hshort
      rw [List.length_cons]
      omega

theorem CutOff.exists_tag_iff (h : CutOff d segment d' rest source) :
    (exists mark body, segment = Segment.tag mark body) ↔ d.left <+: source := by
  cases h with
  | run hne hextends =>
      constructor
      · rintro ⟨mark, body, htag⟩
        cases htag
      · intro hprefix
        exact absurd hprefix (hextends.not_prefix hne)
  | tag _ _ => exact ⟨fun _ => List.prefix_append _ _, fun _ => ⟨_, _, rfl⟩⟩
  | change _ _ => exact ⟨fun _ => List.prefix_append _ _, fun _ => ⟨_, _, rfl⟩⟩

theorem CutOff.next_of_run {s : Text} (h : CutOff d (Segment.run s) d' rest source) :
    d' = d ∧ (rest ≠ [] -> d.left <+: rest) := by
  cases h with
  | run _ hextends =>
      refine ⟨rfl, fun hne => ?_⟩
      rcases hextends with hfirst | ⟨hnil, _⟩
      · exact hfirst.starts
      · exact absurd hnil hne

theorem CutOff.exchange (h : CutOff d segment d' rest source)
    (hrun : forall s, segment = Segment.run s -> d.left <+: rest ∧ d.left <+: other) :
    exists front, source = front ++ rest ∧ CutOff d segment d' other (front ++ other) := by
  cases h with
  | @run s _ hne hextends =>
      rcases hrun s rfl with ⟨⟨after, rfl⟩, ⟨later, rfl⟩⟩
      refine ⟨s, rfl, CutOff.run hne (Or.inl ?_)⟩
      rcases hextends with hfirst | ⟨hnil, hnot⟩
      · exact hfirst.of_append.append later
      · rw [(List.append_eq_nil_iff.mp hnil).1] at hnot
        exact absurd (List.nil_infix) hnot
  | @tag mark body _ hmark hbody =>
      refine ⟨d.left ++ mark.toChar :: (body ++ d.right), by simp, ?_⟩
      have hother := CutOff.tag hmark (hbody.of_append.append other)
      simpa using hother
  | @change _ body _ hnamed hbody =>
      refine ⟨d.left ++ Mark.delimiters.toChar :: (body ++ d.right), by simp, ?_⟩
      have hother := CutOff.change hnamed (hbody.of_append.append other)
      simpa using hother

theorem CutOffAll.left_prefix_iff {source' : Text} (h : CutOffAll d row d' rest source)
    (hother : CutOffAll d row d'' rest' source') (hne : row ≠ []) :
    d.left <+: source ↔ d.left <+: source' := by
  cases h with
  | nil => exact absurd rfl hne
  | cons hcut _ =>
      cases hother with
      | cons hcut' _ => rw [← hcut.exists_tag_iff, hcut'.exists_tag_iff]

theorem CutOffAll.source_ne_nil (h : CutOffAll d row d' rest source) (hne : row ≠ []) :
    source ≠ [] := by
  cases h with
  | nil => exact absurd rfl hne
  | cons hcut _ => exact hcut.source_ne_nil

theorem CutOffAll.eq_of_row_nil (h : CutOffAll d [] d' rest source) :
    d' = d ∧ source = rest := by
  cases h with
  | nil => exact ⟨rfl, rfl⟩

/-- What follows a row may be exchanged, if a tag comes next and a run at the end of the
row has been in front of a tag, too. -/
theorem CutOffAll.exchange (h : CutOffAll d row d' rest source)
    (hrun : forall others s, row = others ++ [run s] -> d'.left <+: rest)
    (hother : d'.left <+: other) :
    exists front, source = front ++ rest ∧ CutOffAll d row d' other (front ++ other) := by
  induction h with
  | nil => exact ⟨[], rfl, CutOffAll.nil⟩
  | @cons d d' d'' segment row rest middle source hcut hall ih =>
      have hlater : forall others s, row = others ++ [run s] -> d''.left <+: rest := by
        intro others s hrow
        exact hrun (segment :: others) s (by rw [hrow, List.cons_append])
      rcases ih hlater hother with ⟨front, rfl, hfront⟩
      have hfirst : forall s, segment = run s ->
          d.left <+: front ++ rest ∧ d.left <+: front ++ other := by
        intro s hsegment
        subst hsegment
        rcases hcut.next_of_run with ⟨rfl, hnext⟩
        by_cases hrow : row = []
        · subst hrow
          rcases hall.eq_of_row_nil with ⟨rfl, hsource⟩
          rw [hsource, (hfront.eq_of_row_nil).2]
          exact ⟨hrun [] s rfl, hother⟩
        · have hleft := hnext (hall.source_ne_nil hrow)
          exact ⟨hleft, (hall.left_prefix_iff hfront hrow).mp hleft⟩
      rcases hcut.exchange hfirst with ⟨start, rfl, hstart⟩
      refine ⟨start ++ front, (List.append_assoc _ _ _).symm, ?_⟩
      rw [List.append_assoc]
      exact CutOffAll.cons hstart hfront

/-- A comment is cut off behind the row, if it is put where a token can start. -/
theorem CutOffAll.insert_comment {front body : Text}
    (h : CutOffAll d row d' rest (front ++ rest))
    (hplace : row = [] ∨ (exists others mark name, row = others ++ [tag mark name]) ∨
      d'.left <+: rest)
    (hbody : Text.FirstAt d'.right body d'.right) :
    CutOffAll d (row ++ [tag Mark.comment body]) d' rest
      (front ++ (d'.comment body ++ rest)) := by
  have hrun : forall others s, row = others ++ [run s] -> d'.left <+: rest := by
    intro others s hrow
    rcases hplace with rfl | ⟨before, mark, name, hlast⟩ | hleft
    · cases List.append_eq_nil_iff.mp hrow.symm with
      | intro _ hnil => cases hnil
    · rw [hrow] at hlast
      cases List.append_inj_right' hlast rfl
    · exact hleft
  have hcomment : CutOff d' (tag Mark.comment body) d' rest (d'.comment body ++ rest) := by
    have hmark : Mark.comment ≠ Mark.delimiters := by simp
    have htag := CutOff.tag (d := d') hmark (hbody.append rest)
    simpa [Delimiters.comment] using htag
  have hleft : d'.left <+: d'.comment body ++ rest := hcomment.exists_tag_iff.mp ⟨_, _, rfl⟩
  rcases h.exchange hrun hleft with ⟨start, hfront, hall⟩
  rw [List.append_cancel_right hfront]
  exact hall.trans hcomment.all

end Segment

/-!
## The row that is read
-/

namespace LocatedSegment

variable {row others : List LocatedSegment} {lines last i : Nat}

theorem lineAt_of_lt (h : i < row.length) :
    lineAt (row ++ others.map (later lines)) (last + lines) i = lineAt (row ++ others) last i := by
  rw [lineAt, lineAt, List.getElem?_append_left h, List.getElem?_append_left h,
    List.getElem?_eq_getElem h]
  rfl

theorem lineAt_of_le (h : row.length ≤ i) :
    lineAt (row ++ others.map (later lines)) (last + lines) i =
      lineAt (row ++ others) last i + lines := by
  rw [lineAt, lineAt, List.getElem?_append_right h, List.getElem?_append_right h,
    List.getElem?_map]
  cases others[i - row.length]? with
  | none => rfl
  | some located => rfl

end LocatedSegment

namespace Nesting

namespace Stack

variable {scanFault : Option Fault} {row others : List LocatedSegment}

/-- A segment that leaves no node may be left out. -/
theorem run_skip {located : LocatedSegment} (h : located.segment.isShown = false)
    (stack : Stack) :
    stack.run scanFault (row ++ located :: others) = stack.run scanFault (row ++ others) := by
  rw [run, run, stepAll_append, stepAll_append]
  congr 2
  funext next
  rw [stepAll_cons, step_of_not_isShown h]
  rfl

end Stack

end Nesting

namespace Node

open Nesting LocatedSegment

variable {row : List Segment} {d : Delimiters} {front rest body : Text}

/-- Both sources are read from the same row, and a fault is about the same segment of it,
which may have two different lines. -/
theorem ofSource?_insert_comment
    (hcut : Segment.CutOffAll Delimiters.initial row d rest (front ++ rest))
    (hcomment : Segment.CutOffAll Delimiters.initial (row ++ [Segment.tag Mark.comment body]) d
      rest (front ++ (d.comment body ++ rest))) :
    exists lineOf lineOf' : Nat -> Nat,
      ofSource? (front ++ rest) =
        (Segment.outcomeOf (front ++ rest)).mapError (Fault.relined lineOf) ∧
      ofSource? (front ++ (d.comment body ++ rest)) =
        (Segment.outcomeOf (front ++ rest)).mapError (Fault.relined lineOf') ∧
      forall i,
        (i < row.length -> lineOf' i = lineOf i) ∧
          (row.length ≤ i -> lineOf' i = lineOf i + Text.lineBreaks body) := by
  have hlater := Scanner.segments_later d (Segment.lineAfter 1 row) (Text.lineBreaks body) rest
  rcases hrest : Scanner.segments ⟨d, Segment.lineAfter 1 row, rest⟩ with ⟨others, scanFault⟩
  rw [hrest] at hlater
  have hsegments : (Scanner.start (front ++ rest)).segments =
      (Segment.locate 1 row ++ others, scanFault) := by
    rw [Scanner.start, Scanner.segments_of_cutOffAll hcut, hrest]
  have hline : Segment.lineAfter 1 (row ++ [Segment.tag Mark.comment body]) =
      Segment.lineAfter 1 row + Text.lineBreaks body :=
    List.foldl_append
  have hsegments' : (Scanner.start (front ++ (d.comment body ++ rest))).segments =
      (Segment.locate 1 row ++
          ⟨Segment.lineAfter 1 row, Segment.tag Mark.comment body⟩ ::
            others.map (later (Text.lineBreaks body)),
        scanFault.map (Fault.later (Text.lineBreaks body))) := by
    rw [Scanner.start, Scanner.segments_of_cutOffAll hcomment, hline, hlater,
      Segment.locate_append, List.append_assoc]
    rfl
  have hlast : exists last, forall fault, scanFault = some fault -> fault.line = last := by
    cases scanFault with
    | none => exact ⟨0, fun _ hfault => by cases hfault⟩
    | some fault => exact ⟨fault.line, fun _ hfault => by rw [Option.some.inj hfault]⟩
  rcases hlast with ⟨last, hlast⟩
  have hlast' : forall fault, scanFault.map (Fault.later (Text.lineBreaks body)) = some fault ->
      fault.line = last + Text.lineBreaks body := by
    intro fault hfault
    rcases Option.map_eq_some_iff.mp hfault with ⟨found, hfound, rfl⟩
    rw [← hlast found hfound]
    rfl
  refine ⟨lineAt (Segment.locate 1 row ++ others) last,
    lineAt (Segment.locate 1 row ++ others.map (later (Text.lineBreaks body)))
      (last + Text.lineBreaks body), ?_, ?_, fun i => ⟨?_, ?_⟩⟩
  · rw [ofSource?_eq_run, Segment.outcomeOf, hsegments]
    exact Stack.run_eq_outcome hlast _
  · have hcauses : (scanFault.map (Fault.later (Text.lineBreaks body))).map Fault.cause =
        scanFault.map Fault.cause :=
      Option.map_map _ _ _
    have hshown : (Segment.locate 1 row ++
        others.map (later (Text.lineBreaks body))).map segment =
          (Segment.locate 1 row ++ others).map segment := by
      rw [List.map_append, List.map_append, List.map_map]
      rfl
    rw [ofSource?_eq_run, hsegments', Stack.run_skip rfl, Stack.run_eq_outcome hlast',
      Segment.outcomeOf, hsegments, hcauses, hshown]
  · intro hlt
    rw [← Segment.length_locate 1 row] at hlt
    exact lineAt_of_lt hlt
  · intro hle
    rw [← Segment.length_locate 1 row] at hle
    exact lineAt_of_le hle

end Node

namespace Template

open Nesting

variable {source before front rest : Text} {cause : ParseCause} {row blamed : List Segment}
variable {d : Delimiters} {late : Nat}

theorem Blames.length_le_iff (h : Blames (front ++ rest) cause blamed before late)
    (hcut : Segment.CutOffAll Delimiters.initial row d rest (front ++ rest)) :
    row.length ≤ blamed.length ↔ front.length ≤ before.length := by
  rcases h.exists_cutOffAll with ⟨d', rest', hsource, hblamed⟩
  have hlength := congrArg List.length hsource
  rw [List.length_append, List.length_append] at hlength
  rcases Nat.lt_or_ge blamed.length row.length with hlt | hge
  · rcases hblamed.exists_more hcut (Nat.le_of_lt hlt) with ⟨more, rfl, hmore⟩
    have hle := hmore.length_le
    rw [List.length_append] at hlt ⊢
    omega
  · rcases hcut.exists_more hblamed hge with ⟨more, rfl, hmore⟩
    have hle := hmore.length_le
    rw [List.length_append] at hge ⊢
    omega

theorem exists_blames {name : Text} {e : ParseError}
    (h : parse name source = Except.error e) :
    exists blamed before late, Blames source e.fault.cause blamed before late := by
  rcases parse_eq_error_iff.mp h with ⟨hsource, _⟩
  rw [Node.ofSource?_eq_verdict] at hsource
  have hstart : Machine.Located (Machine.start source) (Machine.start source) :=
    Machine.Located.outside Machine.Reads.nil rfl
  rcases hstart.exists_stops (Machine.runs_iff.mpr hsource) with ⟨last, hlast, hstops⟩
  rcases exists_blames_of_stops hlast hstops with ⟨blamed, before, late, hblames, _⟩
  exact ⟨blamed, before, late, hblames⟩

/-- A comment may be put at a boundary of a source where a token can start: at its
beginning, behind a tag or in front of one.  The source has the same tree then, or the same
error; the line of an error about a tag behind the comment is greater by the line breaks in
the comment, and the line of any other error stays as it is. -/
theorem parse_insert_comment {body : Text}
    (hcut : Segment.CutOffAll Delimiters.initial row d rest (front ++ rest))
    (hplace : row = [] ∨ (exists others mark name, row = others ++ [Segment.tag mark name]) ∨
      d.left <+: rest)
    (hbody : Text.FirstAt d.right body d.right) (name : Text) :
    (forall t, parse name (front ++ rest) = Except.ok t ->
        parse name (front ++ (d.comment body ++ rest)) = Except.ok t) ∧
      forall e, parse name (front ++ rest) = Except.error e ->
        (exists blamed before late, Blames (front ++ rest) e.fault.cause blamed before late) ∧
          forall blamed before late, Blames (front ++ rest) e.fault.cause blamed before late ->
            (before.length < front.length ->
              parse name (front ++ (d.comment body ++ rest)) = Except.error e) ∧
            (front.length ≤ before.length ->
              parse name (front ++ (d.comment body ++ rest)) =
                Except.error ⟨e.template,
                  ⟨e.fault.line + Text.lineBreaks body, e.fault.cause⟩⟩) := by
  have hcomment := hcut.insert_comment hplace hbody
  rcases Node.ofSource?_insert_comment hcut hcomment with
    ⟨lineOf, lineOf', hsource, hsource', hlines⟩
  constructor
  · intro t ht
    rcases parse_succeeds_iff.mp ht with ⟨hnodes, hname⟩
    refine parse_succeeds_iff.mpr ⟨?_, hname⟩
    rw [hsource] at hnodes
    rw [hsource']
    cases houtcome : Segment.outcomeOf (front ++ rest) with
    | error fault =>
        rw [houtcome] at hnodes
        cases hnodes
    | ok nodes =>
        rw [houtcome] at hnodes
        exact hnodes
  · intro e he
    refine ⟨exists_blames he, ?_⟩
    intro blamed before late hblames
    rcases parse_eq_error_iff.mp he with ⟨hfault, hname⟩
    rw [hsource, hblames.outcome_eq] at hfault
    have hline : lineOf blamed.length = e.fault.line :=
      congrArg Fault.line (Except.error.inj hfault)
    have hreported : Node.ofSource? (front ++ (d.comment body ++ rest)) =
        Except.error ⟨lineOf' blamed.length, e.fault.cause⟩ := by
      rw [hsource', hblames.outcome_eq]
      rfl
    constructor
    · intro hbefore
      have hlt : blamed.length < row.length := by
        rw [← Nat.not_le, hblames.length_le_iff hcut, Nat.not_le]
        exact hbefore
      rw [(hlines blamed.length).1 hlt, hline] at hreported
      exact parse_eq_error_iff.mpr ⟨hreported, hname⟩
    · intro hbehind
      have hle : row.length ≤ blamed.length := (hblames.length_le_iff hcut).mpr hbehind
      rw [(hlines blamed.length).2 hle, hline] at hreported
      exact parse_eq_error_iff.mpr ⟨hreported, hname⟩

def angles : Delimiters :=
  ⟨['<'], ['>']⟩

/-- A block is open, under delimiters that are not the initial ones. -/
def openedFront : Text :=
  ['\x7b', '\x7b', '=', '<', ' ', '>', '\x7d', '\x7d', '\n', '<', '$', 'k', '>']

def openedRow : List Segment :=
  [Segment.tag Mark.delimiters ['<', ' ', '>'], Segment.run ['\n'],
    Segment.tag (Mark.opening BlockKind.within) ['k']]

def openedMachine (rest : Text) : Machine :=
  ⟨angles, 2, rest, Stack.push ⟨[], [Node.text ['\n']]⟩ 2 BlockKind.within ['k']⟩

theorem reads_opened (rest : Text) :
    (Machine.start (openedFront ++ rest)).Reads openedRow (openedMachine rest) := by
  let changed : Machine :=
    ⟨angles, 1, ['\n', '<', '$', 'k', '>'] ++ rest, Stack.empty⟩
  let written : Machine :=
    ⟨angles, 2, ['<', '$', 'k', '>'] ++ rest, ⟨[], [Node.text ['\n']]⟩⟩
  have hangles : angles.NamedBy ['<', ' ', '>'] := by
    constructor
    all_goals decide
  have hchange : (Machine.start (openedFront ++ rest)).Step
      (Segment.tag Mark.delimiters ['<', ' ', '>']) changed :=
    Machine.Step.delimiters ⟨rfl, Text.firstAt_of_head_not_mem (by decide) _ _⟩ hangles
  have hrun : changed.Step (Segment.run ['\n']) written :=
    Machine.Step.run (s := ['\n']) rfl (by decide)
      (Or.inl (Text.firstAt_of_head_not_mem (c := '<') (by decide) [] _))
  have hopening : written.Step (Segment.tag (Mark.opening BlockKind.within) ['k'])
      (openedMachine rest) :=
    Machine.Step.opening ⟨rfl, Text.firstAt_of_head_not_mem (by decide) _ _⟩
      (by decide : 0 < blockDepthLimit)
  exact Machine.Reads.cons hchange (Machine.Reads.cons hrun hopening.reads)

/-- Inside the block a comment over two lines may come before the closing tag, and before a
tag that closes another block, whose fault is then one line further down. -/
theorem parse_insert_comment_opened :
    (forall rest, Segment.CutOffAll Delimiters.initial openedRow angles rest
      (openedFront ++ rest)) ∧
    Text.FirstAt angles.right ['<', '\n'] angles.right ∧
    parse ['n'] (openedFront ++ ['<', '/', 'k', '>']) =
      parse ['n'] (openedFront ++ (angles.comment ['<', '\n'] ++ ['<', '/', 'k', '>'])) ∧
    parse ['n'] (openedFront ++ ['<', '/', 'j', '>']) =
      Except.error ⟨['n'], ⟨2, ParseCause.unmatchedTag ['j'] ['k']⟩⟩ ∧
    parse ['n'] (openedFront ++ (angles.comment ['<', '\n'] ++ ['<', '/', 'j', '>'])) =
      Except.error ⟨['n'], ⟨3, ParseCause.unmatchedTag ['j'] ['k']⟩⟩ := by
  have hcut : forall rest, Segment.CutOffAll Delimiters.initial openedRow angles rest
      (openedFront ++ rest) :=
    fun rest => (reads_opened rest).cutOffAll
  have hplace : forall rest : Text, openedRow = [] ∨
      (exists others mark name, openedRow = others ++ [Segment.tag mark name]) ∨
        angles.left <+: rest :=
    fun _ => Or.inr (Or.inl ⟨openedRow.take 2, Mark.opening BlockKind.within, ['k'], rfl⟩)
  have hbody : Text.FirstAt angles.right ['<', '\n'] angles.right :=
    Text.firstAt_of_head_not_mem (by decide) [] []
  have hclosed : parse ['n'] (openedFront ++ ['<', '/', 'k', '>']) =
      Except.ok ⟨['n'], [Node.text ['\n'], Node.block BlockKind.within ['k'] []]⟩ := by
    decide +kernel
  have hcrossed : parse ['n'] (openedFront ++ ['<', '/', 'j', '>']) =
      Except.error ⟨['n'], ⟨2, ParseCause.unmatchedTag ['j'] ['k']⟩⟩ := by
    decide +kernel
  have hclosing : (openedMachine ['<', '/', 'j', '>']).AtTag Mark.closing ['j'] [] :=
    ⟨rfl, Text.firstAt_of_head_not_mem (by decide) _ _⟩
  have hstops : (openedMachine ['<', '/', 'j', '>']).Stops
      (Except.error ⟨2, ParseCause.unmatchedTag ['j'] ['k']⟩) :=
    Machine.Stops.unmatched hclosing rfl (by decide : ['k'] ≠ ['j'])
  have hblames := Blames.next (reads_opened _) rfl (List.cons_ne_nil _ _) hstops (by decide)
  have hok := (parse_insert_comment (hcut _) (hplace _) hbody ['n']).1 _ hclosed
  have herror := ((parse_insert_comment (hcut _) (hplace _) hbody ['n']).2 _ hcrossed).2
    _ _ _ hblames
  exact ⟨hcut, hbody, hclosed.trans hok.symm, hcrossed, herror.2 (Nat.le_refl _)⟩

end Template

end Stencil
