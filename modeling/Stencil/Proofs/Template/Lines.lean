import Stencil.Proofs.Template.Extension
import Stencil.Proofs.Template.Machine

/-!
# Lines of faults

## Which tag a fault is about, and where it starts

A fault is about a tag.  For a block that is left open it is the opening tag of the
block; for all other faults it is the tag at which the reading stops.  The line of a
fault is meant to be the line on which this tag starts.

It is not always that line.  Lines are counted by the line breaks in runs and in the
bodies of tags, so line breaks inside of delimiters are overlooked, and the line of a
malformed change of delimiters is taken behind its body.  What is reported is exactly
the line of the tag less the overlooked line breaks before it, and for a malformed
change the line breaks in its body are added.
-/

namespace Stencil

namespace Nesting

namespace Machine

inductive Reads : Machine -> List Segment -> Machine -> Prop where
  | nil {m : Machine} : Reads m [] m
  | cons {m next last : Machine} {segment : Segment} {row : List Segment} :
      m.Step segment next ->
      Reads next row last ->
      Reads m (segment :: row) last

variable {m next last origin : Machine} {segment : Segment}
variable {row others : List Segment} {nodes : List Node}

theorem Step.reads (h : m.Step segment next) : m.Reads [segment] next :=
  Reads.cons h Reads.nil

theorem Reads.trans (h : m.Reads row next) (hothers : next.Reads others last) :
    m.Reads (row ++ others) last := by
  induction h with
  | nil => exact hothers
  | cons hstep _ ih => exact Reads.cons hstep (ih hothers)

theorem Reads.cutOffAll (h : m.Reads row last) :
    Segment.CutOffAll m.delimiters row last.delimiters last.rest m.rest := by
  induction h with
  | nil => exact Segment.CutOffAll.nil
  | cons hstep _ ih => exact Segment.CutOffAll.cons hstep.cutOff ih

theorem Reads.line_eq (h : m.Reads row last) :
    last.line = Segment.lineAfter m.line row := by
  induction h with
  | nil => rfl
  | cons hstep _ ih =>
      rw [ih, hstep.line_eq]
      rfl

/-!
## The tags of the open blocks

Wherever the machine stands inside of a block, it has read the opening tag of the block
and behind it the row of whole nodes.
-/

inductive Located (origin : Machine) : Machine -> Prop where
  | outside {m : Machine} {row : List Segment} :
      origin.Reads row m ->
      m.stack.blocks = [] ->
      Located origin m
  | inside {m inner last : Machine} {kind : BlockKind} {name : Text}
      {row : List Segment} :
      Located origin m ->
      m.Step (Segment.tag (Mark.opening kind) name) inner ->
      inner.Reads row last ->
      last.stack.blocks = inner.stack.blocks ->
      row.filter Segment.isShown = Node.bracketingAll last.stack.nodes ->
      Located origin last

theorem Located.exists_reads (h : Located origin m) :
    exists row, origin.Reads row m := by
  induction h with
  | outside hreads _ => exact ⟨_, hreads⟩
  | inside _ hopening hinside _ _ ih =>
      rcases ih with ⟨row, hrow⟩
      exact ⟨_, (hrow.trans hopening.reads).trans hinside⟩

/-- Reading whole nodes, the machine stays inside of the same blocks. -/
theorem Located.beside (h : Located origin m) (hreads : m.Reads row last)
    (hblocks : last.stack.blocks = m.stack.blocks)
    (hnodes : last.stack.nodes = m.stack.nodes ++ nodes)
    (hshown : row.filter Segment.isShown = Node.bracketingAll nodes) :
    Located origin last := by
  cases h with
  | outside hbefore hnone =>
      exact Located.outside (hbefore.trans hreads) (hblocks.trans hnone)
  | inside houter hopening hinside hsame hbefore =>
      refine Located.inside houter hopening (hinside.trans hreads)
        (hblocks.trans hsame) ?_
      rw [List.filter_append, hbefore, hshown, hnodes, Node.bracketingAll_append]

theorem Step.opening_stack {kind : BlockKind} {name : Text}
    (h : m.Step (Segment.tag (Mark.opening kind) name) next) :
    next.stack = m.stack.push m.line kind name := by
  cases h with
  | opening _ _ => rfl

theorem Located.step (h : Located origin m) (hstep : m.Step segment next) :
    Located origin next := by
  have hreads := hstep.reads
  cases hstep with
  | run _ _ _ => exact h.beside hreads rfl rfl rfl
  | print _ => exact h.beside hreads rfl rfl rfl
  | embed _ => exact h.beside hreads rfl rfl rfl
  | comment _ => exact h.beside hreads rfl (List.append_nil _).symm rfl
  | delimiters _ _ => exact h.beside hreads rfl (List.append_nil _).symm rfl
  | opening htag hlt =>
      exact Located.inside h (Step.opening htag hlt) Reads.nil rfl rfl
  | @closing block outer name rest htag hblocks hname =>
      cases h with
      | outside _ hnone =>
          rw [hnone] at hblocks
          cases hblocks
      | @inside m₀ inner _ kind opened row houter hopening hinside hsame hshown =>
          -- The block is one more node beside those before its opening tag.
          rw [hsame, hopening.opening_stack] at hblocks
          cases hblocks
          subst hname
          have hwhole : (Segment.tag (Mark.opening kind) opened ::
              (row ++ [Segment.tag Mark.closing opened])).filter Segment.isShown =
                Node.bracketingAll [Node.block kind opened m.stack.nodes] := by
            simp [List.filter_cons, List.filter_append, Segment.isShown, hshown,
              Node.bracketingAll, Node.bracketing]
          exact houter.beside (Reads.cons hopening (hinside.trans hreads)) rfl rfl hwhole

theorem Located.exists_stops {outcome : Except Fault (List Node)}
    (h : Located origin m) (hruns : Runs m outcome) :
    exists last, Located origin last ∧ last.Stops outcome := by
  induction hruns with
  | @stop m outcome hstops => exact ⟨m, h, hstops⟩
  | step hstep _ ih => exact ih (h.step hstep)

end Machine

end Nesting

/-!
## Line breaks that are counted, and others
-/

namespace Delimiters

def lineBreaks (d : Delimiters) : Nat :=
  Text.lineBreaks d.left + Text.lineBreaks d.right

end Delimiters

namespace Segment

/-- The line breaks in the delimiters of a row of tags.  They are overlooked when lines
are counted. -/
def overlooked (d : Delimiters) : List Segment -> Nat
  | [] => 0
  | run _ :: row => overlooked d row
  | tag Mark.delimiters body :: row =>
      d.lineBreaks + overlooked ((Delimiters.ofBody? body).getD d) row
  | tag _ _ :: row => d.lineBreaks + overlooked d row

variable {d d' : Delimiters} {mark : Mark} {body : Text} {row : List Segment}
variable {rest source : Text}

theorem overlooked_tag (hmark : mark ≠ Mark.delimiters) :
    overlooked d (tag mark body :: row) = d.lineBreaks + overlooked d row := by
  cases mark with
  | delimiters => exact absurd rfl hmark
  | _ => rfl

theorem overlooked_change (h : d'.NamedBy body) :
    overlooked d (tag Mark.delimiters body :: row) =
      d.lineBreaks + overlooked d' row := by
  rw [overlooked, Delimiters.ofBody?_eq_some_iff.mpr h]
  rfl

theorem overlooked_eq_zero (hd : d.lineBreaks = 0)
    (h : forall (d' : Delimiters) (body : Text), tag Mark.delimiters body ∈ row ->
      d'.NamedBy body -> d'.lineBreaks = 0) : overlooked d row = 0 := by
  induction row generalizing d with
  | nil => rfl
  | cons segment row ih =>
      have hrow : forall (d' : Delimiters) (body : Text),
          tag Mark.delimiters body ∈ row -> d'.NamedBy body -> d'.lineBreaks = 0 :=
        fun d' body hmem => h d' body (List.mem_cons_of_mem _ hmem)
      cases segment with
      | run s => exact ih hd hrow
      | tag mark body =>
          by_cases hmark : mark = Mark.delimiters
          · subst hmark
            rw [overlooked, hd, Nat.zero_add]
            cases hnames : Delimiters.ofBody? body with
            | none => exact ih hd hrow
            | some d' =>
                have hnamed := Delimiters.ofBody?_eq_some_iff.mp hnames
                exact ih (h d' body List.mem_cons_self hnamed) hrow
          · rw [overlooked_tag hmark, hd, Nat.zero_add]
            exact ih hd hrow

theorem lineBreaks_tag (d : Delimiters) (mark : Mark) (body : Text) :
    Text.lineBreaks (d.left ++ mark.toChar :: (body ++ d.right)) =
      d.lineBreaks + Text.lineBreaks body := by
  have hmark : Text.lineBreaks [mark.toChar] = 0 := by
    cases mark with
    | opening kind => cases kind <;> rfl
    | _ => rfl
  rw [← List.singleton_append, Text.lineBreaks_append, Text.lineBreaks_append, hmark,
    Text.lineBreaks_append, Delimiters.lineBreaks]
  omega

/-- What is cut off ends on the line that is counted, but for what is overlooked. -/
theorem CutOffAll.exists_before (h : CutOffAll d row d' rest source) (line : Nat) :
    exists before, source = before ++ rest ∧
      lineAfter line row + overlooked d row = line + Text.lineBreaks before := by
  induction h generalizing line with
  | nil => exact ⟨[], rfl, rfl⟩
  | @cons d d' d'' segment row rest middle source hcut _ ih =>
      rcases ih (line + Text.lineBreaks segment.content) with ⟨before, rfl, hline⟩
      cases hcut with
      | @run s _ _ _ =>
          refine ⟨s ++ before, (List.append_assoc _ _ _).symm, ?_⟩
          rw [Text.lineBreaks_append, ← Nat.add_assoc]
          exact hline
      | @tag mark body _ hmark _ =>
          refine ⟨(d.left ++ mark.toChar :: (body ++ d.right)) ++ before,
            by simp, ?_⟩
          rw [Text.lineBreaks_append, lineBreaks_tag, overlooked_tag hmark]
          simp only [lineAfter, List.foldl_cons, content] at hline ⊢
          omega
      | @change _ body _ hnamed _ =>
          refine ⟨(d.left ++ Mark.delimiters.toChar :: (body ++ d.right)) ++ before,
            by simp, ?_⟩
          rw [Text.lineBreaks_append, lineBreaks_tag, overlooked_change hnamed]
          simp only [lineAfter, List.foldl_cons, content] at hline ⊢
          omega

end Segment

/-!
## The tag of a fault
-/

namespace Template

open Nesting

/-- A fault with this cause is about the tag that starts behind `before`, which `row`
spells.  Of the line breaks in the tag, `late` come before the line that is reported
for it. -/
inductive Blames (source : Text) :
    ParseCause -> (row : List Segment) -> (before : Text) -> (late : Nat) -> Prop where
  | next {m : Machine} {row : List Segment} {before : Text} {fault : Fault} :
      (Machine.start source).Reads row m ->
      source = before ++ m.rest ->
      m.rest ≠ [] ->
      m.Stops (Except.error fault) ->
      fault.cause ≠ ParseCause.malformedTag ->
      Blames source fault.cause row before 0
  | malformed {m : Machine} {row : List Segment} {before body rest : Text} :
      (Machine.start source).Reads row m ->
      source = before ++ m.rest ->
      m.AtTag Mark.delimiters body rest ->
      (forall d : Delimiters, ¬ d.NamedBy body) ->
      Blames source ParseCause.malformedTag row before (Text.lineBreaks body)
  | unclosed {m inner last : Machine} {row inside : List Segment} {before name : Text}
      {kind : BlockKind} {nodes : List Node} :
      (Machine.start source).Reads row m ->
      source = before ++ m.rest ->
      m.Step (Segment.tag (Mark.opening kind) name) inner ->
      inner.Reads inside last ->
      last.rest = [] ->
      inside.filter Segment.isShown = Node.bracketingAll nodes ->
      Blames source (ParseCause.unclosedScope name) row before 0

variable {source name : Text} {m : Machine} {row : List Segment} {fault : Fault}

theorem exists_before_of_reads (h : (Machine.start source).Reads row m) :
    exists before, source = before ++ m.rest ∧
      m.line + Segment.overlooked Delimiters.initial row =
        1 + Text.lineBreaks before := by
  rw [h.line_eq]
  exact h.cutOffAll.exists_before 1

theorem exists_blames_of_unclosed {block : OpenBlock} {outer : List OpenBlock}
    (h : Machine.Located (Machine.start source) m) (hrest : m.rest = [])
    (hblocks : m.stack.blocks = block :: outer) :
    exists row before,
      Blames source (ParseCause.unclosedScope block.opener.name) row before 0 ∧
        block.opener.line + Segment.overlooked Delimiters.initial row =
          1 + Text.lineBreaks before := by
  cases h with
  | outside _ hnone =>
      rw [hnone] at hblocks
      cases hblocks
  | inside houter hopening hinside hsame hshown =>
      rw [hsame, hopening.opening_stack] at hblocks
      cases hblocks
      rcases houter.exists_reads with ⟨row, hrow⟩
      rcases exists_before_of_reads hrow with ⟨before, hsource, hline⟩
      exact ⟨row, before,
        Blames.unclosed hrow hsource hopening hinside hrest hshown, hline⟩

/-- If the machine stops at a tag, the fault is about this tag, on the current line or,
for a malformed change of delimiters, on the line where its body ends. -/
theorem exists_blames_of_stops (h : Machine.Located (Machine.start source) m)
    (hstops : m.Stops (Except.error fault)) :
    exists row before late,
      Blames source fault.cause row before late ∧
        fault.line + Segment.overlooked Delimiters.initial row =
          1 + Text.lineBreaks before + late := by
  rcases h.exists_reads with ⟨row, hrow⟩
  rcases exists_before_of_reads hrow with ⟨before, hsource, hline⟩
  have hnext : m.rest ≠ [] -> fault.cause ≠ ParseCause.malformedTag ->
      Blames source fault.cause row before 0 :=
    fun hne hcause => Blames.next hrow hsource hne hstops hcause
  cases hstops with
  | bareDelimiter hne _ => exact ⟨row, before, 0, hnext hne (by simp), hline⟩
  | unrecognized hrest _ =>
      exact ⟨row, before, 0, hnext (by simp [hrest]) (by simp), hline⟩
  | unended hrest _ =>
      exact ⟨row, before, 0, hnext (by simp [hrest]) (by simp), hline⟩
  | malformed htag hnot =>
      refine ⟨row, before, _, Blames.malformed hrow hsource htag hnot, ?_⟩
      rw [← hline]
      dsimp only
      omega
  | tooDeep htag _ =>
      exact ⟨row, before, 0, hnext (by simp [htag.spelled]) (by simp), hline⟩
  | unopened htag _ =>
      exact ⟨row, before, 0, hnext (by simp [htag.spelled]) (by simp), hline⟩
  | unmatched htag _ _ =>
      exact ⟨row, before, 0, hnext (by simp [htag.spelled]) (by simp), hline⟩
  | unclosed hrest hblocks =>
      rcases exists_blames_of_unclosed h hrest hblocks with ⟨row, before, hblames, hline⟩
      exact ⟨row, before, 0, hblames, hline⟩

/-- A fault is reported on the line of the tag it is about, less the line breaks that
are overlooked before the tag, and for a malformed change of delimiters with those in
its body.  If no line break occurs in the delimiters that the source names before the
tag, none is overlooked. -/
theorem parse_error_line {e : ParseError} (h : parse name source = Except.error e) :
    exists row before late,
      Blames source e.fault.cause row before late ∧
        e.fault.line + Segment.overlooked Delimiters.initial row =
          1 + Text.lineBreaks before + late ∧
        ((forall (d : Delimiters) (body : Text),
            Segment.tag Mark.delimiters body ∈ row -> d.NamedBy body ->
              d.lineBreaks = 0) ->
          e.fault.line = 1 + Text.lineBreaks before + late) := by
  rcases parse_eq_error_iff.mp h with ⟨hsource, _⟩
  rw [Node.ofSource?_eq_verdict] at hsource
  have hstart : Machine.Located (Machine.start source) (Machine.start source) :=
    Machine.Located.outside Machine.Reads.nil rfl
  rcases hstart.exists_stops (Machine.runs_iff.mpr hsource) with ⟨last, hlast, hstops⟩
  rcases exists_blames_of_stops hlast hstops with ⟨row, before, late, hblames, hline⟩
  refine ⟨row, before, late, hblames, hline, ?_⟩
  intro hnamed
  rw [Segment.overlooked_eq_zero rfl hnamed, Nat.add_zero] at hline
  exact hline

/-- The left delimiter becomes a line break.  A comment and a tag with an unknown mark
follow. -/
def brokenDelimiters : Text :=
  ['\x7b', '\x7b', '=', '\n', ' ', '|', '\x7d', '\x7d', '\n', '!', '|', '\n', '?']

theorem parse_error_line_brokenDelimiters :
    parse ['n'] brokenDelimiters =
        Except.error ⟨['n'], ⟨2, ParseCause.unrecognizedTag⟩⟩ ∧
      exists row before late,
        Blames brokenDelimiters ParseCause.unrecognizedTag row before late ∧
          2 + Segment.overlooked Delimiters.initial row =
            1 + Text.lineBreaks before + late := by
  have hparse : parse ['n'] brokenDelimiters =
      Except.error ⟨['n'], ⟨2, ParseCause.unrecognizedTag⟩⟩ := by
    decide +kernel
  rcases parse_error_line hparse with ⟨row, before, late, hblames, hline, _⟩
  exact ⟨hparse, row, before, late, hblames, hline⟩

/-- The tag with the unknown mark starts on the third line, and its fault is reported on
the second. -/
theorem parse_error_line_overlooks :
    ¬ forall (name source : Text) (e : ParseError),
      parse name source = Except.error e ->
      forall row before late, Blames source e.fault.cause row before late ->
        e.fault.line = 1 + Text.lineBreaks before := by
  intro hcounted
  have hparse : parse ['n'] brokenDelimiters =
      Except.error ⟨['n'], ⟨2, ParseCause.unrecognizedTag⟩⟩ := by
    decide +kernel
  let changed : Machine :=
    ⟨⟨['\n'], ['|']⟩, 2, ['\n', '!', '|', '\n', '?'], Stack.empty⟩
  let stopped : Machine := ⟨⟨['\n'], ['|']⟩, 2, ['\n', '?'], Stack.empty⟩
  have hchange : (Machine.start brokenDelimiters).Step
      (Segment.tag Mark.delimiters ['\n', ' ', '|']) changed :=
    Machine.Step.delimiters ⟨rfl, Text.firstAt_of_head_not_mem (by decide) _ _⟩
      ⟨rfl, by decide, by decide, by decide, by decide⟩
  have hcomment : changed.Step (Segment.tag Mark.comment []) stopped :=
    Machine.Step.comment ⟨rfl, Text.firstAt_of_head_not_mem (by decide) _ _⟩
  have hstops : stopped.Stops (Except.error ⟨2, ParseCause.unrecognizedTag⟩) :=
    Machine.Stops.unrecognized rfl rfl
  have hreads := Machine.Reads.cons hchange hcomment.reads
  have hsource : brokenDelimiters = brokenDelimiters.take 11 ++ stopped.rest := rfl
  have hblames := Blames.next hreads hsource (by decide) hstops (by decide)
  have hline := hcounted ['n'] brokenDelimiters _ hparse _ _ _ hblames
  exact absurd hline (by decide)

end Template

end Stencil
