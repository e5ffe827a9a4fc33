import Stencil.Proofs.Template.Cutting
import Stencil.Proofs.Template.Stack

/-!
# A machine that reads templates

## One loop with a stack

A template can be read without recursion.  The machine of this module stands at a
place in a source and keeps the blocks that are open there on a stack.  It goes from
segment to segment; its rules say what each segment does to the stack, and with
which fault or which nodes the machine stops.  They speak of the source itself, of
the delimiter that comes next and of first occurrences, and not of the scanner.

The machine stops on every source, with a single outcome, and parsing reports just
this outcome.
-/

namespace Stencil

namespace Nesting

structure Machine where
  delimiters : Delimiters
  line : Nat
  rest : Text
  stack : Stack

namespace Machine

def start (source : Text) : Machine :=
  ⟨Delimiters.initial, 1, source, Stack.empty⟩

/-- The machine behind a segment, with another stack.  The line breaks of the content
of the segment are counted. -/
def pass (m : Machine) (content rest : Text) (stack : Stack) : Machine :=
  ⟨m.delimiters, m.line + Text.lineBreaks content, rest, stack⟩

def scanner (m : Machine) : Scanner :=
  ⟨m.delimiters, m.line, m.rest⟩

structure AtTag (m : Machine) (mark : Mark) (body rest : Text) : Prop where
  spelled : m.rest =
    m.delimiters.left ++ mark.toChar :: (body ++ (m.delimiters.right ++ rest))
  first : Text.FirstAt m.delimiters.right body (m.delimiters.right ++ rest)

inductive Step (m : Machine) : Segment -> Machine -> Prop where
  | run {s rest : Text} :
      m.rest = s ++ rest ->
      s ≠ [] ->
      Text.ExtendsTo m.delimiters.left s rest ->
      Step m (Segment.run s) (m.pass s rest (m.stack.addNodes [Node.text s]))
  | print {name rest : Text} :
      m.AtTag Mark.print name rest ->
      Step m (Segment.tag Mark.print name)
        (m.pass name rest (m.stack.addNodes [Node.print name]))
  | embed {name rest : Text} :
      m.AtTag Mark.embed name rest ->
      Step m (Segment.tag Mark.embed name)
        (m.pass name rest (m.stack.addNodes [Node.embed name]))
  | comment {body rest : Text} :
      m.AtTag Mark.comment body rest ->
      Step m (Segment.tag Mark.comment body) (m.pass body rest m.stack)
  | delimiters {d : Delimiters} {body rest : Text} :
      m.AtTag Mark.delimiters body rest ->
      d.NamedBy body ->
      Step m (Segment.tag Mark.delimiters body)
        { m.pass body rest m.stack with delimiters := d }
  | opening {kind : BlockKind} {name rest : Text} :
      m.AtTag (Mark.opening kind) name rest ->
      m.stack.blocks.length < blockDepthLimit ->
      Step m (Segment.tag (Mark.opening kind) name)
        (m.pass name rest (m.stack.push m.line kind name))
  | closing {block : OpenBlock} {outer : List OpenBlock} {name rest : Text} :
      m.AtTag Mark.closing name rest ->
      m.stack.blocks = block :: outer ->
      block.opener.name = name ->
      Step m (Segment.tag Mark.closing name)
        (m.pass name rest (m.stack.pop block outer))

/-- The machine does not go on.  Every fault but an unclosed block is about the tag
that comes next. -/
inductive Stops (m : Machine) : Except Fault (List Node) -> Prop where
  | bareDelimiter :
      m.rest ≠ [] ->
      m.rest = m.delimiters.left ->
      Stops m (Except.error ⟨m.line, ParseCause.incompleteTag⟩)
  | unrecognized {c : Char} {rest : Text} :
      m.rest = m.delimiters.left ++ c :: rest ->
      Mark.ofChar? c = none ->
      Stops m (Except.error ⟨m.line, ParseCause.unrecognizedTag⟩)
  | unended {mark : Mark} {rest : Text} :
      m.rest = m.delimiters.left ++ mark.toChar :: rest ->
      ¬ m.delimiters.right <:+: rest ->
      Stops m (Except.error ⟨m.line, ParseCause.incompleteTag⟩)
  | malformed {body rest : Text} :
      m.AtTag Mark.delimiters body rest ->
      (forall d : Delimiters, ¬ d.NamedBy body) ->
      Stops m
        (Except.error ⟨m.line + Text.lineBreaks body, ParseCause.malformedTag⟩)
  | tooDeep {kind : BlockKind} {name rest : Text} :
      m.AtTag (Mark.opening kind) name rest ->
      blockDepthLimit ≤ m.stack.blocks.length ->
      Stops m (Except.error ⟨m.line, ParseCause.depthLimitExceeded⟩)
  | unopened {name rest : Text} :
      m.AtTag Mark.closing name rest ->
      m.stack.blocks = [] ->
      Stops m (Except.error ⟨m.line, ParseCause.unopenedScope name⟩)
  | unmatched {block : OpenBlock} {outer : List OpenBlock} {name rest : Text} :
      m.AtTag Mark.closing name rest ->
      m.stack.blocks = block :: outer ->
      block.opener.name ≠ name ->
      Stops m
        (Except.error ⟨m.line, ParseCause.unmatchedTag name block.opener.name⟩)
  | unclosed {block : OpenBlock} {outer : List OpenBlock} :
      m.rest = [] ->
      m.stack.blocks = block :: outer ->
      Stops m (Except.error
        ⟨block.opener.line, ParseCause.unclosedScope block.opener.name⟩)
  | finished :
      m.rest = [] ->
      m.stack.blocks = [] ->
      Stops m (Except.ok m.stack.nodes)

inductive Runs : Machine -> Except Fault (List Node) -> Prop where
  | stop {m : Machine} {outcome : Except Fault (List Node)} :
      m.Stops outcome ->
      Runs m outcome
  | step {m next : Machine} {segment : Segment} {outcome : Except Fault (List Node)} :
      m.Step segment next ->
      Runs next outcome ->
      Runs m outcome

/-!
## The rules and the reading of segments

A step cuts off a segment that the grammar allows and reads it onto the stack, and the
machine stops where one of the two is not possible.
-/

variable {m next : Machine} {segment : Segment} {outcome : Except Fault (List Node)}
variable {mark : Mark} {body rest : Text} {fault : Fault}

theorem AtTag.cutOff (h : m.AtTag mark body rest) (hmark : mark ≠ Mark.delimiters) :
    Segment.CutOff m.delimiters (Segment.tag mark body) m.delimiters rest m.rest := by
  rw [h.spelled]
  exact Segment.CutOff.tag hmark h.first

theorem Step.cutOff (h : m.Step segment next) :
    Segment.CutOff m.delimiters segment next.delimiters next.rest m.rest := by
  cases h with
  | run hrest hne hextends =>
      rw [hrest]
      exact Segment.CutOff.run hne hextends
  | print htag => exact htag.cutOff (by simp)
  | embed htag => exact htag.cutOff (by simp)
  | comment htag => exact htag.cutOff (by simp)
  | delimiters htag hnamed =>
      rw [htag.spelled]
      exact Segment.CutOff.change hnamed htag.first
  | opening htag _ => exact htag.cutOff (by simp)
  | closing htag _ _ => exact htag.cutOff (by simp)

theorem Step.line_eq (h : m.Step segment next) :
    next.line = m.line + Text.lineBreaks segment.content := by
  cases h with
  | run _ _ _ => rfl
  | print _ => rfl
  | embed _ => rfl
  | comment _ => rfl
  | delimiters _ _ => rfl
  | opening _ _ => rfl
  | closing _ _ _ => rfl

theorem Step.stack_eq (h : m.Step segment next) :
    m.stack.step ⟨m.line, segment⟩ = Except.ok next.stack := by
  cases h with
  | run _ _ _ => rfl
  | print _ => rfl
  | embed _ => rfl
  | comment _ => rfl
  | delimiters _ _ => rfl
  | opening _ hlt => exact Stack.step_opening hlt _ _ _
  | closing _ hblocks hname =>
      rcases m with ⟨d, line, rest, ⟨blocks, nodes⟩⟩
      dsimp only at hblocks
      subst hblocks
      exact Stack.step_closing hname

theorem Step.shortens (h : m.Step segment next) :
    next.rest.length < m.rest.length :=
  Scanner.cut_shortens (s := m.scanner) h.cutOff.source_ne_nil
    (Scanner.cut_of_cutOff h.cutOff m.line)

theorem exists_step_or_stops_of_cutOff {d : Delimiters}
    (hcut : Segment.CutOff m.delimiters segment d rest m.rest) :
    (exists next, m.Step segment next) ∨ exists outcome, m.Stops outcome := by
  generalize hsource : m.rest = source at hcut
  cases hcut with
  | run hne hextends => exact Or.inl ⟨_, Step.run hsource hne hextends⟩
  | @tag mark body _ hmark hbody =>
      have htag : m.AtTag mark body rest := ⟨hsource, hbody⟩
      cases mark with
      | print => exact Or.inl ⟨_, Step.print htag⟩
      | embed => exact Or.inl ⟨_, Step.embed htag⟩
      | comment => exact Or.inl ⟨_, Step.comment htag⟩
      | delimiters => exact absurd rfl hmark
      | opening kind =>
          rcases Nat.lt_or_ge m.stack.blocks.length blockDepthLimit with hlt | hge
          · exact Or.inl ⟨_, Step.opening htag hlt⟩
          · exact Or.inr ⟨_, Stops.tooDeep htag hge⟩
      | closing =>
          cases hblocks : m.stack.blocks with
          | nil => exact Or.inr ⟨_, Stops.unopened htag hblocks⟩
          | cons block outer =>
              by_cases hname : block.opener.name = body
              · exact Or.inl ⟨_, Step.closing htag hblocks hname⟩
              · exact Or.inr ⟨_, Stops.unmatched htag hblocks hname⟩
  | change hnamed hbody => exact Or.inl ⟨_, Step.delimiters ⟨hsource, hbody⟩ hnamed⟩

theorem stops_of_tagFault {inside : Text} (hne : m.rest ≠ [])
    (hrest : m.rest = m.delimiters.left ++ inside)
    (h : Scanner.TagFault m.delimiters m.line inside fault) :
    m.Stops (Except.error fault) := by
  cases h with
  | unrecognized hinside hmark =>
      subst hinside
      exact Stops.unrecognized hrest hmark
  | malformed hinside hcut hnames =>
      subst hinside
      rcases Text.cutAround?_eq_some_iff.mp hcut with ⟨rfl, hbody⟩
      refine Stops.malformed ⟨hrest, hbody⟩ ?_
      intro d hnamed
      rw [Delimiters.ofBody?_eq_some_iff.mpr hnamed] at hnames
      cases hnames
  | unmarked hinside =>
      subst hinside
      exact Stops.bareDelimiter hne (by rw [hrest, List.append_nil])
  | unended hinside hcut =>
      subst hinside
      exact Stops.unended hrest (Text.cutAround?_eq_none_iff.mp hcut)

/-- The machine never gets stuck. -/
theorem exists_step_or_stops (m : Machine) :
    (exists segment next, m.Step segment next) ∨ exists outcome, m.Stops outcome := by
  by_cases hrest : m.rest = []
  · apply Or.inr
    cases hblocks : m.stack.blocks with
    | nil => exact ⟨_, Stops.finished hrest hblocks⟩
    | cons block outer => exact ⟨_, Stops.unclosed hrest hblocks⟩
  · rcases hcut : m.scanner.cut with ⟨result, after⟩
    cases result with
    | error fault =>
        rcases Scanner.cut_error_iff.mp (congrArg Prod.fst hcut) with
          ⟨inside, hinside, hfault⟩
        exact Or.inr ⟨_, stops_of_tagFault hrest hinside hfault⟩
    | ok located =>
        have hcutOff := Scanner.cutOff_of_cut hrest hcut
        exact (exists_step_or_stops_of_cutOff hcutOff).imp_left fun h => ⟨_, h⟩

theorem exists_runs (m : Machine) : exists outcome, Runs m outcome := by
  induction hlength : m.rest.length using Nat.strongRecOn generalizing m with
  | ind length ih =>
      subst hlength
      rcases m.exists_step_or_stops with ⟨segment, next, hstep⟩ | ⟨outcome, hstops⟩
      · rcases ih next.rest.length hstep.shortens next rfl with ⟨outcome, hruns⟩
        exact ⟨outcome, Runs.step hstep hruns⟩
      · exact ⟨outcome, Runs.stop hstops⟩

/-!
## The outcome

What the stack makes of the segments behind the machine does not change from step to
step, and it is what the machine stops with.
-/

def verdict (m : Machine) : Except Fault (List Node) :=
  m.stack.run m.scanner.segments.2 m.scanner.segments.1

theorem verdict_of_step (h : m.Step segment next) : m.verdict = next.verdict := by
  have hcut : m.scanner.cut = (Except.ok ⟨m.line, segment⟩, next.scanner) := by
    rw [scanner, scanner, h.line_eq]
    exact Scanner.cut_of_cutOff h.cutOff m.line
  rw [verdict, Scanner.segments_of_cut h.cutOff.source_ne_nil hcut]
  exact Stack.run_cons_of_ok h.stack_eq

theorem verdict_of_stack_error (htag : m.AtTag mark body rest)
    (hmark : mark ≠ Mark.delimiters)
    (h : m.stack.step ⟨m.line, Segment.tag mark body⟩ = Except.error fault) :
    m.verdict = Except.error fault := by
  have hcutOff := htag.cutOff hmark
  have hcut := Scanner.cut_of_cutOff hcutOff m.line
  rw [verdict, scanner, Scanner.segments_of_cut hcutOff.source_ne_nil hcut]
  exact Stack.run_cons_of_error h

theorem verdict_of_rest_nil (h : m.rest = []) :
    m.verdict = Stack.finish none m.stack := by
  rw [verdict, Scanner.segments_of_rest_nil (s := m.scanner) h]
  rfl

theorem Stops.at_end_or_tag (h : m.Stops outcome) :
    (m.rest = [] ∧ Stack.finish none m.stack = outcome) ∨
      exists fault, outcome = Except.error fault ∧ m.rest ≠ [] ∧
        (m.scanner.cut.1 = Except.error fault ∨
          exists mark body rest, m.AtTag mark body rest ∧ mark ≠ Mark.delimiters ∧
            m.stack.step ⟨m.line, Segment.tag mark body⟩ = Except.error fault) := by
  cases h with
  | bareDelimiter hne hrest =>
      rw [← List.append_nil m.delimiters.left] at hrest
      exact Or.inr ⟨_, rfl, hne, Or.inl (Scanner.cut_error_iff.mpr
        ⟨[], hrest, Scanner.TagFault.unmarked rfl⟩)⟩
  | unrecognized hrest hmark =>
      exact Or.inr ⟨_, rfl, by simp [hrest], Or.inl (Scanner.cut_error_iff.mpr
        ⟨_, hrest, Scanner.TagFault.unrecognized rfl hmark⟩)⟩
  | unended hrest hnot =>
      exact Or.inr ⟨_, rfl, by simp [hrest], Or.inl (Scanner.cut_error_iff.mpr
        ⟨_, hrest, Scanner.TagFault.unended rfl (Text.cutAround?_eq_none_iff.mpr hnot)⟩)⟩
  | malformed htag hnot =>
      have hcut := Text.cutAround?_eq_some_iff.mpr ⟨rfl, htag.first⟩
      have hnames := Option.eq_none_iff_forall_ne_some.mpr fun d hnames =>
        hnot d (Delimiters.ofBody?_eq_some_iff.mp hnames)
      exact Or.inr ⟨_, rfl, by simp [htag.spelled], Or.inl (Scanner.cut_error_iff.mpr
        ⟨_, htag.spelled, Scanner.TagFault.malformed rfl hcut hnames⟩)⟩
  | tooDeep htag hge =>
      exact Or.inr ⟨_, rfl, by simp [htag.spelled], Or.inr ⟨_, _, _, htag, by simp,
        if_neg (Nat.not_lt.mpr hge)⟩⟩
  | unopened htag hblocks =>
      exact Or.inr ⟨_, rfl, by simp [htag.spelled], Or.inr ⟨_, _, _, htag, by simp,
        by simp only [Stack.step, Stack.close, hblocks]⟩⟩
  | unmatched htag hblocks hname =>
      exact Or.inr ⟨_, rfl, by simp [htag.spelled], Or.inr ⟨_, _, _, htag, by simp,
        by simp only [Stack.step, Stack.close, hblocks, if_neg hname]⟩⟩
  | unclosed hrest hblocks => exact Or.inl ⟨hrest, by simp only [Stack.finish, hblocks]⟩
  | finished hrest hblocks => exact Or.inl ⟨hrest, by simp only [Stack.finish, hblocks]⟩

theorem verdict_of_stops (h : m.Stops outcome) : m.verdict = outcome := by
  rcases h.at_end_or_tag with
    ⟨hrest, rfl⟩ | ⟨fault, rfl, hne, hcut | ⟨mark, body, rest, htag, hmark, hstep⟩⟩
  · exact verdict_of_rest_nil hrest
  · rw [verdict, Scanner.segments_of_cut_error hne hcut]
    rfl
  · exact verdict_of_stack_error htag hmark hstep

theorem verdict_of_runs (h : Runs m outcome) : m.verdict = outcome := by
  induction h with
  | stop hstops => exact verdict_of_stops hstops
  | step hstep _ ih => rw [verdict_of_step hstep, ih]

theorem runs_iff : Runs m outcome ↔ m.verdict = outcome := by
  constructor
  · intro h
    exact verdict_of_runs h
  · intro h
    rcases m.exists_runs with ⟨found, hruns⟩
    rw [← h, verdict_of_runs hruns]
    exact hruns

end Machine

end Nesting

theorem Node.ofSource?_eq_verdict (source : Text) :
    ofSource? source = (Nesting.Machine.start source).verdict :=
  ofSource?_eq_run source

namespace Template

def ofOutcome (name : Text) :
    Except Fault (List Node) -> Except ParseError Template
  | Except.error fault => Except.error ⟨name, fault⟩
  | Except.ok nodes => Except.ok ⟨name, nodes⟩

/-- The machine stops on every source with exactly one outcome, a tree or a fault, and
parsing returns this outcome under the name of the template. -/
theorem parse_eq_machine_outcome (name source : Text) :
    exists outcome,
      (forall other,
        Nesting.Machine.Runs (Nesting.Machine.start source) other ↔ other = outcome) ∧
      parse name source = ofOutcome name outcome := by
  exists Node.ofSource? source
  constructor
  · intro other
    rw [Nesting.Machine.runs_iff, Node.ofSource?_eq_verdict]
    exact eq_comm
  · cases hsource : Node.ofSource? source with
    | error fault => simp only [parse, hsource, ofOutcome]
    | ok nodes => simp only [parse, hsource, ofOutcome]

end Template

end Stencil
