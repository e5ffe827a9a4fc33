import Stencil.Proofs.Template.Lines

/-!
# Segments by their numbers

## Which segment a fault is about

The stack of open blocks never computes with lines.  It only copies the line of a segment
to a block or to a fault, so a row is read alike whatever numbers are written to its
segments.  Here the segments of a row are counted, and the fault of a row is told by the
number of the segment it is about: a number that depends on the row alone, from which the
line follows when the lines of the segments are known.

A tag that is blamed for a fault is the tag with this number.
-/

namespace Stencil

/-!
## Other lines
-/

def Fault.relined (f : Nat -> Nat) (fault : Fault) : Fault :=
  { fault with line := f fault.line }

def LocatedSegment.relined (f : Nat -> Nat) (located : LocatedSegment) : LocatedSegment :=
  { located with line := f located.line }

namespace Nesting

def OpenBlock.relined (f : Nat -> Nat) (block : OpenBlock) : OpenBlock :=
  { block with opener := { block.opener with line := f block.opener.line } }

namespace Stack

/-- The stack with other lines for its open blocks. -/
def relined (f : Nat -> Nat) (stack : Stack) : Stack :=
  { stack with blocks := stack.blocks.map (OpenBlock.relined f) }

variable {f : Nat -> Nat} {stack next : Stack} {row : List LocatedSegment}
variable {scanFault : Option Fault} {nodes : List Node}

theorem close_relined (f : Nat -> Nat) (stack : Stack) (line : Nat) (name : Text) :
    (stack.relined f).close (f line) name =
      ((stack.close line name).map (relined f)).mapError (Fault.relined f) := by
  rcases stack with ⟨blocks, nodes⟩
  cases blocks with
  | nil => rfl
  | cons block outer =>
      unfold close relined
      rw [List.map_cons]
      dsimp only [OpenBlock.relined]
      split
      · rfl
      · rfl

theorem enter_relined (f : Nat -> Nat) (stack : Stack) (line : Nat) (kind : BlockKind)
    (name : Text) :
    (stack.relined f).enter (f line) kind name =
      ((stack.enter line kind name).map (relined f)).mapError (Fault.relined f) := by
  unfold enter
  have hlength : (stack.relined f).blocks.length = stack.blocks.length :=
    List.length_map _
  rw [hlength]
  split
  · rfl
  · rfl

theorem step_relined (f : Nat -> Nat) (stack : Stack) (located : LocatedSegment) :
    (stack.relined f).step (located.relined f) =
      ((stack.step located).map (relined f)).mapError (Fault.relined f) := by
  rcases located with ⟨line, segment⟩
  cases segment with
  | run s => rfl
  | tag mark body =>
      cases mark with
      | opening kind => exact enter_relined f stack line kind body
      | closing => exact close_relined f stack line body
      | print => rfl
      | embed => rfl
      | comment => rfl
      | delimiters => rfl

theorem line_of_step_error {located : LocatedSegment} {fault : Fault}
    (h : stack.step located = Except.error fault) : fault.line = located.line := by
  unfold step at h
  split at h
  case h_6 =>
    unfold close at h
    split at h
    · cases h
      rfl
    · split at h
      · cases h
      · cases h
        rfl
  case h_7 =>
    unfold enter at h
    split at h
    · cases h
    · cases h
      rfl
  all_goals cases h

theorem step_error_of_relined {located : LocatedSegment} {fault : Fault}
    (h : (stack.relined f).step (located.relined f) = Except.error fault) :
    stack.step located = Except.error ⟨located.line, fault.cause⟩ := by
  rw [step_relined] at h
  cases hstep : stack.step located with
  | ok next =>
      rw [hstep] at h
      cases h
  | error found =>
      rw [hstep] at h
      cases h
      rw [← line_of_step_error hstep]
      rfl

theorem stepAll_relined (f : Nat -> Nat) (stack : Stack) (row : List LocatedSegment) :
    (stack.relined f).stepAll (row.map (LocatedSegment.relined f)) =
      ((stack.stepAll row).map (relined f)).mapError (Fault.relined f) := by
  induction row generalizing stack with
  | nil => rfl
  | cons located row ih =>
      rw [List.map_cons, stepAll_cons, stepAll_cons, step_relined]
      cases stack.step located with
      | error fault => rfl
      | ok next => exact ih next

theorem run_relined (f : Nat -> Nat) (stack : Stack) (scanFault : Option Fault)
    (row : List LocatedSegment) :
    (stack.relined f).run (scanFault.map (Fault.relined f))
        (row.map (LocatedSegment.relined f)) =
      (stack.run scanFault row).mapError (Fault.relined f) := by
  rw [run, run, stepAll_relined]
  cases stack.stepAll row with
  | error fault => rfl
  | ok next =>
      rcases next with ⟨blocks, nodes⟩
      cases scanFault with
      | some fault => rfl
      | none =>
          cases blocks with
          | nil => rfl
          | cons block outer => rfl

theorem exists_of_stepAll_relined
    (h : (stack.relined f).stepAll (row.map (LocatedSegment.relined f)) = Except.ok next) :
    exists before, stack.stepAll row = Except.ok before ∧ before.relined f = next := by
  rw [stepAll_relined] at h
  cases hstep : stack.stepAll row with
  | error fault =>
      rw [hstep] at h
      cases h
  | ok before =>
      rw [hstep] at h
      exact ⟨before, rfl, Except.ok.inj h⟩

/-!
## Whole nodes leave the open blocks as they are
-/

theorem step_of_not_isShown {located : LocatedSegment}
    (h : located.segment.isShown = false) (stack : Stack) :
    stack.step located = Except.ok stack := by
  rcases located with ⟨line, segment⟩
  cases segment with
  | run s => cases h
  | tag mark body =>
      cases mark with
      | comment => rfl
      | delimiters => rfl
      | _ => cases h

theorem stepAll_filter_isShown (stack : Stack) (row : List LocatedSegment) :
    stack.stepAll (row.filter fun located => located.segment.isShown) =
      stack.stepAll row := by
  induction row generalizing stack with
  | nil => rfl
  | cons located row ih =>
      cases hshown : located.segment.isShown with
      | false =>
          rw [List.filter_cons_of_neg (by simp [hshown]), stepAll_cons,
            step_of_not_isShown hshown]
          exact ih stack
      | true =>
          rw [List.filter_cons_of_pos (by simp [hshown]), stepAll_cons, stepAll_cons]
          exact congrArg _ (funext ih)

theorem exists_of_stepAll_append {others : List LocatedSegment}
    (h : stack.stepAll (row ++ others) = Except.ok next) :
    exists middle, stack.stepAll row = Except.ok middle ∧
      middle.stepAll others = Except.ok next := by
  rw [stepAll_append] at h
  cases hrow : stack.stepAll row with
  | error fault =>
      rw [hrow] at h
      cases h
  | ok middle =>
      rw [hrow] at h
      exact ⟨middle, rfl, h⟩

theorem exists_of_stepAll_cons {located : LocatedSegment}
    (h : stack.stepAll (located :: row) = Except.ok next) :
    exists middle, stack.step located = Except.ok middle ∧
      middle.stepAll row = Except.ok next := by
  rw [stepAll_cons] at h
  cases hstep : stack.step located with
  | error fault =>
      rw [hstep] at h
      cases h
  | ok middle =>
      rw [hstep] at h
      exact ⟨middle, rfl, h⟩

theorem stepAll_singleton (stack : Stack) (located : LocatedSegment) :
    stack.stepAll [located] = stack.step located := by
  rw [stepAll_cons]
  cases stack.step located with
  | error fault => rfl
  | ok next => rfl

theorem step_opening_eq_ok {line : Nat} {kind : BlockKind} {name : Text}
    (h : stack.step ⟨line, Segment.tag (Mark.opening kind) name⟩ = Except.ok next) :
    next = stack.push line kind name := by
  unfold step enter at h
  dsimp only at h
  split at h
  · exact (Except.ok.inj h).symm
  · cases h

theorem step_closing_eq_ok {line : Nat} {name : Text}
    (h : stack.step ⟨line, Segment.tag Mark.closing name⟩ = Except.ok next) :
    next.blocks = stack.blocks.tail := by
  rcases stack with ⟨blocks, nodes⟩
  unfold step close at h
  cases blocks with
  | nil => cases h
  | cons block outer =>
      dsimp only at h
      split at h
      · cases h
        rfl
      · cases h

mutual

theorem blocks_of_bracketing : forall (node : Node) {stack next : Stack}
    {row : List LocatedSegment}, stack.stepAll row = Except.ok next ->
    row.map LocatedSegment.segment = Node.bracketing node -> next.blocks = stack.blocks
  | Node.text s, stack, next, row, h, hrow => by
      rcases List.map_eq_singleton_iff.mp hrow with ⟨⟨line, segment⟩, rfl, hsegment⟩
      cases hsegment
      cases h
      rfl
  | Node.print name, stack, next, row, h, hrow => by
      rcases List.map_eq_singleton_iff.mp hrow with ⟨⟨line, segment⟩, rfl, hsegment⟩
      cases hsegment
      cases h
      rfl
  | Node.embed name, stack, next, row, h, hrow => by
      rcases List.map_eq_singleton_iff.mp hrow with ⟨⟨line, segment⟩, rfl, hsegment⟩
      cases hsegment
      cases h
      rfl
  | Node.block kind name children, stack, next, row, h, hrow => by
      rcases List.map_eq_cons_iff.mp hrow with ⟨⟨line, opening⟩, others, rfl, hopening, hothers⟩
      rcases List.map_eq_append_iff.mp hothers with ⟨inside, last, rfl, hinside, hlast⟩
      rcases List.map_eq_singleton_iff.mp hlast with ⟨⟨lastLine, closing⟩, rfl, hclosing⟩
      cases hopening
      cases hclosing
      rcases exists_of_stepAll_cons h with ⟨opened, hopened, hbehind⟩
      rcases exists_of_stepAll_append hbehind with ⟨middle, hmiddle, hnext⟩
      rw [stepAll_singleton] at hnext
      rw [step_closing_eq_ok hnext, blocks_of_bracketingAll children hmiddle hinside,
        step_opening_eq_ok hopened]
      rfl

theorem blocks_of_bracketingAll : forall (nodes : List Node) {stack next : Stack}
    {row : List LocatedSegment}, stack.stepAll row = Except.ok next ->
    row.map LocatedSegment.segment = Node.bracketingAll nodes -> next.blocks = stack.blocks
  | [], stack, next, row, h, hrow => by
      rw [List.map_eq_nil_iff.mp hrow] at h
      cases h
      rfl
  | node :: rest, stack, next, row, h, hrow => by
      rcases List.map_eq_append_iff.mp hrow with ⟨first, others, rfl, hfirst, hothers⟩
      rcases exists_of_stepAll_append h with ⟨middle, hmiddle, hnext⟩
      rw [blocks_of_bracketingAll rest hnext hothers, blocks_of_bracketing node hmiddle hfirst]

end

theorem blocks_of_whole (h : stack.stepAll row = Except.ok next)
    (hshown : (row.map LocatedSegment.segment).filter Segment.isShown =
      Node.bracketingAll nodes) : next.blocks = stack.blocks := by
  rw [← stepAll_filter_isShown] at h
  rw [List.filter_map] at hshown
  exact blocks_of_bracketingAll nodes h hshown

end Stack

end Nesting

/-!
## Numbers in place of lines
-/

namespace Segment

/-- Segments with their numbers, counted from `first`, in place of lines. -/
def number (first : Nat) : List Segment -> List LocatedSegment
  | [] => []
  | segment :: row => ⟨first, segment⟩ :: number (first + 1) row

theorem number_append (first : Nat) (row others : List Segment) :
    number first (row ++ others) =
      number first row ++ number (first + row.length) others := by
  induction row generalizing first with
  | nil => rfl
  | cons segment row ih =>
      rw [List.cons_append, number, number, ih, List.cons_append, List.length_cons,
        Nat.add_right_comm, Nat.add_assoc]

theorem map_segment_number (first : Nat) (row : List Segment) :
    (number first row).map LocatedSegment.segment = row := by
  induction row generalizing first with
  | nil => rfl
  | cons segment row ih => rw [number, List.map_cons, ih]

theorem map_segment_locate (line : Nat) (row : List Segment) :
    (locate line row).map LocatedSegment.segment = row := by
  induction row generalizing line with
  | nil => rfl
  | cons segment row ih => rw [locate, List.map_cons, ih]

theorem length_locate (line : Nat) (row : List Segment) :
    (locate line row).length = row.length := by
  rw [← List.length_map, map_segment_locate]

/-- What the reading of a row comes to, when the scan ends behind it with a cause or
without one.  A fault is told with the number of the segment it is about. -/
def outcome (row : List Segment) (scanCause : Option ParseCause) :
    Except Fault (List Node) :=
  Nesting.Stack.empty.run (scanCause.map fun cause => ⟨row.length, cause⟩) (number 0 row)

def outcomeOf (source : Text) : Except Fault (List Node) :=
  outcome ((Scanner.start source).segments.1.map LocatedSegment.segment)
    ((Scanner.start source).segments.2.map Fault.cause)

end Segment

namespace LocatedSegment

/-- The line of the segment with a number, and behind the row the line `last`. -/
def lineAt (row : List LocatedSegment) (last number : Nat) : Nat :=
  (row[number]?.map line).getD last

theorem lineAt_length (row : List LocatedSegment) (last : Nat) :
    lineAt row last row.length = last := by
  rw [lineAt, List.getElem?_eq_none (Nat.le_refl _)]
  rfl

theorem map_relined_number_of_lines {f : Nat -> Nat} {row : List LocatedSegment}
    {first : Nat} (h : forall i located, row[i]? = some located -> f (first + i) = located.line) :
    (Segment.number first (row.map segment)).map (relined f) = row := by
  induction row generalizing first with
  | nil => rfl
  | cons located row ih =>
      have hrest : forall i located, row[i]? = some located ->
          f (first + 1 + i) = located.line := by
        intro i located hi
        rw [Nat.add_assoc, Nat.add_comm 1 i]
        exact h (i + 1) located hi
      rw [List.map_cons, Segment.number, List.map_cons, ih hrest, relined]
      exact congrArg (fun line => LocatedSegment.mk line located.segment :: row) (h 0 located rfl)

theorem map_relined_number (row : List LocatedSegment) (last : Nat) :
    (Segment.number 0 (row.map segment)).map (relined (lineAt row last)) = row := by
  apply map_relined_number_of_lines
  intro i located hi
  rw [Nat.zero_add, lineAt, hi]
  rfl

end LocatedSegment

namespace Nesting

namespace Stack

open LocatedSegment

theorem run_eq_outcome {scanFault : Option Fault} {last : Nat}
    (hlast : forall fault, scanFault = some fault -> fault.line = last)
    (row : List LocatedSegment) :
    empty.run scanFault row =
      (Segment.outcome (row.map segment) (scanFault.map Fault.cause)).mapError
        (Fault.relined (lineAt row last)) := by
  have hscan : ((scanFault.map Fault.cause).map fun cause =>
      Fault.mk (row.map segment).length cause).map (Fault.relined (lineAt row last)) =
        scanFault := by
    cases scanFault with
    | none => rfl
    | some fault =>
        rw [List.length_map]
        show some (Fault.mk (lineAt row last row.length) fault.cause) = some fault
        rw [lineAt_length, ← hlast fault rfl]
  have hrun := run_relined (lineAt row last) empty
    ((scanFault.map Fault.cause).map fun cause => ⟨(row.map segment).length, cause⟩)
    (Segment.number 0 (row.map segment))
  rw [hscan, map_relined_number] at hrun
  exact hrun

end Stack

end Nesting

/-!
## The tag that is blamed
-/

namespace Nesting

namespace Machine

open LocatedSegment

variable {m last : Machine} {row : List Segment} {source : Text} {fault : Fault}

theorem Reads.stepAll_eq (h : m.Reads row last) :
    m.stack.stepAll (Segment.locate m.line row) = Except.ok last.stack := by
  induction h with
  | nil => rfl
  | cons hstep _ ih =>
      rw [Segment.locate, Stack.stepAll_cons, hstep.stack_eq, ← hstep.line_eq]
      exact ih

theorem Reads.segments_eq (h : m.Reads row last) :
    m.scanner.segments =
      (Segment.locate m.line row ++ last.scanner.segments.1, last.scanner.segments.2) := by
  have hsegments := Scanner.segments_of_cutOffAll h.cutOffAll m.line
  rw [← h.line_eq] at hsegments
  exact hsegments

theorem Reads.exists_numbered (h : (start source).Reads row m) (next : Nat) :
    exists stack, Stack.empty.stepAll (Segment.number 0 row) = Except.ok stack ∧
      stack.relined (lineAt (Segment.locate 1 row) next) = m.stack := by
  have hlines := map_relined_number (Segment.locate 1 row) next
  rw [Segment.map_segment_locate] at hlines
  apply Stack.exists_of_stepAll_relined
  rw [hlines]
  exact h.stepAll_eq

/-- What the whole source comes to, from a place that the machine reaches. -/
theorem Reads.outcome_eq (h : (start source).Reads row m) :
    Segment.outcomeOf source =
      Segment.outcome (row ++ m.scanner.segments.1.map segment)
        (m.scanner.segments.2.map Fault.cause) := by
  have hsegments : (Scanner.start source).segments =
      (Segment.locate 1 row ++ m.scanner.segments.1, m.scanner.segments.2) :=
    h.segments_eq
  rw [Segment.outcomeOf, hsegments, List.map_append, Segment.map_segment_locate]

theorem outcome_of_stops (hreads : (start source).Reads row m) (hne : m.rest ≠ [])
    (hstops : m.Stops (Except.error fault)) :
    Segment.outcome (row ++ m.scanner.segments.1.map segment)
      (m.scanner.segments.2.map Fault.cause) = Except.error ⟨row.length, fault.cause⟩ := by
  rcases hreads.exists_numbered m.line with ⟨stack, hstack, hlines⟩
  rcases hstops.at_end_or_tag with
    ⟨hnil, _⟩ | ⟨_, heq, _, hcut | ⟨mark, body, rest, htag, hmark, hstep⟩⟩
  · exact absurd hnil hne
  · cases heq
    rw [Scanner.segments_of_cut_error hne hcut, List.map_nil, List.append_nil,
      Segment.outcome, Stack.run, hstack]
    rfl
  · cases heq
    have hcutOff := htag.cutOff hmark
    have hcut := Scanner.cut_of_cutOff hcutOff m.line
    -- The number of the tag stands for its line.
    have hline : lineAt (Segment.locate 1 row) m.line row.length = m.line := by
      rw [← Segment.length_locate 1 row, lineAt_length]
    have hnumbered : stack.step ⟨row.length, Segment.tag mark body⟩ =
        Except.error ⟨row.length, fault.cause⟩ := by
      apply Stack.step_error_of_relined (f := lineAt (Segment.locate 1 row) m.line)
      rw [hlines, LocatedSegment.relined, hline]
      exact hstep
    rw [scanner, Scanner.segments_of_cut hcutOff.source_ne_nil hcut, List.map_cons,
      Segment.outcome, Segment.number_append, Nat.zero_add, Segment.number,
      Stack.run_append_of_ok hstack]
    exact Stack.run_cons_of_error hnumbered

theorem outcome_of_unclosed {inner : Machine} {inside : List Segment}
    {kind : BlockKind} {name : Text} {nodes : List Node}
    (hreads : (start source).Reads row m)
    (hopening : m.Step (Segment.tag (Mark.opening kind) name) inner)
    (hinside : inner.Reads inside last) (hrest : last.rest = [])
    (hshown : inside.filter Segment.isShown = Node.bracketingAll nodes) :
    Segment.outcome (row ++ m.scanner.segments.1.map segment)
        (m.scanner.segments.2.map Fault.cause) =
      Except.error ⟨row.length, ParseCause.unclosedScope name⟩ := by
  have hbehind : m.Reads (Segment.tag (Mark.opening kind) name :: inside) last :=
    Reads.cons hopening hinside
  rcases (hreads.trans hbehind).exists_numbered last.line with ⟨stack, hstack, _⟩
  rw [Segment.number_append, Nat.zero_add, Segment.number] at hstack
  rcases Stack.exists_of_stepAll_append hstack with ⟨outer, houter, hopened⟩
  rcases Stack.exists_of_stepAll_cons hopened with ⟨opened, hstep, hlast⟩
  have hblocks : stack.blocks = opened.blocks := by
    apply Stack.blocks_of_whole hlast
    rw [Segment.map_segment_number]
    exact hshown
  rw [hbehind.segments_eq, Scanner.segments_of_rest_nil (s := last.scanner) hrest,
    List.append_nil, Segment.map_segment_locate, Segment.outcome, Segment.number_append,
    Nat.zero_add, Segment.number, Stack.run, hstack]
  rw [Stack.step_opening_eq_ok hstep] at hblocks
  show Stack.finish none stack = _
  simp only [Stack.finish, hblocks, Stack.push]

end Machine

end Nesting

namespace Template

open Nesting

variable {source before : Text} {cause : ParseCause} {row : List Segment} {late : Nat}

theorem Blames.outcome_eq (h : Blames source cause row before late) :
    Segment.outcomeOf source = Except.error ⟨row.length, cause⟩ := by
  cases h with
  | next hreads _ hne hstops _ =>
      rw [hreads.outcome_eq]
      exact Machine.outcome_of_stops hreads hne hstops
  | malformed hreads _ htag hnot =>
      rw [hreads.outcome_eq]
      exact Machine.outcome_of_stops hreads (by simp [htag.spelled])
        (Machine.Stops.malformed htag hnot)
  | unclosed hreads _ hopening hinside hrest hshown =>
      rw [hreads.outcome_eq]
      exact Machine.outcome_of_unclosed hreads hopening hinside hrest hshown

theorem Blames.exists_cutOffAll (h : Blames source cause row before late) :
    exists d rest, source = before ++ rest ∧
      Segment.CutOffAll Delimiters.initial row d rest source := by
  cases h with
  | next hreads hsource _ _ _ => exact ⟨_, _, hsource, hreads.cutOffAll⟩
  | malformed hreads hsource _ _ => exact ⟨_, _, hsource, hreads.cutOffAll⟩
  | unclosed hreads hsource _ _ _ _ => exact ⟨_, _, hsource, hreads.cutOffAll⟩

end Template

end Stencil
