import Stencil.Proofs.Template.Extension
import Stencil.Proofs.Template.Shift

/-!
# One source behind another

## Two templates in a row

The tags of a template close all of its blocks, and a tag keeps its place whatever
comes behind it.  So a source that ends with a tag, and with the delimiters with which
it began, leaves nothing behind but the lines it has counted: a second source behind
it is read as it would be on its own, only further down.
-/

namespace Stencil

/-!
## Behind a last tag
-/

namespace Segment

variable {d d' : Delimiters} {row : List Segment} {mark : Mark} {body source : Text}

/-- Only a run at the end of a source can change when more is appended. -/
theorem CutOffAll.append_of_tag (hd : d.Proper)
    (h : CutOffAll d (row ++ [tag mark body]) d' [] source) (more : Text) :
    CutOffAll d (row ++ [tag mark body]) d' more (source ++ more) := by
  rcases h.exists_settled hd with ⟨settled, last, hsettled⟩
  have happend := hsettled.append more
  rcases hsettled.row_eq with ⟨rfl, rfl⟩ | ⟨hrow, _⟩
  · exact happend
  · cases List.append_inj_right' hrow rfl

end Segment

/-!
## Behind closed blocks
-/

namespace Nesting

namespace Stack

variable {stack : Stack} {row : List LocatedSegment} {nodes : List Node}

theorem stepAll_of_run_eq_ok (h : stack.run none row = Except.ok nodes) :
    stack.stepAll row = Except.ok ⟨[], nodes⟩ := by
  unfold run at h
  cases hstep : stack.stepAll row with
  | error fault =>
      rw [hstep] at h
      cases h
  | ok next =>
      rw [hstep] at h
      rcases next with ⟨blocks, inside⟩
      cases blocks with
      | nil =>
          cases h
          rfl
      | cons block outer => cases h

theorem run_behind (nodes : List Node) (scanFault : Option Fault)
    (row : List LocatedSegment) :
    run ⟨[], nodes⟩ scanFault row = (empty.run scanFault row).map (nodes ++ ·) := by
  rw [run_eq_read scanFault none 0 row ⟨[], nodes⟩ rfl rfl,
    run_eq_read scanFault none 0 row empty rfl rfl]
  cases read scanFault none 0 row with
  | error fault => rfl
  | ok parsed => rfl

theorem run_later (lines : Nat) (scanFault : Option Fault)
    (row : List LocatedSegment) :
    empty.run (scanFault.map (Fault.later lines)) (row.map (LocatedSegment.later lines)) =
      (empty.run scanFault row).mapError (Fault.later lines) := by
  have hread := read_later lines scanFault none 0 row
  rw [Option.map_none] at hread
  rw [run_eq_read _ none 0 _ empty rfl rfl, run_eq_read scanFault none 0 row empty rfl rfl,
    hread]
  cases read scanFault none 0 row with
  | error fault => rfl
  | ok parsed => rfl

end Stack

end Nesting

/-!
## The two sources
-/

namespace Node

open Nesting

variable {row : List Segment} {mark : Mark} {body source : Text} {nodes : List Node}

/-- The lines that the first source has counted are all that the second one knows
of it. -/
theorem ofSource?_append
    (hcut : Segment.CutOffAll Delimiters.initial (row ++ [Segment.tag mark body])
      Delimiters.initial [] source)
    (h : ofSource? source = Except.ok nodes) (more : Text) :
    ofSource? (source ++ more) =
      ((ofSource? more).mapError
        (Fault.later (Segment.lineAfter 0 (row ++ [Segment.tag mark body])))).map
          (nodes ++ ·) := by
  have hrow : (Scanner.start source).segments =
      (Segment.locate 1 (row ++ [Segment.tag mark body]), none) := by
    rw [Scanner.start, Scanner.segments_of_cutOffAll hcut,
      Scanner.segments_of_rest_nil rfl, List.append_nil]
  have hstep : Stack.empty.stepAll (Segment.locate 1 (row ++ [Segment.tag mark body])) =
      Except.ok ⟨[], nodes⟩ := by
    rw [ofSource?_eq_run, hrow] at h
    exact Stack.stepAll_of_run_eq_ok h
  have happend := hcut.append_of_tag Delimiters.proper_initial more
  have hline : Segment.lineAfter 1 (row ++ [Segment.tag mark body]) =
      1 + Segment.lineAfter 0 (row ++ [Segment.tag mark body]) := by
    rw [Nat.add_comm, ← Segment.lineAfter_add]
  -- The scan and the stack stand where they would at the start of the second source, but
  -- for the line and the nodes.
  rw [ofSource?_eq_run (source ++ more), Scanner.start,
    Scanner.segments_of_cutOffAll happend, hline, Scanner.segments_later,
    Stack.run_append_of_ok hstep, Stack.run_behind, Stack.run_later, ofSource?_eq_run more,
    Scanner.start]

end Node

namespace Template

variable {row : List Segment} {mark : Mark} {body source : Text}

/-- When a source is a template, ends with a tag and leaves the delimiters as they were,
then any source behind it is read as on its own: the nodes of both templates come one
after the other, and an error stays the same but for its line, which is greater by a
number of lines that the first source settles. -/
theorem parse_append_of_ok
    (hcut : Segment.CutOffAll Delimiters.initial (row ++ [Segment.tag mark body])
      Delimiters.initial [] source) :
    exists lines, forall (other : Text) (t : Template),
      parse other source = Except.ok t ->
      forall name more : Text,
        (forall u, parse name more = Except.ok u ->
          parse name (source ++ more) = Except.ok ⟨name, t.nodes ++ u.nodes⟩) ∧
        forall e, parse name more = Except.error e ->
          parse name (source ++ more) =
            Except.error ⟨e.template, ⟨e.fault.line + lines, e.fault.cause⟩⟩ := by
  exists Segment.lineAfter 0 (row ++ [Segment.tag mark body])
  intro other t ht name more
  have happend := Node.ofSource?_append hcut (parse_succeeds_iff.mp ht).1 more
  constructor
  · intro u hu
    rcases parse_succeeds_iff.mp hu with ⟨hmore, _⟩
    refine parse_succeeds_iff.mpr ⟨?_, rfl⟩
    rw [happend, hmore]
    rfl
  · intro e he
    rcases parse_eq_error_iff.mp he with ⟨hmore, hname⟩
    refine parse_eq_error_iff.mpr ⟨?_, hname⟩
    rw [happend, hmore]
    rfl

/-- Other delimiters are in force for a block over two lines and are changed back. -/
def bordered : Text :=
  ['\x7b', '\x7b', '=', '|', ' ', ';', '\x7d', '\x7d', '|', '$', 'k', ';', '\n',
    '|', '/', 'k', ';', '|', '=', '\x7b', '\x7b', ' ', '\x7d', '\x7d', ';']

def bars : Delimiters :=
  ⟨['|'], [';']⟩

def borderedRow : List Segment :=
  [Segment.tag Mark.delimiters ['|', ' ', ';'],
    Segment.tag (Mark.opening BlockKind.within) ['k'], Segment.run ['\n'],
    Segment.tag Mark.closing ['k']]

def borderedNodes : List Node :=
  [Node.block BlockKind.within ['k'] [Node.text ['\n']]]

theorem cutOffAll_bordered :
    Segment.CutOffAll Delimiters.initial
      (borderedRow ++
        [Segment.tag Mark.delimiters ['\x7b', '\x7b', ' ', '\x7d', '\x7d']])
      Delimiters.initial [] bordered := by
  have hbars : bars.NamedBy ['|', ' ', ';'] := by
    constructor
    all_goals decide
  have hinitial :
      Delimiters.initial.NamedBy ['\x7b', '\x7b', ' ', '\x7d', '\x7d'] := by
    constructor
    all_goals decide
  refine Segment.CutOffAll.cons
    (Segment.CutOff.change hbars (Text.firstAt_of_head_not_mem (by decide) _ _)) ?_
  refine Segment.CutOffAll.cons
    (Segment.CutOff.tag (by decide) (Text.firstAt_of_head_not_mem (by decide) _ _)) ?_
  refine Segment.CutOffAll.cons (Segment.CutOff.run (by decide)
    (Or.inl (Text.firstAt_of_head_not_mem (c := '|') (by decide) [] _))) ?_
  refine Segment.CutOffAll.cons
    (Segment.CutOff.tag (by decide) (Text.firstAt_of_head_not_mem (by decide) _ _)) ?_
  exact Segment.CutOff.all
    (Segment.CutOff.change hinitial (Text.firstAt_of_head_not_mem (by decide) _ _))

theorem parse_append_of_ok_bordered :
    Segment.CutOffAll Delimiters.initial
        (borderedRow ++
          [Segment.tag Mark.delimiters ['\x7b', '\x7b', ' ', '\x7d', '\x7d']])
        Delimiters.initial [] bordered ∧
      parse ['a'] bordered = Except.ok ⟨['a'], borderedNodes⟩ ∧
      exists lines,
        parse ['n'] (bordered ++ "\x7b\x7b*x\x7d\x7d".toList) =
            Except.ok ⟨['n'], borderedNodes ++ [Node.print ['x']]⟩ ∧
          parse ['n'] (bordered ++ "\n\x7b\x7b/x\x7d\x7d".toList) =
            Except.error ⟨['n'], ⟨2 + lines, ParseCause.unopenedScope ['x']⟩⟩ := by
  have hfirst : parse ['a'] bordered = Except.ok ⟨['a'], borderedNodes⟩ := by
    decide +kernel
  have hprint : parse ['n'] "\x7b\x7b*x\x7d\x7d".toList =
      Except.ok ⟨['n'], [Node.print ['x']]⟩ := by
    decide +kernel
  have hclosing : parse ['n'] "\n\x7b\x7b/x\x7d\x7d".toList =
      Except.error ⟨['n'], ⟨2, ParseCause.unopenedScope ['x']⟩⟩ := by
    decide +kernel
  rcases parse_append_of_ok cutOffAll_bordered with ⟨lines, happend⟩
  have hbehind := happend ['a'] _ hfirst ['n']
  exact ⟨cutOffAll_bordered, hfirst, lines, (hbehind _).1 _ hprint,
    (hbehind _).2 _ hclosing⟩

end Template

end Stencil
