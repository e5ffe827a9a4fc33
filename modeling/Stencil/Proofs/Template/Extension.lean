import Mathlib.Data.List.Basic
import Stencil.Proofs.Template.Fence
import Stencil.Proofs.Template.Stack

/-!
# Appending to a source

## Which faults are final

The scanner looks ahead through all of the source, and still a template is judged
from its beginning: a fault at a complete tag stays the same whatever is appended.
The other faults are that the source ends too early.  An unfinished tag may not be
finished well, but blocks that are left open can always be closed: by a space, so
that no tag starts in the last text, by new delimiters that occur in no open name,
and by the closing tags of the names.
-/

namespace Stencil

namespace ParseCause

/-- Something is wrong, and it is not that the source ends too early. -/
def isFinal : ParseCause -> Bool
  | malformedTag => true
  | unrecognizedTag => true
  | unmatchedTag _ _ => true
  | unopenedScope _ => true
  | depthLimitExceeded => true
  | incompleteTag => false
  | unclosedScope _ => false

end ParseCause

/-!
## Faults of the scan
-/

namespace Scanner

variable {d : Delimiters} {line : Nat} {rest inside body : Text} {mark : Mark}
variable {fault : Fault}

theorem TagFault.append (h : TagFault d line inside fault)
    (hfinal : fault.cause.isFinal = true) (more : Text) :
    TagFault d line (inside ++ more) fault := by
  cases h with
  | unrecognized hinside hmark =>
      subst hinside
      exact TagFault.unrecognized rfl hmark
  | malformed hinside hcut hnames =>
      subst hinside
      exact TagFault.malformed rfl (Text.cutAround?_append hcut more) hnames
  | unmarked _ => cases hfinal
  | unended _ _ => cases hfinal

theorem TagFault.not_unclosed (h : TagFault d line inside fault) (tag : Text) :
    fault.cause ≠ ParseCause.unclosedScope tag := by
  cases h with
  | unrecognized _ _ => simp
  | malformed _ _ _ => simp
  | unmarked _ => simp
  | unended _ _ => simp

theorem cut_error_append (h : (cut ⟨d, line, rest⟩).1 = Except.error fault)
    (hfinal : fault.cause.isFinal = true) (more : Text) :
    (cut ⟨d, line, rest ++ more⟩).1 = Except.error fault := by
  rcases cut_error_iff.mp h with ⟨inside, hrest, hfault⟩
  refine cut_error_iff.mpr ⟨inside ++ more, ?_, hfault.append hfinal more⟩
  dsimp only at hrest ⊢
  rw [hrest, List.append_assoc]

end Scanner

/-!
## Faults of the reading
-/

namespace Nesting

namespace Stack

variable {stack next : Stack} {located : LocatedSegment} {fault : Fault}
variable {row others : List LocatedSegment} {scanFault : Option Fault}

theorem step_error_isFinal (h : stack.step located = Except.error fault) :
    fault.cause.isFinal = true := by
  unfold step at h
  split at h
  case h_6 =>
    unfold close at h
    split at h
    · cases h
      rfl
    · split at h
      · cases h
      · cases h
        rfl
  case h_7 =>
    unfold enter at h
    split at h
    · cases h
    · cases h
      rfl
  all_goals cases h

theorem stepAll_error_isFinal (h : stack.stepAll row = Except.error fault) :
    fault.cause.isFinal = true := by
  induction row generalizing stack with
  | nil =>
      cases h
  | cons located row ih =>
      rw [stepAll_cons] at h
      cases hstep : stack.step located with
      | error e =>
          rw [hstep] at h
          cases h
          exact step_error_isFinal hstep
      | ok next =>
          rw [hstep] at h
          exact ih h

theorem run_append_of_ok (h : stack.stepAll row = Except.ok next) :
    stack.run scanFault (row ++ others) = next.run scanFault others := by
  rw [run, stepAll_append, h]
  rfl

theorem run_append_of_error (h : stack.stepAll row = Except.error fault) :
    stack.run scanFault (row ++ others) = Except.error fault := by
  rw [run, stepAll_append, h]
  rfl

/-- The closing tags of all open blocks, innermost first. -/
def closingTags (stack : Stack) : List Segment :=
  stack.blocks.map fun block => Segment.tag Mark.closing block.opener.name

theorem exists_run_closingTags (stack : Stack) (line : Nat) :
    exists nodes, stack.run none (Segment.locate line stack.closingTags) =
      Except.ok nodes := by
  rcases stack with ⟨blocks, nodes⟩
  induction blocks generalizing nodes line with
  | nil =>
      exact ⟨nodes, rfl⟩
  | cons block outer ih =>
      rcases ih (line + Text.lineBreaks block.opener.name)
        (block.before ++ [Node.block block.kind block.opener.name nodes]) with
        ⟨all, hall⟩
      exists all
      rw [← hall]
      exact run_cons_of_ok (step_closing rfl)

theorem addNodes_nil (stack : Stack) : stack.addNodes [] = stack := by
  simp [addNodes]

theorem exists_stepAll_eq_map {d d' : Delimiters} {segments settled : List Segment}
    {last rest source : Text}
    (h : Segment.Settled d d' segments settled last rest source)
    (stack : Stack) (line : Nat) :
    exists leaves, stack.stepAll (Segment.locate line segments) =
      (stack.stepAll (Segment.locate line settled)).map fun next =>
        next.addNodes leaves := by
  rcases h.row_eq with ⟨rfl, _⟩ | ⟨rfl, _⟩
  · exists []
    cases stack.stepAll (Segment.locate line segments) with
    | error fault => rfl
    | ok next => rw [Except.map, addNodes_nil]
  · exists [Node.text last]
    rw [Segment.locate_append, stepAll_append]
    cases stack.stepAll (Segment.locate line settled) with
    | error fault => rfl
    | ok next => rfl

end Stack

end Nesting

/-!
## The source with more behind it
-/

namespace Node

open Nesting

variable {source tag : Text} {fault : Fault}

/-- Reading fails at a settled segment, at the fault of the scan, or else at the end
of the source, where a block is open. -/
theorem ofSource?_error_cases {row settled : List Segment} {last rest : Text}
    {d : Delimiters} {scanFault : Option Fault}
    (hscan : Scanner.Scan source row settled last rest d scanFault)
    (h : ofSource? source = Except.error fault) :
    Stack.empty.stepAll (Segment.locate 1 settled) = Except.error fault ∨
      exists stack, Stack.empty.stepAll (Segment.locate 1 settled) = Except.ok stack ∧
        (scanFault = some fault ∨ (scanFault = none ∧
          exists tag, fault.cause = ParseCause.unclosedScope tag)) := by
  rcases Stack.exists_stepAll_eq_map hscan.settled Stack.empty 1 with ⟨leaves, hleaves⟩
  rw [ofSource?_eq_run, hscan.segments_eq, Stack.run, hleaves] at h
  cases hstep : Stack.empty.stepAll (Segment.locate 1 settled) with
  | error e =>
      rw [hstep] at h
      exact Or.inl (congrArg Except.error (Except.error.inj h))
  | ok stack =>
      rw [hstep] at h
      refine Or.inr ⟨stack, rfl, ?_⟩
      cases scanFault with
      | some scanFault =>
          exact Or.inl (congrArg some (Except.error.inj h))
      | none =>
          rcases stack with ⟨blocks, nodes⟩
          cases blocks with
          | nil => cases h
          | cons block outer =>
              cases h
              exact Or.inr ⟨rfl, _, rfl⟩

theorem ofSource?_append_of_error (h : ofSource? source = Except.error fault)
    (hfinal : fault.cause.isFinal = true) (more : Text) :
    ofSource? (source ++ more) = Except.error fault := by
  rcases Scanner.exists_scan source with
    ⟨row, settled, last, rest, d, scanFault, hscan⟩
  rw [ofSource?_eq_run, hscan.segments_append]
  rcases ofSource?_error_cases hscan h with
    hstep | ⟨stack, hstep, rfl | ⟨_, tag, hunclosed⟩⟩
  · exact Stack.run_append_of_error hstep
  · rcases hscan.cut_eq_error with ⟨rfl, rfl, hne, hcut⟩
    have hcut' := Scanner.cut_error_append hcut hfinal more
    rw [Stack.run_append_of_ok hstep, List.nil_append,
      Scanner.segments_of_cut_error (by simp [hne]) hcut']
    rfl
  · rw [hunclosed] at hfinal
    cases hfinal

theorem exists_stepAll_of_unclosed {row settled : List Segment} {last rest : Text}
    {d : Delimiters} {scanFault : Option Fault}
    (hscan : Scanner.Scan source row settled last rest d scanFault)
    (h : ofSource? source = Except.error fault)
    (hunclosed : fault.cause = ParseCause.unclosedScope tag) :
    scanFault = none ∧ exists stack,
      Stack.empty.stepAll (Segment.locate 1 settled) = Except.ok stack := by
  rcases ofSource?_error_cases hscan h with
    hstep | ⟨stack, hstep, rfl | ⟨hnone, _⟩⟩
  · have hfinal := Stack.stepAll_error_isFinal hstep
    rw [hunclosed] at hfinal
    cases hfinal
  · rcases Scanner.cut_error_iff.mp hscan.cut_eq_error.2.2.2 with ⟨inside, _, htag⟩
    exact absurd hunclosed (htag.not_unclosed tag)
  · exact ⟨hnone, stack, hstep⟩

theorem exists_append_of_unclosed (h : ofSource? source = Except.error fault)
    (hunclosed : fault.cause = ParseCause.unclosedScope tag) :
    exists more nodes, ofSource? (source ++ more) = Except.ok nodes := by
  rcases Scanner.exists_scan source with
    ⟨row, settled, last, rest, d, scanFault, hscan⟩
  rcases exists_stepAll_of_unclosed hscan h hunclosed with ⟨rfl, stack, hstep⟩
  have htags : forall segment, segment ∈ stack.closingTags ->
      exists mark name, segment = Segment.tag mark name ∧ mark ≠ Mark.delimiters := by
    intro segment hmem
    rcases List.mem_map.mp hmem with ⟨block, _, rfl⟩
    exact ⟨_, _, rfl, by simp⟩
  rcases Scanner.exists_segments_append hscan htags with ⟨more, guards, hmore⟩
  -- The last text and the new delimiters come before the closing tags.
  rcases (stack.addNodes [Node.text (last ++ [' '])]).exists_run_closingTags
    (Segment.lineAfter (Segment.lineAfter 1 settled)
      [Segment.run (last ++ [' ']), Segment.tag Mark.delimiters guards.body]) with
    ⟨nodes, hrun⟩
  refine ⟨more, nodes, ?_⟩
  rw [ofSource?_eq_run, hmore, Segment.locate_append, Stack.run_append_of_ok hstep]
  calc
    stack.run none (Segment.locate (Segment.lineAfter 1 settled)
        (Segment.run (last ++ [' ']) :: Segment.tag Mark.delimiters guards.body ::
          stack.closingTags))
      = (stack.addNodes [Node.text (last ++ [' '])]).run none
          (Segment.locate (Segment.lineAfter (Segment.lineAfter 1 settled)
            [Segment.run (last ++ [' '])])
            (Segment.tag Mark.delimiters guards.body :: stack.closingTags)) :=
        Stack.run_cons_of_ok rfl
    _ = Except.ok nodes := (Stack.run_cons_of_ok rfl).trans hrun

end Node

namespace Template

variable {name source : Text} {t : Template} {e : ParseError}

theorem parse_succeeds_iff :
    parse name source = Except.ok t ↔
      Node.ofSource? source = Except.ok t.nodes ∧ t.name = name := by
  rcases t with ⟨other, nodes⟩
  cases hsource : Node.ofSource? source with
  | error found => simp [parse, hsource]
  | ok found => simp [parse, hsource, and_comm, eq_comm]

theorem parse_eq_error_iff :
    parse name source = Except.error e ↔
      Node.ofSource? source = Except.error e.fault ∧ e.template = name := by
  rcases e with ⟨template, fault⟩
  cases hsource : Node.ofSource? source with
  | error found => simp [parse, hsource, and_comm, eq_comm]
  | ok nodes => simp [parse, hsource]

/-- An error that is not about the end of the source stays the same, with its line
and its tags, whatever is appended, and a source that leaves a block open can be
continued to a template. -/
theorem parse_append_of_error :
    (forall (name source more : Text) (e : ParseError),
      parse name source = Except.error e ->
      e.fault.cause.isFinal = true ->
      parse name (source ++ more) = Except.error e) ∧
    forall (name source tag : Text) (e : ParseError),
      parse name source = Except.error e ->
      e.fault.cause = ParseCause.unclosedScope tag ->
      exists more t, parse name (source ++ more) = Except.ok t := by
  constructor
  · intro name source more e h hfinal
    rcases parse_eq_error_iff.mp h with ⟨hsource, hname⟩
    exact parse_eq_error_iff.mpr
      ⟨Node.ofSource?_append_of_error hsource hfinal more, hname⟩
  · intro name source tag e h hunclosed
    rcases parse_eq_error_iff.mp h with ⟨hsource, _⟩
    rcases Node.exists_append_of_unclosed hsource hunclosed with ⟨more, nodes, hmore⟩
    exists more, ⟨name, nodes⟩
    rw [parse, hmore]

/-- A block is closed by another name, in front of half a delimiter. -/
def crossedSource : Text :=
  "\x7b\x7b$a\x7d\x7d\n\x7b\x7b/b\x7d\x7d\x7b".toList

/-- The open block has a name that the last delimiters cannot spell, and the source
ends with half of one. -/
def openSource : Text :=
  "\x7b\x7b=| ;\x7d\x7d|$\x7d\x7d;|=\x7b\x7b \x7d\x7d;x\x7b".toList

theorem parse_append_of_error_crossed :
    parse ['n'] (crossedSource ++ ['\x7b']) =
        Except.error ⟨['n'], ⟨2, ParseCause.unmatchedTag ['b'] ['a']⟩⟩ ∧
      exists more t, parse ['n'] (openSource ++ more) = Except.ok t := by
  have hcrossed : parse ['n'] crossedSource =
      Except.error ⟨['n'], ⟨2, ParseCause.unmatchedTag ['b'] ['a']⟩⟩ := by
    decide +kernel
  have hopen : parse ['n'] openSource =
      Except.error ⟨['n'], ⟨1, ParseCause.unclosedScope ['\x7d', '\x7d']⟩⟩ := by
    decide +kernel
  exact ⟨parse_append_of_error.1 _ _ _ _ hcrossed rfl,
    parse_append_of_error.2 _ _ _ _ hopen rfl⟩

end Template

end Stencil
