import Stencil.Proofs.Template.Grammar

/-!
# Reading with a stack of open blocks

## One segment after another

Recursive descent keeps the open blocks of a template in its recursion.  The same
reading can be done in a single pass from left to right that keeps them on a stack:
each segment changes what is on the stack, or is a fault, and whatever comes later
does not matter for it.  So the reading of a row splits wherever the row does.
-/

namespace Stencil

namespace Nesting

structure OpenBlock where
  kind : BlockKind
  opener : Opener
  before : List Node

structure Stack where
  blocks : List OpenBlock
  nodes : List Node

namespace Stack

def empty : Stack :=
  ⟨[], []⟩

def addNodes (stack : Stack) (nodes : List Node) : Stack :=
  { stack with nodes := stack.nodes ++ nodes }

def pop (stack : Stack) (block : OpenBlock) (outer : List OpenBlock) : Stack :=
  ⟨outer, block.before ++ [Node.block block.kind block.opener.name stack.nodes]⟩

def push (stack : Stack) (line : Nat) (kind : BlockKind) (name : Text) : Stack :=
  ⟨⟨kind, ⟨line, name⟩, stack.nodes⟩ :: stack.blocks, []⟩

def close (stack : Stack) (line : Nat) (name : Text) : Except Fault Stack :=
  match stack.blocks with
  | [] => Except.error ⟨line, ParseCause.unopenedScope name⟩
  | block :: outer =>
      if block.opener.name = name then Except.ok (stack.pop block outer)
      else Except.error ⟨line, ParseCause.unmatchedTag name block.opener.name⟩

def enter (stack : Stack) (line : Nat) (kind : BlockKind) (name : Text) :
    Except Fault Stack :=
  if stack.blocks.length < blockDepthLimit then
    Except.ok (stack.push line kind name)
  else Except.error ⟨line, ParseCause.depthLimitExceeded⟩

def step (stack : Stack) (located : LocatedSegment) : Except Fault Stack :=
  match located.segment with
  | Segment.run s => Except.ok (stack.addNodes [Node.text s])
  | Segment.tag Mark.print name => Except.ok (stack.addNodes [Node.print name])
  | Segment.tag Mark.embed name => Except.ok (stack.addNodes [Node.embed name])
  | Segment.tag Mark.comment _ => Except.ok stack
  | Segment.tag Mark.delimiters _ => Except.ok stack
  | Segment.tag Mark.closing name => stack.close located.line name
  | Segment.tag (Mark.opening kind) name => stack.enter located.line kind name

def stepAll (stack : Stack) (row : List LocatedSegment) : Except Fault Stack :=
  row.foldlM step stack

def finish (scanFault : Option Fault) (stack : Stack) : Except Fault (List Node) :=
  match scanFault, stack.blocks with
  | some fault, _ => Except.error fault
  | none, block :: _ =>
      Except.error ⟨block.opener.line, ParseCause.unclosedScope block.opener.name⟩
  | none, [] => Except.ok stack.nodes

def run (stack : Stack) (scanFault : Option Fault) (row : List LocatedSegment) :
    Except Fault (List Node) :=
  (stack.stepAll row).bind (finish scanFault)

variable {scanFault : Option Fault} {stack next : Stack} {fault : Fault}
variable {located : LocatedSegment} {row others : List LocatedSegment}

@[simp] theorem stepAll_nil (stack : Stack) : stack.stepAll [] = Except.ok stack := rfl

theorem stepAll_cons (stack : Stack) (located : LocatedSegment)
    (row : List LocatedSegment) :
    stack.stepAll (located :: row) =
      (stack.step located).bind fun next => next.stepAll row :=
  List.foldlM_cons

theorem stepAll_append (stack : Stack) (row others : List LocatedSegment) :
    stack.stepAll (row ++ others) =
      (stack.stepAll row).bind fun next => next.stepAll others :=
  List.foldlM_append

theorem run_cons_of_ok (h : stack.step located = Except.ok next) :
    stack.run scanFault (located :: row) = next.run scanFault row := by
  rw [run, stepAll_cons, h]
  rfl

theorem run_cons_of_error (h : stack.step located = Except.error fault) :
    stack.run scanFault (located :: row) = Except.error fault := by
  rw [run, stepAll_cons, h]
  rfl

theorem step_leaf {line : Nat} {segment : Segment} {leaves : List Node}
    (h : segment.leaves? = some leaves) (stack : Stack) :
    stack.step ⟨line, segment⟩ = Except.ok (stack.addNodes leaves) := by
  unfold Segment.leaves? at h
  split at h
  all_goals cases h
  case h_4 | h_5 => simp [step, addNodes]
  all_goals rfl

theorem step_closing {line : Nat} {name : Text} {block : OpenBlock}
    {outer : List OpenBlock} {nodes : List Node} (h : block.opener.name = name) :
    step ⟨block :: outer, nodes⟩ ⟨line, Segment.tag Mark.closing name⟩ =
      Except.ok (pop ⟨block :: outer, nodes⟩ block outer) :=
  if_pos h

theorem step_opening (h : stack.blocks.length < blockDepthLimit) (line : Nat)
    (kind : BlockKind) (name : Text) :
    stack.step ⟨line, Segment.tag (Mark.opening kind) name⟩ =
      Except.ok (stack.push line kind name) :=
  if_pos h

end Stack

/-!
## Recursive descent keeps the same stack
-/

/-- Goes on behind a block whose remaining nodes have been read. -/
def Stack.resume (stack : Stack) (scanFault : Option Fault)
    (parsed : List Node × List LocatedSegment) : Except Fault (List Node) :=
  match stack.blocks with
  | [] => Except.ok (stack.nodes ++ parsed.1)
  | block :: outer =>
      ((stack.addNodes parsed.1).pop block outer).run scanFault parsed.2

theorem read_nil_of_fault (fault : Fault) (opener : Option Opener) (depth : Nat) :
    read (some fault) opener depth [] = Except.error fault := by
  simp [read, siblings, Except.map]

theorem run_eq_read (scanFault : Option Fault) (opener : Option Opener) (depth : Nat)
    (row : List LocatedSegment) (stack : Stack)
    (hopener : stack.blocks.head?.map OpenBlock.opener = opener)
    (hdepth : stack.blocks.length = depth) :
    stack.run scanFault row =
      (read scanFault opener depth row).bind (stack.resume scanFault) := by
  induction opener, depth, row using read_induction scanFault generalizing stack with
  | nil opener depth =>
      rcases stack with ⟨blocks, nodes⟩
      subst hopener
      cases scanFault with
      | some fault =>
          rw [read_nil_of_fault]
          rfl
      | none =>
          cases blocks with
          | nil =>
              simp only [List.head?_nil, Option.map_none, read_nil_none]
              simp [Stack.run, Stack.finish, Stack.resume, Except.bind]
          | cons block outer =>
              simp only [List.head?_cons, Option.map_some, read_nil_some]
              rfl
  | leaf opener depth line segment leaves rest hleaf ih =>
      rw [Stack.run_cons_of_ok (Stack.step_leaf hleaf stack), read_leaf hleaf,
        ih (stack.addNodes leaves) hopener hdepth]
      cases read scanFault opener depth rest with
      | error fault => rfl
      | ok parsed =>
          simp [Except.bind, Except.map, Stack.resume, Stack.addNodes]
  | closing opener depth line name rest =>
      rcases stack with ⟨blocks, nodes⟩
      subst hopener
      cases blocks with
      | nil =>
          simp only [List.head?_nil, Option.map_none, read_closing_none]
          rfl
      | cons block outer =>
          simp only [List.head?_cons, Option.map_some, read_closing_some]
          by_cases hname : block.opener.name = name
          · rw [if_pos hname]
            rw [Stack.run_cons_of_ok (Stack.step_closing hname)]
            simp [Except.bind, Stack.resume, Stack.addNodes]
          · rw [if_neg hname]
            exact Stack.run_cons_of_error (if_neg hname)
  | opening opener depth line kind name rest ihinside ihbeside =>
      rw [read_opening]
      by_cases hlt : depth < blockDepthLimit
      · have hstep := Stack.step_opening (hdepth ▸ hlt) line kind name
        rw [if_pos hlt, Stack.run_cons_of_ok hstep,
          ihinside (stack.push line kind name) rfl (congrArg Nat.succ hdepth)]
        cases hinside : read scanFault (some ⟨line, name⟩) (depth + 1) rest with
        | error fault => rfl
        | ok inside =>
            simp only [Except.bind, Stack.resume, Stack.push, Stack.addNodes,
              List.nil_append]
            rw [ihbeside inside.1 inside.2 hinside]
            · cases read scanFault opener depth inside.2 with
              | error fault => rfl
              | ok parsed =>
                  simp [Except.bind, Except.map, Stack.resume, Stack.addNodes,
                    Stack.pop]
            · exact hopener
            · exact hdepth
      · have hstep : stack.step ⟨line, Segment.tag (Mark.opening kind) name⟩ =
            Except.error ⟨line, ParseCause.depthLimitExceeded⟩ := by
          rw [← hdepth] at hlt
          exact if_neg hlt
        rw [if_neg hlt, Stack.run_cons_of_error hstep]
        rfl

end Nesting

/-- A source is read by one pass over its segments, with a stack of open blocks. -/
theorem Node.ofSource?_eq_run (source : Text) :
    ofSource? source =
      Nesting.Stack.empty.run (Scanner.start source).segments.2
        (Scanner.start source).segments.1 := by
  rw [ofSource?_eq_map_read, Nesting.run_eq_read _ none 0 _ _ rfl rfl]
  cases Nesting.read _ none 0 _ with
  | error fault => rfl
  | ok parsed => rfl

end Stencil
