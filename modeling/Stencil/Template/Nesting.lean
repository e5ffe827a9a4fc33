import Stencil.Template.Scanner

/-!
# From segments to trees

## Recursive descent

The segments of a source are read into nodes.  An opening tag reads the nodes up
to its closing tag, which must have the same name; comments and changes of
delimiters leave no node.  What the reading of a block leaves over is never
longer than what it was given, and this bounds the recursion.
-/

namespace Stencil

structure Opener where
  line : Nat
  name : Text
deriving DecidableEq

namespace Nesting

abbrev Siblings (segments : List LocatedSegment) :=
  { parsed : List Node × List LocatedSegment // parsed.2.length ≤ segments.length }

namespace Siblings

def stop (segment : LocatedSegment) (rest : List LocatedSegment) :
    Siblings (segment :: rest) :=
  ⟨([], rest), by simp⟩

def cons {rest : List LocatedSegment} (node : Node) (parsed : Siblings rest)
    (segment : LocatedSegment) : Siblings (segment :: rest) :=
  ⟨(node :: parsed.val.1, parsed.val.2), Nat.le_succ_of_le parsed.property⟩

def skip {rest : List LocatedSegment} (parsed : Siblings rest)
    (segment : LocatedSegment) : Siblings (segment :: rest) :=
  ⟨parsed.val, Nat.le_succ_of_le parsed.property⟩

def consBlock {rest : List LocatedSegment} (kind : BlockKind) (name : Text)
    (inside : Siblings rest) (parsed : Siblings inside.val.2)
    (segment : LocatedSegment) : Siblings (segment :: rest) :=
  ⟨(Node.block kind name inside.val.1 :: parsed.val.1, parsed.val.2),
    Nat.le_succ_of_le (Nat.le_trans parsed.property inside.property)⟩

end Siblings

/-- Reads the nodes up to the closing tag of `opener`, or up to the end if no block
is open.  `scanFault` is the fault that ended the scan, if one did, and `depth` is
the number of open blocks. -/
def siblings (scanFault : Option Fault) (opener : Option Opener) (depth : Nat) :
    (segments : List LocatedSegment) -> Except Fault (Siblings segments)
  | [] =>
      match scanFault, opener with
      | some fault, _ => Except.error fault
      | none, some o => Except.error ⟨o.line, ParseCause.unclosedScope o.name⟩
      | none, none => Except.ok ⟨([], []), Nat.le_refl _⟩
  | ⟨line, Segment.run s⟩ :: rest =>
      match siblings scanFault opener depth rest with
      | Except.error fault => Except.error fault
      | Except.ok parsed => Except.ok (parsed.cons (Node.text s) _)
  | ⟨line, Segment.tag Mark.print name⟩ :: rest =>
      match siblings scanFault opener depth rest with
      | Except.error fault => Except.error fault
      | Except.ok parsed => Except.ok (parsed.cons (Node.print name) _)
  | ⟨line, Segment.tag Mark.embed name⟩ :: rest =>
      match siblings scanFault opener depth rest with
      | Except.error fault => Except.error fault
      | Except.ok parsed => Except.ok (parsed.cons (Node.embed name) _)
  | ⟨line, Segment.tag Mark.comment _⟩ :: rest =>
      match siblings scanFault opener depth rest with
      | Except.error fault => Except.error fault
      | Except.ok parsed => Except.ok (parsed.skip _)
  | ⟨line, Segment.tag Mark.delimiters _⟩ :: rest =>
      match siblings scanFault opener depth rest with
      | Except.error fault => Except.error fault
      | Except.ok parsed => Except.ok (parsed.skip _)
  | ⟨line, Segment.tag Mark.closing name⟩ :: rest =>
      match opener with
      | none => Except.error ⟨line, ParseCause.unopenedScope name⟩
      | some o =>
          if o.name = name then Except.ok (Siblings.stop _ rest)
          else Except.error ⟨line, ParseCause.unmatchedTag name o.name⟩
  | ⟨line, Segment.tag (Mark.opening kind) name⟩ :: rest =>
      if depth < blockDepthLimit then
        match siblings scanFault (some ⟨line, name⟩) (depth + 1) rest with
        | Except.error fault => Except.error fault
        | Except.ok inside =>
            have _hle := inside.property
            match siblings scanFault opener depth inside.val.2 with
            | Except.error fault => Except.error fault
            | Except.ok parsed => Except.ok (inside.consBlock kind name parsed _)
      else Except.error ⟨line, ParseCause.depthLimitExceeded⟩
termination_by segments => segments.length
decreasing_by
  all_goals first
    | exact Nat.lt_succ_self _
    | exact Nat.lt_succ_of_le _hle

end Nesting

def Node.ofSource? (source : Text) : Except Fault (List Node) :=
  match (Scanner.start source).segments with
  | (segments, scanFault) =>
      (Nesting.siblings scanFault none 0 segments).map fun parsed => parsed.val.1

end Stencil
