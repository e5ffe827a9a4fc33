import Stencil.Proofs.Template.Cutting
import Stencil.Proofs.Template.Stack

/-!
# Lines that are counted on

## The same source further down

Where a scan starts counting lines makes no difference for what it finds: the segments
are the same, each of them so many lines further down, and so is the fault that ends the
scan.  Reading such segments gives the same nodes, or the same fault further down, of
whatever kind it is.
-/

namespace Stencil

def Fault.later (lines : Nat) (fault : Fault) : Fault :=
  { fault with line := fault.line + lines }

def LocatedSegment.later (lines : Nat) (located : LocatedSegment) : LocatedSegment :=
  { located with line := located.line + lines }

def Opener.later (lines : Nat) (opener : Opener) : Opener :=
  { opener with line := opener.line + lines }

variable {lines line : Nat}

/-!
## Segments
-/

namespace Segment

theorem lineAfter_add (lines line : Nat) (row : List Segment) :
    lineAfter (line + lines) row = lineAfter line row + lines := by
  induction row generalizing line with
  | nil => rfl
  | cons segment row ih =>
      rw [lineAfter, List.foldl_cons, Nat.add_right_comm, ← lineAfter, ih]
      rfl

theorem locate_add (lines line : Nat) (row : List Segment) :
    locate (line + lines) row = (locate line row).map (LocatedSegment.later lines) := by
  induction row generalizing line with
  | nil => rfl
  | cons segment row ih =>
      rw [locate, Nat.add_right_comm, ih]
      rfl

end Segment

namespace Scanner

variable {d : Delimiters} {inside rest : Text} {fault : Fault}

theorem TagFault.later (h : TagFault d line inside fault) (lines : Nat) :
    TagFault d (line + lines) inside (fault.later lines) := by
  cases h with
  | unrecognized hinside hmark => exact TagFault.unrecognized hinside hmark
  | malformed hinside hcut hnames =>
      dsimp only [Fault.later]
      rw [Nat.add_right_comm]
      exact TagFault.malformed hinside hcut hnames
  | unmarked hinside => exact TagFault.unmarked hinside
  | unended hinside hcut => exact TagFault.unended hinside hcut

theorem cut_error_later (h : (cut ⟨d, line, rest⟩).1 = Except.error fault) (lines : Nat) :
    (cut ⟨d, line + lines, rest⟩).1 = Except.error (fault.later lines) := by
  rcases cut_error_iff.mp h with ⟨inside, hrest, hfault⟩
  exact cut_error_iff.mpr ⟨inside, hrest, hfault.later lines⟩

theorem segments_later (d : Delimiters) (line lines : Nat) (source : Text) :
    segments ⟨d, line + lines, source⟩ =
      ((segments ⟨d, line, source⟩).1.map (LocatedSegment.later lines),
        (segments ⟨d, line, source⟩).2.map (Fault.later lines)) := by
  rcases exists_cutOffAll_of_segments ⟨d, line, source⟩ with
    ⟨row, d', rest, hall, hrow, hstops⟩
  dsimp only at hall hrow hstops
  rw [segments_of_cutOffAll hall, Segment.lineAfter_add, Segment.locate_add, hrow]
  rcases hstops with ⟨hnil, hnone⟩ | ⟨hne, fault, hcut, hsome⟩
  · have hlater : segments ⟨d', Segment.lineAfter line row + lines, rest⟩ = ([], none) :=
      segments_of_rest_nil hnil
    rw [hlater, hnone, List.append_nil]
    rfl
  · have hlater : segments ⟨d', Segment.lineAfter line row + lines, rest⟩ =
        ([], some (fault.later lines)) :=
      segments_of_cut_error hne (cut_error_later hcut lines)
    rw [hlater, hsome, List.append_nil]
    rfl

end Scanner

/-!
## Nodes
-/

namespace Nesting

variable {scanFault : Option Fault}

def laterOutcome (lines : Nat) (outcome : Except Fault (List Node × List LocatedSegment)) :
    Except Fault (List Node × List LocatedSegment) :=
  match outcome with
  | Except.error fault => Except.error (fault.later lines)
  | Except.ok (nodes, rest) =>
      Except.ok (nodes, rest.map (LocatedSegment.later lines))

theorem read_later (lines : Nat) (scanFault : Option Fault) (opener : Option Opener)
    (depth : Nat) (row : List LocatedSegment) :
    read (scanFault.map (Fault.later lines)) (opener.map (Opener.later lines)) depth
        (row.map (LocatedSegment.later lines)) =
      laterOutcome lines (read scanFault opener depth row) := by
  induction opener, depth, row using read_induction scanFault with
  | nil opener depth =>
      cases scanFault with
      | some fault =>
          rw [read_nil_of_fault]
          exact read_nil_of_fault _ _ _
      | none =>
          cases opener with
          | none =>
              rw [read_nil_none]
              exact read_nil_none
          | some o =>
              rw [read_nil_some]
              exact read_nil_some _
  | leaf opener depth line segment leaves rest hleaf ih =>
      rw [read_leaf hleaf, List.map_cons, LocatedSegment.later, read_leaf hleaf, ih]
      cases read scanFault opener depth rest with
      | error fault => rfl
      | ok parsed => rfl
  | closing opener depth line name rest =>
      cases opener with
      | none =>
          rw [read_closing_none]
          exact read_closing_none _
      | some o =>
          rw [List.map_cons, LocatedSegment.later, Option.map_some, read_closing_some,
            read_closing_some]
          by_cases hname : o.name = name
          · simp [Opener.later, hname, laterOutcome]
          · simp [Opener.later, hname, laterOutcome, Fault.later]
  | opening opener depth line kind name rest ihinside ihbeside =>
      rw [List.map_cons, LocatedSegment.later, read_opening, read_opening]
      split
      · rw [Option.map_some, Opener.later] at ihinside
        rw [ihinside]
        cases hinside : read scanFault (some ⟨line, name⟩) (depth + 1) rest with
        | error fault => rfl
        | ok inside =>
            have hbeside := ihbeside inside.1 inside.2 hinside
            dsimp only [laterOutcome]
            rw [hbeside]
            cases read scanFault opener depth inside.2 with
            | error fault => rfl
            | ok parsed => rfl
      · rfl

end Nesting

end Stencil
