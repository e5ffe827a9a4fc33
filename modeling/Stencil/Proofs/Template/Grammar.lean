import Stencil.Proofs.Template.Bracketing
import Stencil.Proofs.Template.Spelling
import Stencil.Template.Basic

/-!
# The grammar of template sources

## What parses, and into which tree

A source is a template exactly if some row of segments spells it and is, but for
comments and changes of delimiters, the row of a tree whose blocks nest no deeper
than the limit.  The template has that tree.
-/

namespace Stencil

namespace Node

theorem ofSource?_eq_map_read (source : Text) :
    ofSource? source =
      (Nesting.read (Scanner.start source).segments.2 none 0
        (Scanner.start source).segments.1).map Prod.fst := by
  unfold ofSource? Nesting.read
  rcases (Scanner.start source).segments with ⟨located, scanFault⟩
  dsimp only
  cases Nesting.siblings scanFault none 0 located with
  | error fault => rfl
  | ok parsed => rfl

theorem ofSource?_eq_ok_iff {source : Text} {nodes : List Node} :
    ofSource? source = Except.ok nodes ↔
      exists row : List Segment,
        Segment.Spells Delimiters.initial row source ∧
          row.filter Segment.isShown = bracketingAll nodes ∧
            depthAll nodes ≤ blockDepthLimit := by
  rw [ofSource?_eq_map_read]
  constructor
  · intro h
    rcases hscan : (Scanner.start source).segments with ⟨located, scanFault⟩
    rw [hscan] at h
    rcases map_eq_ok_iff.mp h with ⟨⟨_, rest⟩, hread, rfl⟩
    cases scanFault with
    | some fault =>
        exact absurd hread (Nesting.read_none_ne_ok rfl)
    | none =>
        rcases Nesting.encloses_of_read (Nat.zero_le _) hread with ⟨inside, h⟩
        have hrow : located.map LocatedSegment.segment = inside := by
          rw [h.split, h.complete rfl]
          simp [Nesting.closers]
        refine ⟨inside, ?_, h.shown, by simpa using h.shallow⟩
        rw [← hrow]
        exact Scanner.spells_of_segments hscan
  · intro h
    rcases h with ⟨row, hspells, hshown, hdepth⟩
    rcases Scanner.exists_segments_of_spells hspells 1 with ⟨located, hscan, hrow⟩
    have hencloses : Nesting.Encloses none 0 nodes
        (located.map LocatedSegment.segment) [] row := by
      refine ⟨?_, hshown, by simpa using hdepth, fun _ => rfl⟩
      rw [hrow]
      simp [Nesting.closers]
    rcases Nesting.exists_read_of_encloses hencloses with ⟨rest, hread, _⟩
    rw [Scanner.start, hscan]
    simp only [hread]
    rfl

end Node

namespace Template

/-- Parsing accepts exactly the grammar and returns the tree that the source
spells. -/
theorem parse_eq_ok_iff (name source : Text) (t : Template) :
    parse name source = Except.ok t ↔
      t.name = name ∧
        exists row : List Segment,
          Segment.Spells Delimiters.initial row source ∧
            row.filter Segment.isShown = Node.bracketingAll t.nodes ∧
              Node.depthAll t.nodes ≤ blockDepthLimit := by
  rw [← Node.ofSource?_eq_ok_iff]
  unfold parse
  constructor
  · intro h
    split at h
    case h_1 =>
      cases h
    case h_2 nodes hnodes =>
      cases h
      exact ⟨rfl, hnodes⟩
  · intro h
    rcases h with ⟨rfl, hnodes⟩
    rw [hnodes]

end Template

end Stencil
