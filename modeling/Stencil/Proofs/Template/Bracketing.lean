import Stencil.Proofs.Attempts
import Stencil.Template.Nesting

/-!
# Bracketing of trees

## The row of segments of a tree

A tree is written as a row of segments: an opening tag, the rows of the nodes
inside and a closing tag of the same name for a block, and a single segment for
every other node.  Comments and changes of delimiters leave no node, and may
stand anywhere in a row.

Recursive descent reads a row into the tree whose row it is, if blocks nest no
deeper than the limit, and refuses every other row.
-/

namespace Stencil

namespace Segment

def isShown : Segment -> Bool
  | tag Mark.comment _ => false
  | tag Mark.delimiters _ => false
  | _ => true

/-- The nodes that a segment stands for by itself, unless it opens or closes a
block. -/
def leaves? : Segment -> Option (List Node)
  | run s => some [Node.text s]
  | tag Mark.print name => some [Node.print name]
  | tag Mark.embed name => some [Node.embed name]
  | tag Mark.comment _ => some []
  | tag Mark.delimiters _ => some []
  | tag Mark.closing _ => none
  | tag (Mark.opening _) _ => none

end Segment

namespace Node

mutual

def bracketing : Node -> List Segment
  | text s => [Segment.run s]
  | print name => [Segment.tag Mark.print name]
  | embed name => [Segment.tag Mark.embed name]
  | block kind name children =>
      Segment.tag (Mark.opening kind) name ::
        (bracketingAll children ++ [Segment.tag Mark.closing name])

def bracketingAll : List Node -> List Segment
  | [] => []
  | node :: rest => bracketing node ++ bracketingAll rest

end

theorem bracketingAll_append (as bs : List Node) :
    bracketingAll (as ++ bs) = bracketingAll as ++ bracketingAll bs := by
  induction as with
  | nil => rfl
  | cons a as ih => simp [bracketingAll, ih]

theorem depthAll_append (as bs : List Node) :
    depthAll (as ++ bs) = max (depthAll as) (depthAll bs) := by
  induction as with
  | nil => simp [depthAll]
  | cons a as ih => simp [depthAll, ih, Nat.max_assoc]

end Node

namespace Segment

theorem filter_isShown_of_leaves? {segment : Segment} {nodes : List Node}
    (h : segment.leaves? = some nodes) :
    [segment].filter isShown = Node.bracketingAll nodes := by
  unfold leaves? at h
  split at h
  all_goals cases h
  all_goals rfl

theorem depthAll_of_leaves? {segment : Segment} {nodes : List Node}
    (h : segment.leaves? = some nodes) : Node.depthAll nodes = 0 := by
  unfold leaves? at h
  split at h
  all_goals cases h
  all_goals rfl

theorem leaf_or_closing_or_opening (segment : Segment) :
    (exists nodes, segment.leaves? = some nodes) ∨
      (exists name, segment = tag Mark.closing name) ∨
        exists kind name, segment = tag (Mark.opening kind) name := by
  cases segment with
  | run s => exact Or.inl ⟨_, rfl⟩
  | tag mark body =>
      cases mark with
      | opening kind => exact Or.inr (Or.inr ⟨kind, body, rfl⟩)
      | closing => exact Or.inr (Or.inl ⟨body, rfl⟩)
      | print => exact Or.inl ⟨_, rfl⟩
      | embed => exact Or.inl ⟨_, rfl⟩
      | comment => exact Or.inl ⟨_, rfl⟩
      | delimiters => exact Or.inl ⟨_, rfl⟩

end Segment

/-!
## Reading a row, one segment at a time

The reader keeps a bound on what it leaves over for its recursion.  Proofs about
its results use the plain pair of the nodes and the rest.
-/

namespace Nesting

/-- The nodes of a block and the segments after it, without the bound on them. -/
def read (scanFault : Option Fault) (opener : Option Opener) (depth : Nat)
    (row : List LocatedSegment) :
    Except Fault (List Node × List LocatedSegment) :=
  (siblings scanFault opener depth row).map Subtype.val

variable {scanFault : Option Fault} {opener : Option Opener} {depth line : Nat}
variable {rest : List LocatedSegment}

theorem read_nil_none :
    read none none depth [] = Except.ok ([], []) := by
  simp [read, siblings, Except.map]

theorem read_nil_some (o : Opener) :
    read none (some o) depth [] =
      Except.error ⟨o.line, ParseCause.unclosedScope o.name⟩ := by
  simp [read, siblings, Except.map]

theorem read_leaf {segment : Segment} {nodes : List Node}
    (h : segment.leaves? = some nodes) :
    read scanFault opener depth (⟨line, segment⟩ :: rest) =
      (read scanFault opener depth rest).map
        fun parsed => (nodes ++ parsed.1, parsed.2) := by
  unfold Segment.leaves? at h
  split at h
  all_goals cases h
  all_goals
    rw [read, siblings, read]
    cases siblings scanFault opener depth rest with
    | error fault => rfl
    | ok parsed => rfl

theorem read_closing_none (name : Text) :
    read scanFault none depth (⟨line, Segment.tag Mark.closing name⟩ :: rest) =
      Except.error ⟨line, ParseCause.unopenedScope name⟩ := by
  rw [read, siblings]
  rfl

theorem read_closing_some (o : Opener) (name : Text) :
    read scanFault (some o) depth
        (⟨line, Segment.tag Mark.closing name⟩ :: rest) =
      if o.name = name then Except.ok ([], rest)
      else Except.error ⟨line, ParseCause.unmatchedTag name o.name⟩ := by
  rw [read, siblings]
  split
  · rfl
  · rfl

theorem read_opening (kind : BlockKind) (name : Text) :
    read scanFault opener depth
        (⟨line, Segment.tag (Mark.opening kind) name⟩ :: rest) =
      if depth < blockDepthLimit then
        match read scanFault (some ⟨line, name⟩) (depth + 1) rest with
        | Except.error fault => Except.error fault
        | Except.ok inside =>
            (read scanFault opener depth inside.2).map fun parsed =>
              (Node.block kind name inside.1 :: parsed.1, parsed.2)
      else Except.error ⟨line, ParseCause.depthLimitExceeded⟩ := by
  rw [read, siblings]
  split
  · rw [read]
    cases siblings scanFault (some ⟨line, name⟩) (depth + 1) rest with
    | error fault => rfl
    | ok inside =>
        simp only [read, Except.map]
        cases siblings scanFault opener depth inside.val.2 with
        | error fault => rfl
        | ok parsed => rfl
  · rfl

theorem length_read {row : List LocatedSegment} {nodes : List Node}
    (h : read scanFault opener depth row = Except.ok (nodes, rest)) :
    rest.length ≤ row.length := by
  rcases map_eq_ok_iff.mp h with ⟨parsed, _, hval⟩
  have hle := parsed.property
  rw [hval] at hle
  exact hle

/-- The recursion of the reader.  After an opening tag it reads the nodes of the
block, and then goes on with what they leave over. -/
theorem read_induction (scanFault : Option Fault)
    {P : Option Opener -> Nat -> List LocatedSegment -> Prop}
    (nil : forall opener depth, P opener depth [])
    (leaf : forall opener depth line segment leaves rest,
      Segment.leaves? segment = some leaves -> P opener depth rest ->
      P opener depth (⟨line, segment⟩ :: rest))
    (closing : forall opener depth line name rest,
      P opener depth (⟨line, Segment.tag Mark.closing name⟩ :: rest))
    (opening : forall opener depth line kind name rest,
      P (some ⟨line, name⟩) (depth + 1) rest ->
      (forall nodes after,
        read scanFault (some ⟨line, name⟩) (depth + 1) rest =
          Except.ok (nodes, after) -> P opener depth after) ->
      P opener depth (⟨line, Segment.tag (Mark.opening kind) name⟩ :: rest))
    (opener : Option Opener) (depth : Nat) (row : List LocatedSegment) :
    P opener depth row := by
  induction hlength : row.length using Nat.strongRecOn generalizing opener depth row with
  | ind n ih =>
      subst hlength
      cases row with
      | nil =>
          exact nil opener depth
      | cons located rest =>
          rcases located with ⟨line, segment⟩
          have hrest : rest.length < (LocatedSegment.mk line segment :: rest).length :=
            Nat.lt_succ_self _
          rcases segment.leaf_or_closing_or_opening with
            ⟨leaves, hleaf⟩ | ⟨name, rfl⟩ | ⟨kind, name, rfl⟩
          · exact leaf _ _ _ _ leaves _ hleaf (ih _ hrest _ _ _ rfl)
          · exact closing _ _ _ _ _
          · apply opening
            · exact ih _ hrest _ _ _ rfl
            · intro nodes after hread
              have hafter := Nat.lt_of_le_of_lt (length_read hread) hrest
              exact ih _ hafter _ _ _ rfl

/-- Outside of all blocks the nodes end only where the scan ends, so a fault of the
scan is never passed over. -/
theorem read_none_ne_ok {fault : Fault} {row : List LocatedSegment}
    {parsed : List Node × List LocatedSegment} (hopener : opener = none) :
    read (some fault) opener depth row ≠ Except.ok parsed := by
  induction opener, depth, row using read_induction (some fault)
    generalizing parsed with
  | nil opener depth =>
      intro h
      simp [read, siblings, Except.map] at h
  | leaf opener depth line segment leaves rest hleaf ih =>
      intro h
      rw [read_leaf hleaf] at h
      rcases map_eq_ok_iff.mp h with ⟨others, hread, _⟩
      exact ih hopener hread
  | closing opener depth line name rest =>
      intro h
      subst hopener
      rw [read_closing_none] at h
      cases h
  | opening opener depth line kind name rest _ ih =>
      intro h
      rw [read_opening] at h
      split at h
      case isFalse =>
        cases h
      case isTrue =>
        cases hinner : read (some fault) (some ⟨line, name⟩) (depth + 1) rest with
        | error other =>
            rw [hinner] at h
            cases h
        | ok inner =>
            rw [hinner] at h
            rcases map_eq_ok_iff.mp h with ⟨others, houter, _⟩
            exact ih inner.1 inner.2 hinner hopener houter

/-!
## Reading gives the tree of the row
-/

/-- The segments that end the nodes of a block; nothing ends the nodes outside of
all blocks. -/
def closers : Option Opener -> List Segment
  | none => []
  | some o => [Segment.tag Mark.closing o.name]

structure Encloses (opener : Option Opener) (depth : Nat) (nodes : List Node)
    (row after inside : List Segment) : Prop where
  split : row = inside ++ (closers opener ++ after)
  shown : inside.filter Segment.isShown = Node.bracketingAll nodes
  shallow : depth + Node.depthAll nodes ≤ blockDepthLimit
  complete : opener = none -> after = []

variable {nodes others children : List Node} {row middle after : List Segment}
variable {inside beside : List Segment}

theorem Encloses.leaf {segment : Segment} {leaves : List Node}
    (hleaf : segment.leaves? = some leaves)
    (h : Encloses opener depth nodes row after inside) :
    Encloses opener depth (leaves ++ nodes) (segment :: row) after
      (segment :: inside) := by
  refine ⟨?_, ?_, ?_, h.complete⟩
  · rw [h.split, List.cons_append]
  · rw [← List.singleton_append, List.filter_append, h.shown,
      Segment.filter_isShown_of_leaves? hleaf, Node.bracketingAll_append]
  · rw [Node.depthAll_append, Segment.depthAll_of_leaves? hleaf, Nat.zero_max]
    exact h.shallow

theorem Encloses.block {kind : BlockKind} {name : Text}
    (hinside : Encloses (some ⟨line, name⟩) (depth + 1) children row middle inside)
    (hbeside : Encloses opener depth others middle after beside) :
    Encloses opener depth (Node.block kind name children :: others)
      (Segment.tag (Mark.opening kind) name :: row) after
      (Segment.tag (Mark.opening kind) name ::
        (inside ++ Segment.tag Mark.closing name :: beside)) := by
  refine ⟨?_, ?_, ?_, hbeside.complete⟩
  · rw [hinside.split, hbeside.split]
    simp [closers]
  · simp [List.filter_cons, List.filter_append, Segment.isShown, hinside.shown,
      hbeside.shown, Node.bracketingAll, Node.bracketing]
  · have hdeep := hinside.shallow
    have hwide := hbeside.shallow
    simp only [Node.depthAll, Node.depth]
    omega

theorem encloses_of_read {row : List LocatedSegment}
    (hdepth : depth ≤ blockDepthLimit)
    (h : read none opener depth row = Except.ok (nodes, rest)) :
    exists inside : List Segment,
      Encloses opener depth nodes (row.map LocatedSegment.segment)
        (rest.map LocatedSegment.segment) inside := by
  induction opener, depth, row using read_induction none generalizing nodes rest with
  | nil opener depth =>
      cases opener with
      | none =>
          rw [read_nil_none] at h
          cases h
          exact ⟨[], rfl, rfl, hdepth, fun _ => rfl⟩
      | some o =>
          rw [read_nil_some] at h
          cases h
  | leaf opener depth line segment leaves row hleaf ih =>
      rw [read_leaf hleaf] at h
      rcases map_eq_ok_iff.mp h with ⟨parsed, hread, hpair⟩
      cases hpair
      rcases ih hdepth hread with ⟨inside, hinside⟩
      exact ⟨segment :: inside, hinside.leaf hleaf⟩
  | closing opener depth line name row =>
      cases opener with
      | none =>
          rw [read_closing_none] at h
          cases h
      | some o =>
          rw [read_closing_some] at h
          split at h
          case isTrue hname =>
            cases h
            subst hname
            exact ⟨[], rfl, rfl, hdepth, fun hnone => nomatch hnone⟩
          case isFalse =>
            cases h
  | opening opener depth line kind name row ihinside ihbeside =>
      rw [read_opening] at h
      split at h
      case isFalse =>
        cases h
      case isTrue hlt =>
        cases hinner : read none (some ⟨line, name⟩) (depth + 1) row with
        | error fault =>
            rw [hinner] at h
            cases h
        | ok inner =>
            rw [hinner] at h
            rcases map_eq_ok_iff.mp h with ⟨parsed, houter, hpair⟩
            cases hpair
            rcases ihinside hlt hinner with ⟨inside, hinside⟩
            rcases ihbeside inner.1 inner.2 hinner hdepth houter with
              ⟨beside, hbeside⟩
            exact ⟨_, hinside.block hbeside⟩

/-!
## A row is read into its tree
-/

theorem eq_nil_of_bracketingAll_eq_nil (h : Node.bracketingAll nodes = []) :
    nodes = [] := by
  cases nodes with
  | nil => rfl
  | cons node rest =>
      cases node with
      | text s => cases h
      | print n => cases h
      | embed n => cases h
      | block kind n children => cases h

theorem bracketingAll_ne_closing {name : Text} {row : List Segment} :
    Segment.tag Mark.closing name :: row ≠ Node.bracketingAll nodes := by
  intro h
  cases nodes with
  | nil => cases h
  | cons node rest =>
      cases node with
      | text s => cases h
      | print n => cases h
      | embed n => cases h
      | block kind n children => cases h

theorem exists_of_bracketingAll_eq_cons {segment : Segment} {node : Node}
    {row : List Segment} (hleaf : segment.leaves? = some [node])
    (h : segment :: row = Node.bracketingAll nodes) :
    exists others, nodes = node :: others ∧ row = Node.bracketingAll others := by
  cases nodes with
  | nil => cases h
  | cons first rest =>
      cases first with
      | text s =>
          rcases List.cons.inj h with ⟨rfl, hrow⟩
          cases hleaf
          exact ⟨rest, rfl, hrow⟩
      | print n =>
          rcases List.cons.inj h with ⟨rfl, hrow⟩
          cases hleaf
          exact ⟨rest, rfl, hrow⟩
      | embed n =>
          rcases List.cons.inj h with ⟨rfl, hrow⟩
          cases hleaf
          exact ⟨rest, rfl, hrow⟩
      | block kind n children =>
          rcases List.cons.inj h with ⟨rfl, hrow⟩
          cases hleaf

theorem exists_of_leaf {segment : Segment} {leaves : List Node}
    (hleaf : segment.leaves? = some leaves)
    (h : (segment :: inside).filter Segment.isShown = Node.bracketingAll nodes) :
    exists others, nodes = leaves ++ others ∧
      inside.filter Segment.isShown = Node.bracketingAll others := by
  unfold Segment.leaves? at hleaf
  split at hleaf
  case h_1 | h_2 | h_3 =>
    cases hleaf
    rw [List.filter_cons_of_pos rfl] at h
    exact exists_of_bracketingAll_eq_cons rfl h
  case h_4 | h_5 =>
    cases hleaf
    rw [List.filter_cons_of_neg (by simp [Segment.isShown])] at h
    exact ⟨nodes, rfl, h⟩
  case h_6 | h_7 =>
    cases hleaf

theorem exists_of_opening {kind : BlockKind} {name : Text}
    (h : (Segment.tag (Mark.opening kind) name :: inside).filter Segment.isShown =
      Node.bracketingAll nodes) :
    exists children others first second,
      nodes = Node.block kind name children :: others ∧
        inside = first ++ Segment.tag Mark.closing name :: second ∧
          first.filter Segment.isShown = Node.bracketingAll children ∧
            second.filter Segment.isShown = Node.bracketingAll others := by
  rw [List.filter_cons_of_pos rfl] at h
  cases nodes with
  | nil => cases h
  | cons node others =>
      cases node with
      | text s => cases h
      | print n => cases h
      | embed n => cases h
      | block k n children =>
          rcases List.cons.inj h with ⟨hopening, hinside⟩
          cases hopening
          have hparts : inside.filter Segment.isShown =
              Node.bracketingAll children ++
                Segment.tag Mark.closing name :: Node.bracketingAll others := by
            simpa using hinside
          rcases List.filter_eq_append_iff.mp hparts with
            ⟨first, behind, rfl, hfirst, hbehind⟩
          rcases List.filter_eq_cons_iff.mp hbehind with
            ⟨hidden, second, rfl, hhidden, _, hsecond⟩
          refine ⟨children, others, first ++ hidden, second, rfl, ?_, ?_, hsecond⟩
          · simp
          · rw [List.filter_append, hfirst, List.filter_eq_nil_iff.mpr hhidden,
              List.append_nil]

theorem Encloses.exists_read_of_nil {row : List LocatedSegment}
    (h : Encloses opener depth nodes (row.map LocatedSegment.segment) after []) :
    exists rest : List LocatedSegment,
      read none opener depth row = Except.ok (nodes, rest) ∧
        rest.map LocatedSegment.segment = after := by
  have hnodes : nodes = [] := eq_nil_of_bracketingAll_eq_nil h.shown.symm
  have hrow := h.split
  subst hnodes
  cases opener with
  | none =>
      rw [h.complete rfl] at hrow ⊢
      rw [List.map_eq_nil_iff.mp hrow]
      exact ⟨[], read_nil_none, rfl⟩
  | some o =>
      rcases List.map_eq_cons_iff.mp hrow with ⟨located, rest, rfl, hsegment, hrest⟩
      rcases located with ⟨line, segment⟩
      cases hsegment
      exact ⟨rest, by rw [read_closing_some, if_pos rfl], hrest⟩

theorem Encloses.of_leaf {segment : Segment} {leaves : List Node}
    (hleaf : segment.leaves? = some leaves)
    (h : Encloses opener depth nodes (segment :: row) after (segment :: inside)) :
    exists others, nodes = leaves ++ others ∧
      Encloses opener depth others row after inside := by
  rcases exists_of_leaf hleaf h.shown with ⟨others, rfl, hshown⟩
  refine ⟨others, rfl, (List.cons.inj h.split).2, hshown, ?_, h.complete⟩
  have hshallow := h.shallow
  rw [Node.depthAll_append] at hshallow
  omega

theorem Encloses.of_opening {kind : BlockKind} {name : Text} (line : Nat)
    (h : Encloses opener depth nodes (Segment.tag (Mark.opening kind) name :: row)
      after (Segment.tag (Mark.opening kind) name :: inside)) :
    depth < blockDepthLimit ∧
      exists children others middle first second,
        nodes = Node.block kind name children :: others ∧
          Encloses (some ⟨line, name⟩) (depth + 1) children row middle first ∧
            Encloses opener depth others middle after second := by
  rcases exists_of_opening h.shown with
    ⟨children, others, first, second, rfl, rfl, hfirst, hsecond⟩
  have hrow := (List.cons.inj h.split).2
  have hshallow := h.shallow
  simp only [Node.depthAll, Node.depth] at hshallow
  refine ⟨by omega, children, others, second ++ (closers opener ++ after), first,
    second, rfl, ⟨?_, hfirst, by omega, fun hnone => absurd hnone (Option.some_ne_none _)⟩,
    ⟨rfl, hsecond, by omega, h.complete⟩⟩
  rw [hrow]
  simp [closers]

theorem exists_read_of_encloses {row : List LocatedSegment}
    (h : Encloses opener depth nodes (row.map LocatedSegment.segment) after inside) :
    exists rest : List LocatedSegment,
      read none opener depth row = Except.ok (nodes, rest) ∧
        rest.map LocatedSegment.segment = after := by
  induction opener, depth, row using read_induction none
    generalizing nodes after inside with
  | nil opener depth =>
      cases inside with
      | nil => exact h.exists_read_of_nil
      | cons segment inside => cases h.split
  | leaf opener depth line segment leaves row hleaf ih =>
      cases inside with
      | nil => exact h.exists_read_of_nil
      | cons head inside =>
          cases (List.cons.inj h.split).1
          rcases h.of_leaf hleaf with ⟨others, rfl, hrest⟩
          rcases ih hrest with ⟨rest, hread, hafter⟩
          refine ⟨rest, ?_, hafter⟩
          rw [read_leaf hleaf, hread]
          rfl
  | closing opener depth line name row =>
      cases inside with
      | nil => exact h.exists_read_of_nil
      | cons head inside =>
          cases (List.cons.inj h.split).1
          have hshown := h.shown
          rw [List.filter_cons_of_pos rfl] at hshown
          exact absurd hshown bracketingAll_ne_closing
  | opening opener depth line kind name row ihinside ihbeside =>
      cases inside with
      | nil => exact h.exists_read_of_nil
      | cons head inside =>
          cases (List.cons.inj h.split).1
          rcases h.of_opening line with
            ⟨hlt, children, others, middle, first, second, rfl, hinner, houter⟩
          rcases ihinside hinner with ⟨between, hread, rfl⟩
          rcases ihbeside children between hread houter with ⟨rest, hread', hafter⟩
          refine ⟨rest, ?_, hafter⟩
          rw [read_opening, if_pos hlt, hread]
          simp only [hread']
          rfl

end Nesting

end Stencil
