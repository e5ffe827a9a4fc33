import Stencil.Proofs.Template.Progress

/-!
# Reading while scanning

## One segment at a time

A source is scanned as far as its nodes are read: recursive descent asks the scanner for
the next segment when it needs one, and stops at the first fault of either.  Reading in
this way gives what reading all segments of a finished scan gives, and it needs no more
rounds of the scanner than the source has characters.
-/

namespace Stencil

namespace Nesting

structure Pulled (rounds : Nat) where
  nodes : List Node
  after : Scanner
  left : Nat
  left_le : left ≤ rounds

namespace Pulled

def behind {left rounds : Nat} (nodes : List Node) (hle : left ≤ rounds)
    (p : Pulled left) : Pulled rounds :=
  ⟨nodes ++ p.nodes, p.after, p.left, Nat.le_trans p.left_le hle⟩

end Pulled

/-- Reads the nodes up to the closing tag of `opener`, or up to the end of the source if no
block is open.  Without a result the rounds do not suffice. -/
def siblingsWithin (rounds : Nat) (s : Scanner) (opener : Option Opener) (depth : Nat) :
    Option (Except Fault (Pulled rounds)) :=
  match hnext : s.nextWithin rounds with
  | none => none
  | some (Except.error fault, _, _) => some (Except.error fault)
  | some (Except.ok none, after, left) =>
      match opener with
      | some o => some (Except.error ⟨o.line, ParseCause.unclosedScope o.name⟩)
      | none =>
          some (Except.ok ⟨[], after, left, (Scanner.finds_of_nextWithin hnext).left_le.1⟩)
  | some (Except.ok (some located), after, left) =>
      have hless : left < rounds :=
        (Scanner.finds_of_nextWithin hnext).left_le.2 fun h => nomatch h
      match located.segment with
      | Segment.tag Mark.closing name =>
          match opener with
          | none => some (Except.error ⟨located.line, ParseCause.unopenedScope name⟩)
          | some o =>
              if o.name = name then
                some (Except.ok ⟨[], after, left, Nat.le_of_lt hless⟩)
              else some (Except.error ⟨located.line, ParseCause.unmatchedTag name o.name⟩)
      | Segment.tag (Mark.opening kind) name =>
          if depth < blockDepthLimit then
            match siblingsWithin left after (some ⟨located.line, name⟩) (depth + 1) with
            | none => none
            | some (Except.error fault) => some (Except.error fault)
            | some (Except.ok inside) =>
                have hinside := Nat.lt_of_le_of_lt inside.left_le hless
                (siblingsWithin inside.left inside.after opener depth).map
                  (Except.map (Pulled.behind [Node.block kind name inside.nodes]
                    (Nat.le_of_lt hinside)))
          else some (Except.error ⟨located.line, ParseCause.depthLimitExceeded⟩)
      | leaf =>
          (siblingsWithin left after opener depth).map
            (Except.map (Pulled.behind (leaf.leaves?.getD []) (Nat.le_of_lt hless)))
termination_by rounds

/-!
## The same reading

Comments and changes of delimiters leave no nodes, so what is ahead of a scanner reads like
what is ahead of the segment that it finds next.
-/

variable {s after : Scanner} {rounds left depth line : Nat}
variable {opener : Option Opener} {scanFault : Option Fault} {fault : Fault}

theorem read_of_not_shown {segment : Segment} (h : segment.isShown = false)
    (row : List LocatedSegment) :
    read scanFault opener depth (⟨line, segment⟩ :: row) =
      read scanFault opener depth row := by
  have hleaf : segment.leaves? = some [] := by
    unfold Segment.isShown at h
    split at h
    case h_1 => rfl
    case h_2 => rfl
    case h_3 => cases h
  rw [read_leaf hleaf]
  cases read scanFault opener depth row with
  | error found => rfl
  | ok parsed => rfl

/-- The segments ahead, from the one that was found on, and the fault that ends them. -/
def ahead : Except Fault (Option LocatedSegment) × Scanner × Nat ->
    List LocatedSegment × Option Fault
  | (Except.ok none, _, _) => ([], none)
  | (Except.error fault, _, _) => ([], some fault)
  | (Except.ok (some located), after, _) =>
      (located :: after.segments.1, after.segments.2)

def reading (s : Scanner) (opener : Option Opener) (depth : Nat) :
    Except Fault (List Node × List LocatedSegment) :=
  read s.segments.2 opener depth s.segments.1

theorem reading_of_finds (opener : Option Opener) (depth : Nat)
    {found : Except Fault (Option LocatedSegment) × Scanner × Nat}
    (h : Scanner.Finds s rounds found) :
    s.segments.2 = (ahead found).2 ∧
      reading s opener depth = read (ahead found).2 opener depth (ahead found).1 := by
  unfold reading
  induction h with
  | nothing hnil =>
      rw [Scanner.segments_of_rest_nil hnil]
      exact ⟨rfl, rfl⟩
  | fault hne hcut =>
      rw [Scanner.segments_of_cut_error hne (congrArg Prod.fst hcut)]
      exact ⟨rfl, rfl⟩
  | segment hne hcut _ =>
      rw [Scanner.segments_of_cut hne hcut]
      exact ⟨rfl, rfl⟩
  | pass hne hcut hhidden _ ih =>
      rw [Scanner.segments_of_cut hne hcut]
      exact ⟨ih.1, (read_of_not_shown hhidden _).trans ih.2⟩

/-- The result within the rounds is the expected one, and what is read next is what is
expected to be left. -/
def Agrees (scanFault : Option Fault)
    (expected : Except Fault (List Node × List LocatedSegment))
    (result : Option (Except Fault (Pulled rounds))) : Prop :=
  (exists fault, expected = Except.error fault ∧ result = some (Except.error fault)) ∨
    exists p : Pulled rounds,
      expected = Except.ok (p.nodes, p.after.segments.1) ∧
        result = some (Except.ok p) ∧ p.after.segments.2 = scanFault ∧
          p.after.rest.length ≤ p.left

theorem Agrees.behind {expected : Except Fault (List Node × List LocatedSegment)}
    {result : Option (Except Fault (Pulled left))}
    (h : Agrees scanFault expected result) (nodes : List Node) (hle : left ≤ rounds) :
    Agrees scanFault
      (expected.map fun parsed => (nodes ++ parsed.1, parsed.2))
      (result.map (Except.map (Pulled.behind nodes hle))) := by
  rcases h with ⟨fault, rfl, rfl⟩ | ⟨p, rfl, rfl, hscan, hlength⟩
  · exact Or.inl ⟨fault, rfl, rfl⟩
  · exact Or.inr ⟨p.behind nodes hle, rfl, rfl, hscan, hlength⟩

/-- With a round for each character that is left, the reader gives what it gives for all
segments. -/
theorem agrees_siblingsWithin (s : Scanner) (opener : Option Opener) (depth : Nat)
    (hbudget : s.rest.length ≤ rounds) :
    Agrees s.segments.2 (reading s opener depth)
      (siblingsWithin rounds s opener depth) := by
  induction rounds using Nat.strongRecOn generalizing s opener depth with
  | ind rounds ih =>
      rw [siblingsWithin]
      split
      case h_1 hnext =>
        rcases Scanner.exists_finds hbudget with ⟨found, hfound⟩
        rw [hfound.nextWithin_eq] at hnext
        cases hnext
      case h_2 fault after left hnext =>
        rw [(reading_of_finds opener depth (Scanner.finds_of_nextWithin hnext)).2]
        exact Or.inl ⟨fault, read_nil_of_fault fault opener depth, rfl⟩
      case h_3 after left hnext =>
        have hfound := Scanner.finds_of_nextWithin hnext
        have hnil : after.rest = [] := hfound.exhausted fun located h => nomatch h
        rcases reading_of_finds opener depth hfound with ⟨hscan, hreading⟩
        rw [hreading, hscan]
        cases opener with
        | some o => exact Or.inl ⟨_, read_nil_some o, rfl⟩
        | none =>
            have hsegments := Scanner.segments_of_rest_nil hnil
            refine Or.inr ⟨_, ?_, rfl, congrArg Prod.snd hsegments, ?_⟩
            · dsimp only [ahead]
              rw [read_nil_none, hsegments]
            · exact hfound.length_rest_le hbudget
      case h_4 located after left hnext =>
        have hfound := Scanner.finds_of_nextWithin hnext
        have hless : left < rounds := hfound.left_le.2 fun h => nomatch h
        have hafter : after.rest.length ≤ left := hfound.length_rest_le hbudget
        rcases reading_of_finds opener depth hfound with ⟨hscan, hreading⟩
        rw [hreading, hscan]
        rcases located with ⟨line, segment⟩
        dsimp only [ahead]
        split
        case h_1 name =>
          cases opener with
          | none => exact Or.inl ⟨_, read_closing_none name, rfl⟩
          | some o =>
              dsimp only
              rw [read_closing_some]
              split
              · exact Or.inr ⟨_, rfl, rfl, rfl, hafter⟩
              · exact Or.inl ⟨_, rfl, rfl⟩
        case h_2 kind name =>
          rw [read_opening]
          split
          case isFalse => exact Or.inl ⟨_, rfl, rfl⟩
          case isTrue =>
            -- The block is read first, and what it leaves is read behind it.
            rcases ih left hless after (some ⟨line, name⟩) (depth + 1) hafter with
              ⟨fault, hread, hresult⟩ | ⟨inside, hread, hresult, hfault, hlength⟩
            · rw [reading] at hread
              rw [hread, hresult]
              exact Or.inl ⟨fault, rfl, rfl⟩
            · have hinside := Nat.lt_of_le_of_lt inside.left_le hless
              have hbeside := ih inside.left hinside inside.after opener depth hlength
              rw [reading] at hread
              rw [reading, hfault] at hbeside
              rw [hread, hresult]
              exact hbeside.behind [Node.block kind name inside.nodes]
                (Nat.le_of_lt hinside)
        case h_3 hclosing hopening =>
          have hbehind := ih left hless after opener depth hafter
          rcases segment.leaf_or_closing_or_opening with
            ⟨leaves, hleaf⟩ | ⟨name, hname⟩ | ⟨kind, name, hname⟩
          · rw [read_leaf hleaf, hleaf]
            exact hbehind.behind leaves (Nat.le_of_lt hless)
          · exact absurd hname (hclosing name)
          · exact absurd hname (hopening kind name)

end Nesting

/-- Reads a source into nodes while it is scanned.  Without a result the rounds do not
suffice. -/
def Node.ofSourceWithin (rounds : Nat) (source : Text) :
    Option (Except Fault (List Node)) :=
  (Nesting.siblingsWithin rounds (Scanner.start source) none 0).map
    (Except.map Nesting.Pulled.nodes)

theorem Node.ofSourceWithin_eq {rounds : Nat} {source : Text}
    (h : source.length ≤ rounds) : ofSourceWithin rounds source = some (ofSource? source) := by
  have hagrees := Nesting.agrees_siblingsWithin (Scanner.start source) none 0 h
  rw [Nesting.reading] at hagrees
  rw [ofSourceWithin, ofSource?_eq_map_read]
  rcases hagrees with ⟨fault, hread, hresult⟩ | ⟨p, hread, hresult, _, _⟩
  · rw [hread, hresult]
    rfl
  · rw [hread, hresult]
    rfl

/-- A scan makes progress and ends.  In every state that it can reach the delimiters are
proper, each round that does not fail takes a segment off what is left and leaves a shorter
part of it, and after a fault only the end of the source is ever found.  So neither the scan
nor the reading of nodes takes more rounds than the source has characters. -/
theorem Scanner.progresses (source : Text) :
    (forall rounds s, Reached source rounds s ->
      s.delimiters.Proper ∧
        rounds + s.rest.length ≤ source.length ∧
        (forall located after, s.rest ≠ [] -> s.cut = (Except.ok located, after) ->
          s.Advances after located.segment ∧
            after.rest <:+ s.rest ∧ after.rest ≠ s.rest) ∧
        (forall budget fault after left,
          s.nextWithin budget = some (Except.error fault, after, left) ->
            after.rest = [] ∧
              forall more, after.nextWithin more = some (Except.ok none, after, more)) ∧
        forall budget, s.rest.length ≤ budget ->
          exists found, s.nextWithin budget = some found) ∧
      (exists rounds s, Reached source rounds s ∧ s.rest = []) ∧
      forall budget, source.length ≤ budget ->
        Node.ofSourceWithin budget source = some (Node.ofSource? source) := by
  refine ⟨fun rounds s hreached => ?_, Reached.start.exists_exhausted,
    fun budget => Node.ofSourceWithin_eq⟩
  refine ⟨hreached.proper, hreached.rounds_le, ?_, ?_, ?_⟩
  · intro located after hne hcut
    have hadvances := advances_of_cut hne hcut
    exact ⟨hadvances, hadvances.suffix, hadvances.rest_ne⟩
  · intro budget fault after left hnext
    have hnil : after.rest = [] :=
      (finds_of_nextWithin hnext).exhausted fun located h => nomatch h
    exact ⟨hnil, fun more => (Finds.nothing hnil).nextWithin_eq⟩
  · intro budget hbudget
    rcases exists_finds hbudget with ⟨found, hfound⟩
    exact ⟨found, hfound.nextWithin_eq⟩

/-- Without a round not even a comment is passed over. -/
example :
    ((Scanner.start "\x7b\x7b!\x7d\x7d".toList).nextWithin 0).isNone = true ∧
      ((Scanner.start "\x7b\x7b!\x7d\x7d".toList).nextWithin 1).isSome = true := by
  decide

end Stencil
