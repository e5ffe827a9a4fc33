import Stencil.Proofs.Template.Fence
import Stencil.Proofs.Template.Stack

/-!
# Progress of a scan

## Rounds

A scan goes on in rounds.  While some of the source is left, a round cuts off the next
segment, or it fails and leaves nothing.  No delimiters that can be in force are empty, so
every round shortens what is left, and there are no more rounds than characters in the
source.

The nodes of a template are read while the source is scanned: the reader asks for one
segment at a time, and the scanner passes over comments and changes of delimiters before
it answers.  This reading is stated here with a budget of rounds, and it gives up when a
round is needed that is not left.
-/

namespace Stencil

namespace Segment

def leastLength (d : Delimiters) : Segment -> Nat
  | run _ => 1
  | tag _ _ => d.left.length + 1 + d.right.length

variable {d d' : Delimiters} {segment : Segment} {rest source : Text}

theorem leastLength_pos (d : Delimiters) (segment : Segment) :
    0 < segment.leastLength d := by
  cases segment with
  | run s => exact Nat.one_pos
  | tag mark body =>
      rw [leastLength]
      omega

theorem CutOff.source_eq (h : CutOff d segment d' rest source) :
    source = segment.spell d ++ rest := by
  cases h with
  | run _ _ => rfl
  | tag _ _ => simp [spell]
  | change _ _ => simp [spell]

theorem CutOff.leastLength_le (h : CutOff d segment d' rest source) :
    segment.leastLength d ≤ (segment.spell d).length := by
  cases h with
  | run hne _ => exact List.length_pos_iff.mpr hne
  | tag _ _ =>
      simp only [leastLength, spell, List.length_append, List.length_cons]
      omega
  | change _ _ =>
      simp only [leastLength, spell, List.length_append, List.length_cons]
      omega

end Segment

namespace Scanner

variable {s after : Scanner} {located : LocatedSegment} {fault : Fault}
variable {rounds left : Nat} {source : Text}

/-!
## A round that fails
-/

structure Exhausts (s after : Scanner) : Prop where
  rest_eq_nil : after.rest = []
  delimiters_eq : after.delimiters = s.delimiters

theorem exhausts_of_fail {cause : ParseCause}
    (h : s.fail cause = (Except.error fault, after)) : s.Exhausts after := by
  cases h
  exact ⟨rfl, rfl⟩

theorem exhausts_of_finishTag {line : Nat} {mark : Mark} {body : Text}
    (h : s.finishTag line mark body = (Except.error fault, after)) :
    s.Exhausts after := by
  unfold finishTag at h
  split at h
  case h_1 =>
    split at h
    case h_1 => exact exhausts_of_fail h
    case h_2 => cases h
  case h_2 => cases h

theorem exhausts_of_cut (h : s.cut = (Except.error fault, after)) :
    s.Exhausts after := by
  unfold cut at h
  split at h
  case h_2 => cases h
  case h_1 inside _ =>
    cases inside with
    | nil => exact exhausts_of_fail h
    | cons c rest =>
        unfold cutTag at h
        cases hmark : Mark.ofChar? c with
        | none =>
            simp only [hmark] at h
            exact exhausts_of_fail h
        | some mark =>
            cases hcut : Text.cutAround? s.delimiters.right rest with
            | none =>
                simp only [hmark, hcut] at h
                exact exhausts_of_fail h
            | some parts =>
                simp only [hmark, hcut] at h
                have hbehind := exhausts_of_finishTag h
                exact ⟨hbehind.rest_eq_nil, hbehind.delimiters_eq⟩

/-!
## States of a scan
-/

inductive Reached (source : Text) : Nat -> Scanner -> Prop where
  | start : Reached source 0 (start source)
  | round {rounds : Nat} {s : Scanner} :
      Reached source rounds s -> s.rest ≠ [] -> Reached source (rounds + 1) s.cut.2

theorem proper_cut (hproper : s.delimiters.Proper) (hne : s.rest ≠ []) :
    s.cut.2.delimiters.Proper := by
  rcases hcut : s.cut with ⟨outcome, after⟩
  cases outcome with
  | error fault =>
      rw [(exhausts_of_cut hcut).delimiters_eq]
      exact hproper
  | ok located => exact (cutOff_of_cut hne hcut).proper hproper

/-- Every round shortens what is left, whether it fails or not. -/
theorem length_rest_cut (hne : s.rest ≠ []) : s.cut.2.rest.length < s.rest.length := by
  rcases hcut : s.cut with ⟨outcome, after⟩
  cases outcome with
  | error fault =>
      rw [(exhausts_of_cut hcut).rest_eq_nil]
      exact List.length_pos_iff.mpr hne
  | ok located => exact cut_shortens hne hcut

theorem Reached.proper (h : Reached source rounds s) : s.delimiters.Proper := by
  induction h with
  | start => exact Delimiters.proper_initial
  | round _ hne ih => exact proper_cut ih hne

/-- The rounds are paid for by the part of the source that has been passed. -/
theorem Reached.rounds_le (h : Reached source rounds s) :
    rounds + s.rest.length ≤ source.length := by
  induction h with
  | start => exact Nat.le_of_eq (Nat.zero_add _)
  | round _ hne ih =>
      have hshorter := length_rest_cut hne
      omega

/-- From every state a scan goes on until nothing is left. -/
theorem Reached.exists_exhausted (h : Reached source rounds s) :
    exists rounds' s', Reached source rounds' s' ∧ s'.rest = [] := by
  induction hlength : s.rest.length using Nat.strongRecOn generalizing rounds s with
  | ind length ih =>
      by_cases hnil : s.rest = []
      · exact ⟨rounds, s, h, hnil⟩
      · exact ih _ (hlength ▸ length_rest_cut hnil) (h.round hnil) rfl

structure Advances (s after : Scanner) (segment : Segment) : Prop where
  spelled : s.rest = segment.spell s.delimiters ++ after.rest
  length_le : after.rest.length + segment.leastLength s.delimiters ≤ s.rest.length

theorem advances_of_cut (hne : s.rest ≠ []) (h : s.cut = (Except.ok located, after)) :
    s.Advances after located.segment := by
  have hcut := cutOff_of_cut hne h
  have hleast := hcut.leastLength_le
  refine ⟨hcut.source_eq, ?_⟩
  rw [hcut.source_eq, List.length_append]
  omega

theorem Advances.suffix {segment : Segment} (h : s.Advances after segment) :
    after.rest <:+ s.rest :=
  ⟨_, h.spelled.symm⟩

theorem Advances.rest_ne {segment : Segment} (h : s.Advances after segment) :
    after.rest ≠ s.rest := by
  intro heq
  have hpos := segment.leastLength_pos s.delimiters
  have hle := h.length_le
  rw [heq] at hle
  omega

/-!
## One segment after another
-/

/-- The next segment that belongs to a node, or nothing at the end of the source, with the
scanner behind it and the rounds that are left.  Without a result the rounds do not
suffice. -/
def nextWithin :
    Nat -> Scanner -> Option (Except Fault (Option LocatedSegment) × Scanner × Nat)
  | 0, s => if s.rest = [] then some (Except.ok none, s, 0) else none
  | rounds + 1, s =>
      if s.rest = [] then some (Except.ok none, s, rounds + 1)
      else
        match s.cut with
        | (Except.error fault, after) => some (Except.error fault, after, rounds)
        | (Except.ok located, after) =>
            if located.segment.isShown then
              some (Except.ok (some located), after, rounds)
            else after.nextWithin rounds

inductive Finds : Scanner -> Nat ->
    Except Fault (Option LocatedSegment) × Scanner × Nat -> Prop where
  | nothing {s : Scanner} {rounds : Nat} :
      s.rest = [] ->
      Finds s rounds (Except.ok none, s, rounds)
  | fault {s after : Scanner} {fault : Fault} {rounds : Nat} :
      s.rest ≠ [] ->
      s.cut = (Except.error fault, after) ->
      Finds s (rounds + 1) (Except.error fault, after, rounds)
  | segment {s after : Scanner} {located : LocatedSegment} {rounds : Nat} :
      s.rest ≠ [] ->
      s.cut = (Except.ok located, after) ->
      located.segment.isShown = true ->
      Finds s (rounds + 1) (Except.ok (some located), after, rounds)
  | pass {s after : Scanner} {located : LocatedSegment} {rounds : Nat}
      {found : Except Fault (Option LocatedSegment) × Scanner × Nat} :
      s.rest ≠ [] ->
      s.cut = (Except.ok located, after) ->
      located.segment.isShown = false ->
      Finds after rounds found ->
      Finds s (rounds + 1) found

variable {outcome : Except Fault (Option LocatedSegment)}
variable {found : Except Fault (Option LocatedSegment) × Scanner × Nat}

theorem Finds.nextWithin_eq (h : Finds s rounds found) :
    s.nextWithin rounds = some found := by
  induction h with
  | @nothing s rounds hnil =>
      cases rounds with
      | zero => rw [nextWithin, if_pos hnil]
      | succ rounds => rw [nextWithin, if_pos hnil]
  | fault hne hcut => rw [nextWithin, if_neg hne, hcut]
  | segment hne hcut hshown =>
      rw [nextWithin, if_neg hne, hcut]
      exact if_pos hshown
  | pass hne hcut hhidden _ ih =>
      rw [nextWithin, if_neg hne, hcut]
      exact (if_neg (Bool.eq_false_iff.mp hhidden)).trans ih

theorem exists_finds (h : s.rest.length ≤ rounds) : exists found, Finds s rounds found := by
  induction rounds generalizing s with
  | zero =>
      have hnil := List.eq_nil_of_length_eq_zero (Nat.le_zero.mp h)
      exact ⟨_, Finds.nothing hnil⟩
  | succ rounds ih =>
      by_cases hnil : s.rest = []
      · exact ⟨_, Finds.nothing hnil⟩
      · rcases hcut : s.cut with ⟨outcome, after⟩
        cases outcome with
        | error fault => exact ⟨_, Finds.fault hnil hcut⟩
        | ok located =>
            cases hshown : located.segment.isShown with
            | true => exact ⟨_, Finds.segment hnil hcut hshown⟩
            | false =>
                have hshorter := cut_shortens hnil hcut
                rcases ih (s := after) (by omega) with ⟨found, hfound⟩
                exact ⟨found, Finds.pass hnil hcut hshown hfound⟩

theorem finds_of_nextWithin (h : s.nextWithin rounds = some found) :
    Finds s rounds found := by
  induction rounds generalizing s with
  | zero =>
      rw [nextWithin] at h
      split at h
      case isTrue hnil =>
        cases h
        exact Finds.nothing hnil
      case isFalse => cases h
  | succ rounds ih =>
      rw [nextWithin] at h
      split at h
      case isTrue hnil =>
        cases h
        exact Finds.nothing hnil
      case isFalse hne =>
        split at h
        case h_1 hcut =>
          cases h
          exact Finds.fault hne hcut
        case h_2 hcut =>
          split at h
          case isTrue hshown =>
            cases h
            exact Finds.segment hne hcut hshown
          case isFalse hhidden =>
            exact Finds.pass hne hcut (Bool.eq_false_iff.mpr hhidden) (ih h)

theorem Finds.left_le (h : Finds s rounds found) :
    found.2.2 ≤ rounds ∧ (found.1 ≠ Except.ok none -> found.2.2 < rounds) := by
  induction h with
  | nothing _ => exact ⟨Nat.le_refl _, fun hne => absurd rfl hne⟩
  | fault _ _ => exact ⟨Nat.le_succ _, fun _ => Nat.lt_succ_self _⟩
  | segment _ _ _ => exact ⟨Nat.le_succ _, fun _ => Nat.lt_succ_self _⟩
  | pass _ _ _ _ ih =>
      exact ⟨Nat.le_succ_of_le ih.1, fun hne => Nat.lt_succ_of_lt (ih.2 hne)⟩

theorem Finds.length_rest_le (h : Finds s rounds found) (hbudget : s.rest.length ≤ rounds) :
    found.2.1.rest.length ≤ found.2.2 := by
  induction h with
  | nothing _ => exact hbudget
  | fault hne hcut =>
      rw [(exhausts_of_cut hcut).rest_eq_nil]
      exact Nat.zero_le _
  | segment hne hcut _ =>
      have hshorter := cut_shortens hne hcut
      dsimp only
      omega
  | pass hne hcut _ _ ih =>
      have hshorter := cut_shortens hne hcut
      exact ih (by omega)

theorem Finds.exhausted (h : Finds s rounds found)
    (hnone : forall located, found.1 ≠ Except.ok (some located)) :
    found.2.1.rest = [] := by
  induction h with
  | nothing hnil => exact hnil
  | fault _ hcut => exact (exhausts_of_cut hcut).rest_eq_nil
  | segment _ _ _ => exact absurd rfl (hnone _)
  | pass _ _ _ _ ih => exact ih hnone

end Scanner

end Stencil
