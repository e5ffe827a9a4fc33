import Stencil.Proofs.Template.Linewise

/-!
# Filters that absorb one another

## Passes that are taken twice

A filter leaves nothing to do for any of its passes.  So a filter with some of the same
passes changes nothing behind it, and in front of it that filter only does in advance what
is done anyway.

The passes are compared on the lines of a text.  Each pass does one thing to the first
line, another one to the last line and a third one to the lines between them, and these
three go on independently from pass to pass.
-/

namespace Stencil

namespace Filter

/-!
## The first, the last and the inner lines
-/

/-- Changes the first line, the last line and the lines between them.  A text of a single
line stays as it is. -/
def between (onFirst onLast : Text -> Text) (onInner : List Text -> List Text) :
    List Text -> List Text
  | [] => []
  | [line] => [line]
  | first :: next :: rest =>
      onFirst first ::
        (onInner (next :: rest).dropLast ++ [onLast ((next :: rest).getLast (by simp))])

variable {onFirst onLast onFirst' onLast' : Text -> Text}
variable {onInner onInner' : List Text -> List Text}

theorem between_several (first last : Text) (inner : List Text) :
    between onFirst onLast onInner (first :: (inner ++ [last])) =
      onFirst first :: (onInner inner ++ [onLast last]) := by
  cases inner with
  | nil => rfl
  | cons next inner =>
      rw [List.cons_append, between]
      simp only [← List.cons_append, List.dropLast_concat, List.getLast_concat]

theorem several_of_cons_cons (first next : Text) (rest : List Text) :
    exists inner last, first :: next :: rest = first :: (inner ++ [last]) := by
  refine ⟨(next :: rest).dropLast, (next :: rest).getLast (by simp), ?_⟩
  rw [List.dropLast_append_getLast]

theorem between_between (lines : List Text) :
    between onFirst onLast onInner (between onFirst' onLast' onInner' lines) =
      between (fun line => onFirst (onFirst' line)) (fun line => onLast (onLast' line))
        (fun inner => onInner (onInner' inner)) lines := by
  rcases lines with _ | ⟨first, _ | ⟨next, rest⟩⟩
  · rfl
  · rfl
  · rcases several_of_cons_cons first next rest with ⟨inner, last, hlines⟩
    rw [hlines, between_several, between_several, between_several]

theorem between_congr (hfirst : forall line, onFirst line = onFirst' line)
    (hlast : forall line, onLast line = onLast' line)
    (hinner : forall inner, onInner inner = onInner' inner) (lines : List Text) :
    between onFirst onLast onInner lines = between onFirst' onLast' onInner' lines := by
  rw [funext hfirst, funext hlast, funext hinner]

theorem trimIndents_eq_between (lines : List Text) :
    trimIndents lines =
      between id (List.dropWhile isBlank) (List.map (List.dropWhile isBlank)) lines := by
  rcases lines with _ | ⟨first, _ | ⟨next, rest⟩⟩
  · rfl
  · rfl
  · rcases several_of_cons_cons first next rest with ⟨inner, last, hlines⟩
    rw [hlines, between_several]
    simp [trimIndents]

theorem trimTrails_eq_between (lines : List Text) :
    trimTrails lines =
      between (List.rdropWhile isBlank) id (List.map (List.rdropWhile isBlank)) lines := by
  rcases lines with _ | ⟨first, _ | ⟨next, rest⟩⟩
  · rfl
  · rfl
  · rcases several_of_cons_cons first next rest with ⟨inner, last, hlines⟩
    rw [hlines, between_several, ← List.cons_append, trimTrails, List.dropLast_concat,
      List.getLast?_concat]
    rfl

theorem closeGaps_eq_between (lines : List Text) :
    closeGaps lines = between id id (List.filter fun line => !line.isEmpty) lines := by
  rcases lines with _ | ⟨first, _ | ⟨next, rest⟩⟩
  · rfl
  · rfl
  · rcases several_of_cons_cons first next rest with ⟨inner, last, hlines⟩
    rw [hlines, between_several]
    simp [closeGaps, dropEmptyLines]

/-!
## Two passes in turn
-/

theorem rdropWhile_dropWhile (p : Char -> Bool) (line : Text) :
    (line.dropWhile p).rdropWhile p = (line.rdropWhile p).dropWhile p := by
  induction line using List.reverseRecOn with
  | nil => rfl
  | append_singleton line c ih =>
      rw [List.dropWhile_append]
      cases hc : p c with
      | true =>
          rw [List.rdropWhile_concat_pos p line c hc, ← ih]
          split
          case isTrue hempty => simp [hc, List.isEmpty_iff.mp hempty]
          case isFalse => exact List.rdropWhile_concat_pos p _ c hc
      | false =>
          have hkept : ¬ p c = true := by simp [hc]
          rw [List.rdropWhile_concat_neg p line c hkept, List.dropWhile_append]
          split
          case isTrue => simp [hc, List.rdropWhile_singleton]
          case isFalse => exact List.rdropWhile_concat_neg p _ c hkept

section Lines

variable {trim : Text -> Text}

theorem map_trim_map_trim (htrim : forall line, trim (trim line) = trim line)
    (inner : List Text) : (inner.map trim).map trim = inner.map trim := by
  rw [List.map_map]
  exact List.map_congr_left fun line _ => htrim line

/-- Empty lines may be removed before the others are trimmed, if they stay empty. -/
theorem filter_map_filter (hnil : trim [] = []) (inner : List Text) :
    ((inner.filter fun line => !line.isEmpty).map trim).filter (fun line => !line.isEmpty) =
      (inner.map trim).filter fun line => !line.isEmpty := by
  induction inner with
  | nil => rfl
  | cons line inner ih =>
      cases line with
      | nil => simpa [hnil] using ih
      | cons c line => simp [List.filter_cons, ih]

theorem map_filter_map (htrim : forall line, trim (trim line) = trim line)
    (inner : List Text) :
    ((inner.map trim).filter fun line => !line.isEmpty).map trim =
      (inner.map trim).filter fun line => !line.isEmpty := by
  refine Eq.trans (List.map_congr_left ?_) (List.map_id _)
  intro line hmem
  rcases List.mem_map.mp (List.mem_of_mem_filter hmem) with ⟨whole, _, rfl⟩
  exact htrim whole

end Lines

theorem trimIndents_trimIndents (lines : List Text) :
    trimIndents (trimIndents lines) = trimIndents lines := by
  simp only [trimIndents_eq_between, between_between]
  exact between_congr (fun _ => rfl) (List.dropWhile_idempotent isBlank)
    (map_trim_map_trim (List.dropWhile_idempotent isBlank)) lines

theorem trimTrails_trimTrails (lines : List Text) :
    trimTrails (trimTrails lines) = trimTrails lines := by
  simp only [trimTrails_eq_between, between_between]
  exact between_congr (List.rdropWhile_idempotent isBlank) (fun _ => rfl)
    (map_trim_map_trim (List.rdropWhile_idempotent isBlank)) lines

theorem closeGaps_closeGaps (lines : List Text) :
    closeGaps (closeGaps lines) = closeGaps lines := by
  simp only [closeGaps_eq_between, between_between]
  exact between_congr (fun _ => rfl) (fun _ => rfl) (fun inner => by simp) lines

theorem trimTrails_trimIndents (lines : List Text) :
    trimTrails (trimIndents lines) = trimIndents (trimTrails lines) := by
  simp only [trimIndents_eq_between, trimTrails_eq_between, between_between]
  refine between_congr (fun _ => rfl) (fun _ => rfl) (fun inner => ?_) lines
  rw [List.map_map, List.map_map]
  exact List.map_congr_left fun line _ => rdropWhile_dropWhile isBlank line

theorem trimIndents_closeGaps_trimIndents (lines : List Text) :
    trimIndents (closeGaps (trimIndents lines)) = closeGaps (trimIndents lines) := by
  simp only [trimIndents_eq_between, closeGaps_eq_between, between_between]
  exact between_congr (fun _ => rfl) (List.dropWhile_idempotent isBlank)
    (map_filter_map (List.dropWhile_idempotent isBlank)) lines

theorem trimTrails_closeGaps_trimTrails (lines : List Text) :
    trimTrails (closeGaps (trimTrails lines)) = closeGaps (trimTrails lines) := by
  simp only [trimTrails_eq_between, closeGaps_eq_between, between_between]
  exact between_congr (List.rdropWhile_idempotent isBlank) (fun _ => rfl)
    (map_filter_map (List.rdropWhile_idempotent isBlank)) lines

theorem closeGaps_trimIndents_closeGaps (lines : List Text) :
    closeGaps (trimIndents (closeGaps lines)) = closeGaps (trimIndents lines) := by
  simp only [trimIndents_eq_between, closeGaps_eq_between, between_between]
  exact between_congr (fun _ => rfl) (fun _ => rfl) (filter_map_filter rfl) lines

theorem closeGaps_trimTrails_closeGaps (lines : List Text) :
    closeGaps (trimTrails (closeGaps lines)) = closeGaps (trimTrails lines) := by
  simp only [trimTrails_eq_between, closeGaps_eq_between, between_between]
  exact between_congr (fun _ => rfl) (fun _ => rfl) (filter_map_filter rfl) lines

/-!
## Passes and whole filters
-/

structure PartOf (part whole : Filter) : Prop where
  trimLeft : part.trimLeft = true -> whole.trimLeft = true
  trimRight : part.trimRight = true -> whole.trimRight = true
  collapse : part.collapse = true -> whole.collapse = true

variable {part filter : Filter}

/-- A pass of the filter may be taken in advance. -/
theorem onLines_trimIndents (h : filter.trimLeft = true) (lines : List Text) :
    filter.onLines (trimIndents lines) = filter.onLines lines := by
  simp only [onLines, h, if_true, trimIndents_trimIndents]

theorem onLines_trimTrails (h : filter.trimRight = true) (lines : List Text) :
    filter.onLines (trimTrails lines) = filter.onLines lines := by
  simp only [onLines, h, if_true]
  cases filter.trimLeft with
  | false => simp only [Bool.false_eq_true, if_false, trimTrails_trimTrails]
  | true => simp only [if_true, ← trimTrails_trimIndents, trimTrails_trimTrails]

theorem onLines_closeGaps (h : filter.collapse = true) (lines : List Text) :
    filter.onLines (closeGaps lines) = filter.onLines lines := by
  simp only [onLines, h, if_true]
  cases filter.trimLeft with
  | false =>
      cases filter.trimRight with
      | false => simp only [Bool.false_eq_true, if_false, closeGaps_closeGaps]
      | true => simp only [Bool.false_eq_true, if_false, if_true, closeGaps_trimTrails_closeGaps]
  | true =>
      cases filter.trimRight with
      | false => simp only [Bool.false_eq_true, if_false, if_true, closeGaps_trimIndents_closeGaps]
      | true =>
          simp only [if_true]
          rw [← closeGaps_trimTrails_closeGaps, closeGaps_trimIndents_closeGaps,
            closeGaps_trimTrails_closeGaps]

theorem trimIndents_onLines (h : filter.trimLeft = true) (lines : List Text) :
    trimIndents (filter.onLines lines) = filter.onLines lines := by
  simp only [onLines, h, if_true]
  cases filter.trimRight with
  | false =>
      cases filter.collapse with
      | false => exact trimIndents_trimIndents lines
      | true => exact trimIndents_closeGaps_trimIndents lines
  | true =>
      simp only [if_true, trimTrails_trimIndents]
      cases filter.collapse with
      | false => exact trimIndents_trimIndents _
      | true => exact trimIndents_closeGaps_trimIndents _

theorem trimTrails_onLines (h : filter.trimRight = true) (lines : List Text) :
    trimTrails (filter.onLines lines) = filter.onLines lines := by
  simp only [onLines, h, if_true]
  cases filter.collapse with
  | false => exact trimTrails_trimTrails _
  | true => exact trimTrails_closeGaps_trimTrails _

theorem closeGaps_onLines (h : filter.collapse = true) (lines : List Text) :
    closeGaps (filter.onLines lines) = filter.onLines lines := by
  simp only [onLines, h, if_true]
  exact closeGaps_closeGaps _

theorem onLines_before (h : part.PartOf filter) (lines : List Text) :
    filter.onLines (part.onLines lines) = filter.onLines lines := by
  have hadvance : forall {chosen : Bool} {pass : List Text -> List Text} (others : List Text),
      (chosen = true -> filter.onLines (pass others) = filter.onLines others) ->
      filter.onLines (if chosen then pass others else others) = filter.onLines others := by
    intro chosen pass others hpass
    rw [apply_ite filter.onLines]
    exact ite_eq_right_iff.mpr hpass
  calc
    filter.onLines (part.onLines lines)
      = filter.onLines (if part.trimRight then
          trimTrails (if part.trimLeft then trimIndents lines else lines)
          else (if part.trimLeft then trimIndents lines else lines)) :=
        hadvance _ fun hchosen => onLines_closeGaps (h.collapse hchosen) _
    _ = filter.onLines (if part.trimLeft then trimIndents lines else lines) :=
        hadvance _ fun hchosen => onLines_trimTrails (h.trimRight hchosen) _
    _ = filter.onLines lines :=
        hadvance _ fun hchosen => onLines_trimIndents (h.trimLeft hchosen) _

theorem onLines_eq_self {lines : List Text}
    (hleft : filter.trimLeft = true -> trimIndents lines = lines)
    (hright : filter.trimRight = true -> trimTrails lines = lines)
    (hcollapse : filter.collapse = true -> closeGaps lines = lines) :
    filter.onLines lines = lines := by
  unfold onLines
  dsimp only
  rw [ite_eq_right_iff.mpr hleft, ite_eq_right_iff.mpr hright,
    ite_eq_right_iff.mpr hcollapse]

theorem onLines_behind (h : part.PartOf filter) (lines : List Text) :
    part.onLines (filter.onLines lines) = filter.onLines lines :=
  onLines_eq_self (fun hchosen => trimIndents_onLines (h.trimLeft hchosen) lines)
    (fun hchosen => trimTrails_onLines (h.trimRight hchosen) lines)
    (fun hchosen => closeGaps_onLines (h.collapse hchosen) lines)

theorem onText_onText (filter part : Filter) (s : Text) :
    filter.onText (part.onText s) =
      Text.ofLines (filter.onLines (part.onLines (Text.lines s))) := by
  have hlines := (unbroken_lines s).onLines part
  rw [part.onText_eq_linewise, linewise, filter.onText_ofLines hlines]

theorem onText_before (h : part.PartOf filter) (s : Text) :
    filter.onText (part.onText s) = filter.onText s := by
  rw [onText_onText, onLines_before h, filter.onText_eq_linewise, linewise]

theorem onText_behind (h : part.PartOf filter) (s : Text) :
    part.onText (filter.onText s) = filter.onText s := by
  rw [onText_onText, onLines_behind h, filter.onText_eq_linewise, linewise]

/-!
## Texts with nothing left to remove
-/

structure Tidy (filter : Filter) (s : Text) : Prop where
  no_indent : filter.trimLeft = true ->
    forall c, isBlank c = true -> ¬ ['\n', c] <:+: s
  no_trail : filter.trimRight = true ->
    forall c, isBlank c = true -> ¬ [c, '\n'] <:+: s
  no_gap : filter.collapse = true -> ¬ ['\n', '\n'] <:+: s

theorem not_infix_of_dropIndents_eq {s : Text} (h : dropIndents false s = s) {c : Char}
    (hc : isBlank c = true) : ¬ ['\n', c] <:+: s := by
  have hreplaced := replaced_dropIndents s
  rw [h] at hreplaced
  exact hreplaced.not_infix_of_self (fun _ => one_lt_length_of_isIndent)
    ⟨[c], by simp, List.forall_mem_singleton.mpr hc, rfl⟩

theorem not_infix_of_dropTrails_eq {s : Text} (h : dropTrails s = s) {c : Char}
    (hc : isBlank c = true) : ¬ [c, '\n'] <:+: s := by
  have hreplaced := replaced_dropTrails s
  rw [h] at hreplaced
  exact hreplaced.not_infix_of_self (fun _ => one_lt_length_of_isTrail)
    ⟨[c], by simp, List.forall_mem_singleton.mpr hc, rfl⟩

theorem not_infix_of_dropBreaks_eq {s : Text} (h : dropBreaks s = s) :
    ¬ ['\n', '\n'] <:+: s := by
  have hreplaced := replaced_dropBreaks s
  rw [h] at hreplaced
  exact hreplaced.not_infix_of_self (fun _ => one_lt_length_of_isGap)
    ⟨2, Nat.le_refl 2, rfl⟩

theorem tidy_onText (filter : Filter) (s : Text) : filter.Tidy (filter.onText s) := by
  constructor
  · intro hchosen c hc
    have hpart : PartOf ⟨true, false, false⟩ filter := ⟨fun _ => hchosen, nofun, nofun⟩
    exact not_infix_of_dropIndents_eq (onText_behind hpart s) hc
  · intro hchosen c hc
    have hpart : PartOf ⟨false, true, false⟩ filter := ⟨nofun, fun _ => hchosen, nofun⟩
    exact not_infix_of_dropTrails_eq (onText_behind hpart s) hc
  · intro hchosen
    have hpart : PartOf ⟨false, false, true⟩ filter := ⟨nofun, nofun, fun _ => hchosen⟩
    exact not_infix_of_dropBreaks_eq (onText_behind hpart s)

/-- A filter with some of the passes of another one makes no difference before or behind
it, and what a filter leaves has no match for any of its passes. -/
theorem onNodes_absorbs (filter : Filter) :
    (forall part : Filter, part.PartOf filter -> forall nodes : List Node,
      filter.onNodes (part.onNodes nodes) = filter.onNodes nodes ∧
      part.onNodes (filter.onNodes nodes) = filter.onNodes nodes) ∧
    forall (nodes : List Node) (s : Text),
      s ∈ Node.textsAll (filter.onNodes nodes) -> filter.Tidy s := by
  constructor
  · intro part hpart nodes
    simp only [onNodes_eq_mapTextsAll, Node.mapTextsAll_mapTextsAll, onText_before hpart,
      onText_behind hpart, and_self]
  · intro nodes s hmem
    rw [onNodes_eq_mapTextsAll, Node.textsAll_mapTextsAll] at hmem
    rcases List.mem_map.mp hmem with ⟨whole, _, rfl⟩
    exact filter.tidy_onText whole

/-- Blank lines with blanks in them, inside of a block. -/
def raggedNodes : List Node :=
  [Node.text "a\n".toList,
    Node.block BlockKind.each ['x'] [Node.text " \n \t\n\n  b \n".toList, Node.print []]]

theorem onNodes_absorbs_ragged :
    PartOf ⟨false, false, true⟩ ⟨true, true, true⟩ ∧
      onNodes ⟨true, true, true⟩ (onNodes ⟨false, false, true⟩ raggedNodes) =
        onNodes ⟨true, true, true⟩ raggedNodes ∧
      onNodes ⟨false, false, true⟩ (onNodes ⟨true, true, true⟩ raggedNodes) =
        onNodes ⟨true, true, true⟩ raggedNodes ∧
      "\nb\n".toList ∈ Node.textsAll (onNodes ⟨true, true, true⟩ raggedNodes) ∧
      Tidy ⟨true, true, true⟩ "\nb\n".toList := by
  have hpart : PartOf ⟨false, false, true⟩ ⟨true, true, true⟩ :=
    ⟨fun _ => rfl, fun _ => rfl, fun _ => rfl⟩
  have hmem : "\nb\n".toList ∈ Node.textsAll (onNodes ⟨true, true, true⟩ raggedNodes) := by
    decide
  rcases onNodes_absorbs ⟨true, true, true⟩ with ⟨habsorbs, htidy⟩
  rcases habsorbs _ hpart raggedNodes with ⟨hbefore, hbehind⟩
  exact ⟨hpart, hbefore, hbehind, hmem, htidy raggedNodes _ hmem⟩

end Filter

end Stencil
