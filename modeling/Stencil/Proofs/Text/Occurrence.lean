import Stencil.Text.Basic

/-!
# First occurrences of a mark

## Where a text is cut

Cutting a text before a mark, or around it, is described here without the
recursion that does it: by the place of the first occurrence.  The grammar of
template sources is stated with these descriptions, and the scanner is compared
with the grammar through the two characterizations of cutting at the end.
-/

namespace Stencil

namespace Text

structure FirstAt (mark before after : Text) : Prop where
  starts : mark <+: after
  first : forall p q, before ++ after = p ++ mark ++ q -> before.length ≤ p.length

/-- The first part extends to the first occurrence of the mark, or to the end of
the text if there is none. -/
def ExtendsTo (mark before after : Text) : Prop :=
  FirstAt mark before after ∨ (after = [] ∧ ¬ mark <:+: before)

theorem firstAt_nil {mark after : Text} :
    FirstAt mark [] after ↔ mark <+: after := by
  constructor
  · intro h
    exact h.starts
  · intro h
    exact ⟨h, fun p q _ => Nat.zero_le _⟩

theorem firstAt_cons {mark before after : Text} {c : Char} :
    FirstAt mark (c :: before) after ↔
      ¬ mark <+: c :: (before ++ after) ∧ FirstAt mark before after := by
  constructor
  · intro h
    constructor
    · intro hprefix
      rcases hprefix with ⟨q, hq⟩
      have hle := h.first [] q hq.symm
      simp at hle
    · refine ⟨h.starts, ?_⟩
      intro p q hpq
      have hle := h.first (c :: p) q (by simp [hpq])
      simpa using hle
  · intro h
    rcases h with ⟨hhead, htail⟩
    refine ⟨htail.starts, ?_⟩
    intro p q hpq
    cases p with
    | nil =>
        exact absurd ⟨q, hpq.symm⟩ hhead
    | cons d p =>
        have hle := htail.first p q (List.cons.inj hpq).2
        simpa using hle

theorem extendsTo_cons {mark before after : Text} {c : Char} :
    ExtendsTo mark (c :: before) after ↔
      ¬ mark <+: c :: (before ++ after) ∧ ExtendsTo mark before after := by
  unfold ExtendsTo
  rw [firstAt_cons, List.infix_cons_iff]
  constructor
  · intro h
    rcases h with ⟨hhead, hfirst⟩ | ⟨rfl, hnone⟩
    · exact ⟨hhead, Or.inl hfirst⟩
    · rw [List.append_nil]
      exact ⟨fun h => hnone (Or.inl h), Or.inr ⟨rfl, fun h => hnone (Or.inr h)⟩⟩
  · intro h
    rcases h with ⟨hhead, hfirst | ⟨rfl, hnone⟩⟩
    · exact Or.inl ⟨hhead, hfirst⟩
    · rw [List.append_nil] at hhead
      exact Or.inr ⟨rfl, fun h => h.elim hhead hnone⟩

theorem ExtendsTo.not_prefix {mark before after : Text} (hne : before ≠ [])
    (h : ExtendsTo mark before after) : ¬ mark <+: before ++ after := by
  cases before with
  | nil =>
      exact absurd rfl hne
  | cons c before =>
      exact (extendsTo_cons.mp h).1

theorem FirstAt.append {mark before after : Text} (h : FirstAt mark before after)
    (more : Text) : FirstAt mark before (after ++ more) := by
  induction before with
  | nil =>
      exact firstAt_nil.mpr (h.starts.trans (List.prefix_append after more))
  | cons c before ih =>
      rcases firstAt_cons.mp h with ⟨hhead, htail⟩
      refine firstAt_cons.mpr ⟨?_, ih htail⟩
      intro hprefix
      apply hhead
      rw [← List.append_assoc, ← List.cons_append] at hprefix
      have hle := h.starts.length_le
      refine List.prefix_of_prefix_length_le hprefix (List.prefix_append _ _) ?_
      rw [List.length_cons, List.length_append]
      omega

/-- Where the mark first occurs is settled up to its end. -/
theorem FirstAt.of_append {mark before after : Text}
    (h : FirstAt mark before (mark ++ after)) : FirstAt mark before mark := by
  induction before with
  | nil => exact firstAt_nil.mpr (List.prefix_refl mark)
  | cons c before ih =>
      rcases firstAt_cons.mp h with ⟨hhead, htail⟩
      refine firstAt_cons.mpr ⟨?_, ih htail⟩
      intro hprefix
      apply hhead
      rw [← List.append_assoc, ← List.cons_append]
      exact hprefix.trans (List.prefix_append _ _)

theorem firstAt_of_head_not_mem {before : Text} {c : Char} (h : c ∉ before)
    (mark rest : Text) : FirstAt (c :: mark) before (c :: mark ++ rest) := by
  induction before with
  | nil =>
      exact firstAt_nil.mpr (List.prefix_append _ _)
  | cons d before ih =>
      rw [List.mem_cons, not_or] at h
      rcases h with ⟨hhead, htail⟩
      refine firstAt_cons.mpr ⟨?_, ih htail⟩
      intro hprefix
      exact hhead (List.cons_prefix_cons.mp hprefix).1

theorem prefix_of_not_mem {mark before after : Text} {c : Char} (hc : c ∉ mark)
    (h : mark <+: before ++ c :: after) : mark <+: before := by
  rcases Nat.le_total mark.length before.length with hle | hle
  · exact List.prefix_of_prefix_length_le h (List.prefix_append _ _) hle
  · rcases List.prefix_of_prefix_length_le (List.prefix_append _ _) h hle with
      ⟨inside, hmark⟩
    subst hmark
    cases inside with
    | nil =>
        exact ⟨[], by simp⟩
    | cons d inside =>
        have hcons := (List.prefix_append_right_inj before).mp h
        rw [(List.cons_prefix_cons.mp hcons).1] at hc
        exact absurd (by simp) hc

/-- Behind a character that is not in it, a mark occurs where it is put. -/
theorem firstAt_of_separated {mark before : Text} {c : Char} (hne : mark ≠ [])
    (hc : c ∉ mark) (h : ¬ mark <:+: before) (rest : Text) :
    FirstAt mark (before ++ [c]) (mark ++ rest) := by
  induction before with
  | nil =>
      refine firstAt_cons.mpr ⟨?_, firstAt_nil.mpr (List.prefix_append _ _)⟩
      intro hprefix
      have hnil : mark <+: [] ++ c :: (mark ++ rest) := hprefix
      exact hne (List.prefix_nil.mp (prefix_of_not_mem hc hnil))
  | cons d before ih =>
      rw [List.infix_cons_iff, not_or] at h
      refine firstAt_cons.mpr ⟨?_, ih h.2⟩
      intro hprefix
      have hcons : mark <+: d :: before ++ c :: (mark ++ rest) := by
        simpa using hprefix
      exact h.1 (prefix_of_not_mem hc hcons)

theorem isPrefixOf?_append (mark rest : Text) :
    mark.isPrefixOf? (mark ++ rest) = some rest := by
  induction mark with
  | nil => rfl
  | cons c mark ih => simp [isPrefixOf?_cons, ih]

theorem isPrefixOf?_eq_none_iff {mark s : Text} :
    mark.isPrefixOf? s = none ↔ ¬ mark <+: s := by
  constructor
  · intro h hprefix
    have hfalse := isPrefixOf?_eq_none h
    rw [List.isPrefixOf_iff_prefix.mpr hprefix] at hfalse
    cases hfalse
  · intro h
    cases hcase : mark.isPrefixOf? s with
    | none => rfl
    | some rest =>
        exact absurd ⟨rest, (isPrefixOf?_eq_some hcase).symm⟩ h

/-!
## Cutting finds the first occurrence
-/

theorem extendsTo_cutBefore (mark s : Text) :
    ExtendsTo mark (cutBefore mark s).1 (cutBefore mark s).2 := by
  induction s with
  | nil =>
      by_cases hmark : mark = []
      · exact Or.inl (firstAt_nil.mpr (by simp [hmark, cutBefore]))
      · exact Or.inr ⟨rfl, by simpa [cutBefore] using hmark⟩
  | cons c rest ih =>
      unfold cutBefore
      split
      case isTrue hprefix =>
        exact Or.inl (firstAt_nil.mpr (List.isPrefixOf_iff_prefix.mp hprefix))
      case isFalse hprefix =>
        refine extendsTo_cons.mpr ⟨?_, ih⟩
        rw [cutBefore_append]
        exact fun h => hprefix (List.isPrefixOf_iff_prefix.mpr h)

theorem cutBefore_eq_of_extendsTo {mark before after : Text}
    (h : ExtendsTo mark before after) :
    cutBefore mark (before ++ after) = (before, after) := by
  induction before with
  | nil =>
      cases after with
      | nil => rfl
      | cons c after =>
          rcases h with hfirst | ⟨hnil, _⟩
          · have hprefix := List.isPrefixOf_iff_prefix.mpr hfirst.starts
            simp [cutBefore, hprefix]
          · cases hnil
  | cons c before ih =>
      rcases extendsTo_cons.mp h with ⟨hhead, htail⟩
      have hprefix : ¬ mark.isPrefixOf (c :: (before ++ after)) = true :=
        fun hp => hhead (List.isPrefixOf_iff_prefix.mp hp)
      rw [List.cons_append, cutBefore, if_neg hprefix, ih htail]

theorem cutBefore_eq_iff {mark s before after : Text} :
    cutBefore mark s = (before, after) ↔
      s = before ++ after ∧ ExtendsTo mark before after := by
  constructor
  · intro h
    have happend := cutBefore_append mark s
    have hextends := extendsTo_cutBefore mark s
    rw [h] at happend hextends
    exact ⟨happend.symm, hextends⟩
  · intro h
    rcases h with ⟨rfl, hextends⟩
    exact cutBefore_eq_of_extendsTo hextends

theorem cutAround?_eq_some_iff {mark s before rest : Text} :
    cutAround? mark s = some (before, rest) ↔
      s = before ++ (mark ++ rest) ∧ FirstAt mark before (mark ++ rest) := by
  constructor
  · intro h
    have hs := cutAround?_eq_some h
    rw [List.append_assoc] at hs
    unfold cutAround? at h
    rcases Option.map_eq_some_iff.mp h with ⟨r, hr, hpair⟩
    cases hpair
    have hafter := isPrefixOf?_eq_some hr
    have hcut := extendsTo_cutBefore mark s
    rw [hafter] at hcut
    rcases hcut with hfirst | ⟨hnil, hnone⟩
    · exact ⟨hs, hfirst⟩
    · have hmark : mark = [] := (List.append_eq_nil_iff.mp hnil).1
      exact absurd (by simp [hmark]) hnone
  · intro h
    rcases h with ⟨rfl, hfirst⟩
    unfold cutAround?
    rw [cutBefore_eq_of_extendsTo (Or.inl hfirst)]
    simp [isPrefixOf?_append]

theorem cutAround?_eq_none_iff {mark s : Text} :
    cutAround? mark s = none ↔ ¬ mark <:+: s := by
  constructor
  · intro h
    unfold cutAround? at h
    have hnone := isPrefixOf?_eq_none_iff.mp (Option.map_eq_none_iff.mp h)
    rcases extendsTo_cutBefore mark s with hfirst | ⟨hnil, hnot⟩
    · exact absurd hfirst.starts hnone
    · have happend := cutBefore_append mark s
      rw [hnil, List.append_nil] at happend
      rw [← happend]
      exact hnot
  · intro h
    cases hcut : cutAround? mark s with
    | none => rfl
    | some parts =>
        have hs := cutAround?_eq_some hcut
        exact absurd ⟨parts.1, parts.2, hs.symm⟩ h

theorem cutAround?_append {mark s before rest : Text}
    (h : cutAround? mark s = some (before, rest)) (more : Text) :
    cutAround? mark (s ++ more) = some (before, rest ++ more) := by
  rcases cutAround?_eq_some_iff.mp h with ⟨rfl, hfirst⟩
  have hmore := hfirst.append more
  rw [List.append_assoc] at hmore
  exact cutAround?_eq_some_iff.mpr ⟨by simp, hmore⟩

/-!
## Splitting at a character
-/

theorem not_mem_of_mem_splitOn {mark : Char} {s part : Text}
    (h : part ∈ s.splitOn mark) : mark ∉ part := by
  induction s generalizing part with
  | nil =>
      rw [List.splitOn_nil, List.mem_singleton] at h
      simp [h]
  | cons c rest ih =>
      rw [List.splitOn_cons_eq_if_modifyHead] at h
      split at h
      case isTrue =>
        rcases List.mem_cons.mp h with rfl | hrest
        · simp
        · exact ih hrest
      case isFalse hne =>
        cases hsplit : rest.splitOn mark with
        | nil =>
            exact absurd hsplit (List.splitOn_ne_nil mark rest)
        | cons first others =>
            rw [hsplit] at h ih
            rcases List.mem_cons.mp h with rfl | hothers
            · have hfirst := ih List.mem_cons_self
              have hc : mark ≠ c := fun heq => hne (by simp [heq])
              simp [hc, hfirst]
            · exact ih (List.mem_cons_of_mem _ hothers)

end Text

end Stencil
