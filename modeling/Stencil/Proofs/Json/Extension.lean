import Stencil.Proofs.Json.Written

/-!
# Scalars in a longer text

## Strings

What a reader takes from a text it takes from every longer text, if only the end of the
text does not matter.  It never matters for a string, because a string is closed by its
own quote: all escapes and characters are looked at one by one, and there are enough of
them.
-/

namespace Stencil

namespace Json

variable {s t after : Text}

theorem fourHexDigits_extend {n : Nat} (h : Gives (fourHexDigits s) n after) (t : Text) :
    Gives (fourHexDigits (s ++ t)) n (after ++ t) := by
  rcases fourHexDigits_iff.mp h with ⟨a, b, c, d, x, y, z, w, rfl, hdigits⟩
  exact fourHexDigits_iff.mpr ⟨a, b, c, d, x, y, z, w, rfl, hdigits⟩

theorem trailingSurrogate_extend {leading : Nat} {c : Char}
    (h : Gives (trailingSurrogate leading s) c after) (t : Text) :
    Gives (trailingSurrogate leading (s ++ t)) c (after ++ t) := by
  rcases h with ⟨taken, hread, rfl, rfl⟩
  unfold trailingSurrogate at hread
  split at hread
  case h_3 s =>
    split at hread
    case h_1 => cases hread
    case h_2 code hcode =>
      split at hread
      case isFalse => cases hread
      case isTrue htrailing =>
        rw [← Except.ok.inj hread]
        rcases fourHexDigits_extend ⟨code, hcode, rfl, rfl⟩ t with
          ⟨code', hcode', hitem, hrest⟩
        rw [List.cons_append, List.cons_append, trailingSurrogate, hcode']
        dsimp only
        rw [hitem, if_pos htrailing]
        exact ⟨_, rfl, rfl, hrest⟩
  all_goals cases hread

theorem codeEscape_extend {c : Char} (h : Gives (codeEscape s) c after) (t : Text) :
    Gives (codeEscape (s ++ t)) c (after ++ t) := by
  rcases h with ⟨taken, hread, rfl, rfl⟩
  unfold codeEscape at hread ⊢
  split at hread
  case h_1 => cases hread
  case h_2 code hcode =>
    rcases fourHexDigits_extend ⟨code, hcode, rfl, rfl⟩ t with
      ⟨code', hcode', hitem, hrest⟩
    rw [hcode']
    dsimp only
    rw [hitem]
    split at hread
    case isTrue => cases hread
    case isFalse htrailing =>
      rw [if_neg htrailing]
      split at hread
      case isFalse hleading =>
        cases hread
        rw [if_neg hleading]
        exact ⟨_, rfl, rfl, hrest⟩
      case isTrue hleading =>
        rw [if_pos hleading]
        split at hread
        case h_1 => cases hread
        case h_2 c hc =>
          cases hread
          have htail := trailingSurrogate_extend ⟨c, hc, rfl, rfl⟩ t
          rw [← hrest] at htail
          rcases htail with ⟨c', hc', hitem', hrest'⟩
          rw [hc']
          exact ⟨_, rfl, hitem', hrest'⟩

theorem escape_extend {c : Char} (h : Gives (escape s) c after) (t : Text) :
    Gives (escape (s ++ t)) c (after ++ t) := by
  rcases h with ⟨taken, hread, rfl, rfl⟩
  unfold escape at hread
  split at hread
  case h_1 => cases hread
  case h_2 letter rest =>
    rw [List.cons_append, escape]
    split at hread
    case h_1 escaped hshort =>
      cases hread
      exact ⟨_, rfl, rfl, rfl⟩
    case h_2 hshort =>
      split at hread
      case isFalse => cases hread
      case isTrue hletter =>
        rw [if_pos hletter]
        split at hread
        case h_1 => cases hread
        case h_2 code hcode =>
          cases hread
          rcases codeEscape_extend ⟨code, hcode, rfl, rfl⟩ t with
            ⟨code', hcode', hitem, hrest⟩
          rw [hcode']
          exact ⟨_, rfl, hitem, hrest⟩

theorem stringItem_extend {c : Option Char} (h : Gives (stringItem s) c after) (t : Text) :
    Gives (stringItem (s ++ t)) c (after ++ t) := by
  rcases h with ⟨taken, hread, rfl, rfl⟩
  unfold stringItem at hread
  split at hread
  case h_1 => cases hread
  case h_2 rest =>
    cases hread
    exact ⟨_, rfl, rfl, rfl⟩
  case h_3 rest =>
    split at hread
    case h_1 => cases hread
    case h_2 c hc =>
      cases hread
      exact stringItem_of_escape (escape_extend ⟨c, hc, rfl, rfl⟩ t)
  case h_4 c rest hquote hbackslash =>
    split at hread
    case isTrue => cases hread
    case isFalse hplain =>
      cases hread
      exact stringItem_of_plain hquote hbackslash hplain

theorem string_cases {ds : Text} (h : Gives (string s) ds after) :
    (ds = [] ∧ Gives (stringItem s) none after) ∨
      exists c others middle, ds = c :: others ∧ Gives (stringItem s) (some c) middle ∧
        Gives (string middle) others after := by
  rcases h with ⟨taken, hread, rfl, rfl⟩
  rw [string] at hread
  split at hread
  case h_1 => cases hread
  case h_2 first hfirst =>
    split at hread
    case h_1 hitem =>
      cases hread
      exact Or.inl ⟨rfl, first, hfirst, hitem, rfl⟩
    case h_2 c hitem =>
      split at hread
      case h_1 => cases hread
      case h_2 others hothers =>
        cases hread
        exact Or.inr ⟨c, others.item, first.rest, rfl, ⟨first, hfirst, hitem, rfl⟩,
          ⟨others, hothers, rfl, rfl⟩⟩

theorem string_of_end (h : Gives (stringItem s) none rest) : Gives (string s) [] rest := by
  rcases h with ⟨first, hread, hitem, rfl⟩
  rw [string, hread]
  dsimp only
  rw [hitem]
  exact ⟨_, rfl, rfl, rfl⟩

/-- A string ends with its closing quote, whatever stands behind it. -/
theorem string_extend {ds : Text} (h : Gives (string s) ds after) (t : Text) :
    Gives (string (s ++ t)) ds (after ++ t) := by
  induction ds generalizing s with
  | nil =>
      rcases string_cases h with ⟨_, hend⟩ | ⟨c, others, middle, heq, _, _⟩
      · exact string_of_end (stringItem_extend hend t)
      · cases heq
  | cons c ds ih =>
      rcases string_cases h with ⟨heq, _⟩ | ⟨d, others, middle, heq, hfirst, hothers⟩
      · cases heq
      · cases heq
        exact string_of_item (stringItem_extend hfirst t) (ih hothers)

/-!
## Numbers

A number goes on as far as it can.  So it stays the same only in front of a text that it
cannot go on with; that text may be empty.
-/

def goesOn (c : Char) : Bool :=
  isDigit c || c = '.' || c = 'e' || c = 'E'

/-- No number goes on with the text. -/
def Stops (t : Text) : Prop :=
  forall c others, t = c :: others -> goesOn c = false

theorem isDigit_of_not_goesOn {c : Char} (h : goesOn c = false) : isDigit c = false := by
  cases hdigit : isDigit c with
  | false => rfl
  | true =>
      rw [goesOn, hdigit] at h
      cases h

theorem takeWhile_isDigit_extend (ht : Stops t) (s : Text) :
    (s ++ t).takeWhile isDigit = s.takeWhile isDigit := by
  induction s with
  | nil =>
      cases t with
      | nil => rfl
      | cons c others =>
          have hc := isDigit_of_not_goesOn (ht c others rfl)
          exact List.takeWhile_cons_of_neg (Bool.eq_false_iff.mp hc)
  | cons c s ih =>
      rw [List.cons_append, List.takeWhile_cons, List.takeWhile_cons, ih]

theorem dropWhile_isDigit_extend (ht : Stops t) (s : Text) :
    (s ++ t).dropWhile isDigit = s.dropWhile isDigit ++ t := by
  induction s with
  | nil =>
      cases t with
      | nil => rfl
      | cons c others =>
          have hc := isDigit_of_not_goesOn (ht c others rfl)
          exact List.dropWhile_cons_of_neg (Bool.eq_false_iff.mp hc)
  | cons c s ih =>
      rw [List.cons_append, List.dropWhile_cons, List.dropWhile_cons, ih]
      split
      · rfl
      · rfl

theorem digits_extend {ds : Text} (h : Gives (digits s) ds after) (ht : Stops t) :
    Gives (digits (s ++ t)) ds (after ++ t) := by
  rcases h with ⟨taken, hread, rfl, rfl⟩
  unfold digits at hread
  split at hread
  case h_1 => cases hread
  case h_2 c rest =>
    split at hread
    case isFalse => cases hread
    case isTrue hc =>
      cases hread
      rw [List.cons_append, digits, if_pos hc]
      exact ⟨_, rfl, congrArg (c :: ·) (takeWhile_isDigit_extend ht rest),
        dropWhile_isDigit_extend ht rest⟩

theorem wholeDigits_extend {ds : Text} (h : Gives (wholeDigits s) ds after)
    (ht : Stops t) : Gives (wholeDigits (s ++ t)) ds (after ++ t) := by
  rcases h with ⟨taken, hread, rfl, rfl⟩
  unfold wholeDigits at hread ⊢
  split at hread
  case h_1 => cases hread
  case h_2 whole hwhole =>
    rcases digits_extend ⟨whole, hwhole, rfl, rfl⟩ ht with ⟨whole', hwhole', hitem, hrest⟩
    rw [hwhole']
    dsimp only
    rw [hitem]
    split at hread
    case h_1 => cases hread
    case h_2 hnot =>
      cases hread
      exact ⟨whole', rfl, hitem, hrest⟩

theorem head_extend {c : Char} {others : Text} (ht : Stops t) (hc : goesOn c = true)
    (h : s ++ t = c :: others) : exists front, s = c :: front ∧ front ++ t = others := by
  cases s with
  | nil =>
      rw [ht c others h] at hc
      cases hc
  | cons d s =>
      cases h
      exact ⟨s, rfl, rfl⟩

theorem fractionDigits_of_no_point (h : forall rest, s ≠ '.' :: rest) :
    fractionDigits s = Except.ok ([], Rest.whole s) := by
  unfold fractionDigits
  split
  case h_1 rest => exact absurd rfl (h rest)
  case h_2 => rfl

theorem fractionDigits_extend {ds : Text} {left : Rest s}
    (h : fractionDigits s = Except.ok (ds, left)) (ht : Stops t) :
    exists left' : Rest (s ++ t), fractionDigits (s ++ t) = Except.ok (ds, left') ∧
      left'.val = left.val ++ t := by
  unfold fractionDigits at h
  split at h
  case h_1 rest =>
    split at h
    case h_1 => cases h
    case h_2 taken htaken =>
      cases h
      rcases digits_extend ⟨taken, htaken, rfl, rfl⟩ ht with ⟨taken', htaken', hitem, hrest⟩
      rw [List.cons_append, fractionDigits, htaken', ← hitem]
      exact ⟨_, rfl, hrest⟩
  case h_2 hpoint =>
    cases h
    refine ⟨_, fractionDigits_of_no_point ?_, rfl⟩
    intro others hs
    rcases head_extend ht rfl hs with ⟨front, hfront, _⟩
    exact hpoint front hfront

theorem signedExponent_extend {n : Int} (h : Gives (signedExponent s) n after)
    (ht : Stops t) : Gives (signedExponent (s ++ t)) n (after ++ t) := by
  rcases h with ⟨taken, hread, rfl, rfl⟩
  unfold signedExponent at hread
  split at hread
  case h_1 rest =>
    split at hread
    case h_1 => cases hread
    case h_2 ds hds =>
      cases hread
      rcases digits_extend ⟨ds, hds, rfl, rfl⟩ ht with ⟨ds', hds', hitem, hrest⟩
      rw [List.cons_append, signedExponent, hds']
      exact ⟨_, rfl, congrArg (fun ds => (natOfDigits ds : Int)) hitem, hrest⟩
  case h_2 rest =>
    split at hread
    case h_1 => cases hread
    case h_2 ds hds =>
      cases hread
      rcases digits_extend ⟨ds, hds, rfl, rfl⟩ ht with ⟨ds', hds', hitem, hrest⟩
      rw [List.cons_append, signedExponent, hds']
      exact ⟨_, rfl, congrArg (fun ds => (-(natOfDigits ds : Int))) hitem, hrest⟩
  case h_3 hplus hminus =>
    split at hread
    case h_1 => cases hread
    case h_2 ds hds =>
      cases hread
      have hdigits := digits_extend ⟨ds, hds, rfl, rfl⟩ ht
      cases s with
      | nil => cases hds
      | cons c rest =>
          rw [List.cons_append] at hdigits ⊢
          rcases hdigits with ⟨ds', hds', hitem, hrest⟩
          rw [signedExponent]
          · rw [hds']
            exact ⟨_, rfl, congrArg (fun ds => (natOfDigits ds : Int)) hitem, hrest⟩
          · intro others heq
            cases heq
            exact hplus rest rfl
          · intro others heq
            cases heq
            exact hminus rest rfl

theorem exponent?_of_no_mark (h : forall c rest, s = c :: rest -> ¬ (c = 'e' ∨ c = 'E')) :
    exponent? s = Except.ok (none, Rest.whole s) := by
  cases s with
  | nil => rfl
  | cons c rest => exact if_neg (h c rest rfl)

theorem exponent?_extend {power? : Option Int} {left : Rest s}
    (h : exponent? s = Except.ok (power?, left)) (ht : Stops t) :
    exists left' : Rest (s ++ t), exponent? (s ++ t) = Except.ok (power?, left') ∧
      left'.val = left.val ++ t := by
  cases s with
  | nil =>
      cases h
      refine ⟨_, exponent?_of_no_mark ?_, rfl⟩
      rintro c rest heq hc
      have hstop := ht c rest heq
      rcases hc with rfl | rfl
      · cases hstop
      · cases hstop
  | cons c s =>
      rw [exponent?] at h
      split at h
      case isFalse hc =>
        cases h
        exact ⟨Rest.whole _, if_neg hc, rfl⟩
      case isTrue hc =>
        split at h
        case h_1 => cases h
        case h_2 n hn =>
          cases h
          rcases signedExponent_extend ⟨n, hn, rfl, rfl⟩ ht with ⟨n', hn', hitem, hrest⟩
          rw [List.cons_append, exponent?, if_pos hc, hn', ← hitem]
          exact ⟨_, rfl, hrest⟩

theorem unsignedNumber_extend {negative : Bool} {x : Scalar}
    (h : Gives (unsignedNumber negative s) x after) (ht : Stops t) :
    Gives (unsignedNumber negative (s ++ t)) x (after ++ t) := by
  rcases h with ⟨taken, hread, rfl, rfl⟩
  unfold unsignedNumber at hread
  split at hread
  case h_1 => cases hread
  case h_2 whole hwhole =>
    rcases wholeDigits_extend ⟨whole, hwhole, rfl, rfl⟩ ht with
      ⟨whole', hwhole', hitem, hrest⟩
    split at hread
    case h_1 => cases hread
    case h_2 fraction left hfraction =>
      have hfraction' := fractionDigits_extend hfraction ht
      rw [← hrest] at hfraction'
      rcases hfraction' with ⟨left', hfraction', hleft⟩
      split at hread
      case h_1 => cases hread
      case h_2 power? last hpower =>
        have hpower' := exponent?_extend hpower ht
        rw [← hleft] at hpower'
        rcases hpower' with ⟨last', hpower', hlast⟩
        split at hread
        case h_1 => cases hread
        case h_2 x hx =>
          cases hread
          unfold unsignedNumber
          rw [hwhole']
          dsimp only
          rw [hfraction']
          dsimp only
          rw [hpower']
          dsimp only
          rw [hitem, hx]
          exact ⟨_, rfl, rfl, hlast⟩

theorem number_extend {x : Scalar} (h : Gives (number s) x after) (ht : Stops t) :
    Gives (number (s ++ t)) x (after ++ t) := by
  rcases h with ⟨taken, hread, rfl, rfl⟩
  unfold number at hread
  split at hread
  case h_1 rest =>
    split at hread
    case h_1 => cases hread
    case h_2 x hx =>
      cases hread
      rcases unsignedNumber_extend ⟨x, hx, rfl, rfl⟩ ht with ⟨x', hx', hitem, hrest⟩
      rw [List.cons_append, number, hx']
      exact ⟨_, rfl, hitem, hrest⟩
  case h_2 hminus =>
    cases s with
    | nil => cases hread
    | cons c rest =>
        rw [List.cons_append]
        apply number_of_unsigned
        · intro hc
          subst hc
          exact hminus rest rfl
        · exact unsignedNumber_extend ⟨taken, hread, rfl, rfl⟩ ht

end Json

end Stencil
