import Stencil.Proofs.Json.Extension
import Stencil.Proofs.Json.RoundTrip

/-!
# Values in a longer text

## Rows

A value that is taken from a text is also taken from the text with more behind it, as long
as no number goes on with that.  Lists and objects end with their own marks, but the values
inside are read with everything behind them, so that one property of the reader of values
serves for all levels: it takes only what starts like a value, and it takes it whatever
stands behind it.
-/

namespace Stencil

namespace Json

variable {item : Type} {s t after rest : Text} {inner : Reader Presented}

theorem skipSpace_extend {c : Char} {others : Text} (h : skipSpace s = c :: others)
    (t : Text) : skipSpace (s ++ t) = c :: (others ++ t) := by
  unfold skipSpace at h ⊢
  induction s with
  | nil => cases h
  | cons d s ih =>
      rw [List.cons_append, List.dropWhile_cons]
      rw [List.dropWhile_cons] at h
      split
      case isTrue hd =>
        rw [if_pos hd] at h
        exact ih h
      case isFalse hd =>
        rw [if_neg hd] at h
        cases h
        rfl

structure Framed (reader : Reader item) : Prop where
  starts : forall {s after : Text} {x : item},
    Gives (reader s) x after -> StartsValue (skipSpace s)
  extend : forall {s t after : Text} {x : item},
    Gives (reader s) x after -> Stops t -> Gives (reader (s ++ t)) x (after ++ t)

structure SplitsRows (reader : Reader item) (rows : Reader (List item)) (mark : Char) :
    Prop where
  cases : forall {s rest : Text} {xs : List item}, Gives (rows s) xs rest ->
    exists x after, Gives (reader s) x after ∧
      ((xs = [x] ∧ skipSpace after = mark :: rest) ∨
        exists others ys, xs = x :: ys ∧ skipSpace after = ',' :: others ∧
          Gives (rows others) ys rest)

theorem SplitsRows.extend {reader : Reader item} {rows : Reader (List item)} {mark : Char}
    {xs : List item} (hsplits : SplitsRows reader rows mark)
    (hrows : ReadsRows reader rows mark) (hreader : Framed reader)
    (h : Gives (rows s) xs rest) (ht : Stops t) :
    Gives (rows (s ++ t)) xs (rest ++ t) := by
  induction xs generalizing s with
  | nil =>
      rcases hsplits.cases h with ⟨x, after, _, ⟨heq, _⟩ | ⟨others, ys, heq, _⟩⟩
      · cases heq
      · cases heq
  | cons x xs ih =>
      rcases hsplits.cases h with
        ⟨y, after, hfirst, ⟨heq, hend⟩ | ⟨others, ys, heq, hcomma, hothers⟩⟩
      · cases heq
        exact hrows.last (hreader.extend hfirst ht) (skipSpace_extend hend t)
      · cases heq
        have hmore := ih hothers
        rcases hsplits.cases hmore with ⟨next, _, hnext, _⟩
        exact hrows.more (hreader.extend hfirst ht) (skipSpace_extend hcomma t)
          (hreader.starts hnext) hmore

theorem SplitsRows.starts {reader : Reader item} {rows : Reader (List item)} {mark : Char}
    {xs : List item} (hsplits : SplitsRows reader rows mark) (hreader : Framed reader)
    (h : Gives (rows s) xs rest) : StartsValue (skipSpace s) := by
  rcases hsplits.cases h with ⟨x, after, hfirst, _⟩
  exact hreader.starts hfirst

theorem splitsRows_listItems (inner : Reader Presented) :
    SplitsRows inner (listItems inner) ']' := by
  constructor
  rintro s rest ps ⟨taken, hread, rfl, rfl⟩
  unfold listItems at hread
  split at hread
  case h_1 => cases hread
  case h_2 first hfirst =>
    refine ⟨first.item, first.rest, ⟨first, hfirst, rfl, rfl⟩, ?_⟩
    split at hread
    case h_1 => cases hread
    case h_2 heq =>
      cases hread
      exact Or.inl ⟨rfl, heq⟩
    case h_3 others heq =>
      split at hread
      case h_1 => cases hread
      case h_2 =>
        split at hread
        case h_1 => cases hread
        case h_2 items hitems =>
          cases hread
          exact Or.inr ⟨others, items.item, rfl, heq, items, hitems, rfl, rfl⟩
    case h_4 => cases hread

theorem list_cases {p : Presented} (h : Gives (list inner s) p rest) :
    (p = Presented.row [] ∧ skipSpace s = ']' :: rest) ∨
      exists ps, p = Presented.row ps ∧ Gives (listItems inner s) ps rest := by
  rcases h with ⟨taken, hread, rfl, rfl⟩
  unfold list at hread
  split at hread
  case h_1 => cases hread
  case h_2 heq =>
    cases hread
    exact Or.inl ⟨rfl, heq⟩
  case h_3 =>
    split at hread
    case h_1 => cases hread
    case h_2 items hitems =>
      cases hread
      exact Or.inr ⟨items.item, rfl, items, hitems, rfl, rfl⟩

theorem list_of_bracket (h : skipSpace s = ']' :: rest) :
    Gives (list inner s) (Presented.row []) rest := by
  unfold list
  split
  case h_1 heq => cases h.symm.trans heq
  case h_2 heq =>
    cases h.symm.trans heq
    exact ⟨_, rfl, rfl, rfl⟩
  case h_3 hnot => exact absurd h (hnot rest)

theorem list_extend {p : Presented} (hinner : Framed inner)
    (h : Gives (list inner s) p rest) (ht : Stops t) :
    Gives (list inner (s ++ t)) p (rest ++ t) := by
  have hsplits := splitsRows_listItems inner
  rcases list_cases h with ⟨rfl, hend⟩ | ⟨ps, rfl, hitems⟩
  · exact list_of_bracket (skipSpace_extend hend t)
  · have hmore := hsplits.extend (readsRows_listItems inner) hinner hitems ht
    exact list_of_items (hsplits.starts hinner hmore) hmore

theorem member_cases {x : Text × Presented} (h : Gives (member inner s) x rest) :
    exists others after body, skipSpace s = '"' :: others ∧
      Gives (string others) x.1 after ∧ skipSpace after = ':' :: body ∧
      Gives (inner body) x.2 rest := by
  rcases h with ⟨taken, hread, rfl, rfl⟩
  unfold member at hread
  split at hread
  case h_1 => cases hread
  case h_2 others hquote =>
    split at hread
    case h_1 => cases hread
    case h_2 key hkey =>
      split at hread
      case h_1 => cases hread
      case h_2 body hcolon =>
        split at hread
        case h_1 => cases hread
        case h_2 p hp =>
          cases hread
          exact ⟨others, key.rest, body, hquote, ⟨key, hkey, rfl, rfl⟩, hcolon,
            ⟨p, hp, rfl, rfl⟩⟩
      case h_3 => cases hread
  case h_3 => cases hread

theorem framed_member (hinner : Framed inner) : Framed (member inner) := by
  constructor
  · intro s after x h
    rcases member_cases h with ⟨others, _, _, hquote, _⟩
    exact ⟨'"', others, hquote, rfl⟩
  · intro s t rest x h ht
    rcases member_cases h with ⟨others, after, body, hquote, hkey, hcolon, hvalue⟩
    exact member_of_parts (skipSpace_extend hquote t) (string_extend hkey t)
      (skipSpace_extend hcolon t) (hinner.extend hvalue ht)

theorem splitsRows_members (inner : Reader Presented) :
    SplitsRows (member inner) (members inner) '\x7d' := by
  constructor
  rintro s rest xs ⟨taken, hread, rfl, rfl⟩
  unfold members at hread
  split at hread
  case h_1 => cases hread
  case h_2 first hfirst =>
    refine ⟨first.item, first.rest, ⟨first, hfirst, rfl, rfl⟩, ?_⟩
    split at hread
    case h_1 => cases hread
    case h_2 heq =>
      cases hread
      exact Or.inl ⟨rfl, heq⟩
    case h_3 others heq =>
      split at hread
      case h_1 => cases hread
      case h_2 =>
        split at hread
        case h_1 => cases hread
        case h_2 entries hentries =>
          cases hread
          exact Or.inr ⟨others, entries.item, rfl, heq, entries, hentries, rfl, rfl⟩
    case h_4 => cases hread

theorem object_cases {p : Presented} (h : Gives (object inner s) p rest) :
    (p = Presented.ofMembers [] ∧ skipSpace s = '\x7d' :: rest) ∨
      exists entries, p = Presented.ofMembers entries ∧
        Gives (members inner s) entries rest := by
  rcases h with ⟨taken, hread, rfl, rfl⟩
  unfold object at hread
  split at hread
  case h_1 => cases hread
  case h_2 heq =>
    cases hread
    exact Or.inl ⟨rfl, heq⟩
  case h_3 =>
    split at hread
    case h_1 => cases hread
    case h_2 entries hentries =>
      cases hread
      exact Or.inr ⟨entries.item, rfl, entries, hentries, rfl, rfl⟩

theorem object_of_brace (h : skipSpace s = '\x7d' :: rest) :
    Gives (object inner s) (Presented.ofMembers []) rest := by
  unfold object
  split
  case h_1 heq => cases h.symm.trans heq
  case h_2 heq =>
    cases h.symm.trans heq
    exact ⟨_, rfl, rfl, rfl⟩
  case h_3 hnot => exact absurd h (hnot rest)

theorem object_extend {p : Presented} (hinner : Framed inner)
    (h : Gives (object inner s) p rest) (ht : Stops t) :
    Gives (object inner (s ++ t)) p (rest ++ t) := by
  have hsplits := splitsRows_members inner
  have hmember := framed_member hinner
  rcases object_cases h with ⟨rfl, hend⟩ | ⟨entries, rfl, hentries⟩
  · exact object_of_brace (skipSpace_extend hend t)
  · have hmore := hsplits.extend (readsRows_members inner) hmember hentries ht
    exact object_of_members (hsplits.starts hmember hmore) hmore

/-!
## Values
-/

variable {inner? : Option (Reader Presented)} {p : Presented}

theorem valueHere_extend (hinner : forall inner, inner? = some inner -> Framed inner)
    (h : Gives (valueHere inner? s) p after) (ht : Stops t) :
    Gives (valueHere inner? (s ++ t)) p (after ++ t) := by
  rw [← valueAt_iff] at h ⊢
  cases h with
  | number hc hx => exact ValueAt.number hc (number_extend hx ht)
  | null =>
      rw [List.append_assoc]
      exact ValueAt.null
  | bool b =>
      rw [List.append_assoc]
      exact ValueAt.bool b
  | quote htext => exact ValueAt.quote (string_extend htext t)
  | list hsome hlist => exact ValueAt.list hsome (list_extend (hinner _ hsome) hlist ht)
  | object hsome hobject =>
      exact ValueAt.object hsome (object_extend (hinner _ hsome) hobject ht)

theorem framed_valueWith (hinner : forall inner, inner? = some inner -> Framed inner) :
    Framed (valueWith inner?) := by
  constructor
  · intro s after p h
    exact startsValue_of_valueHere (valueWith_iff.mp h)
  · intro s t after p h ht
    have hhere := valueWith_iff.mp h
    rcases startsValue_of_valueHere hhere with ⟨c, others, hs, _⟩
    have hmore := valueHere_extend hinner hhere ht
    rw [hs, List.cons_append, ← skipSpace_extend hs t] at hmore
    exact valueWith_iff.mpr hmore

theorem framed_value (levels : Nat) : Framed (value levels) := by
  induction levels with
  | zero =>
      apply framed_valueWith
      intro inner h
      cases h
  | succ levels ih =>
      apply framed_valueWith
      intro inner h
      cases h
      exact ih

end Json

end Stencil
