import Mathlib.Data.List.Perm.Basic
import Mathlib.Data.List.TakeWhile
import Stencil.Proofs.Data.Order
import Stencil.Proofs.Json.Framing

/-!
# The order of members

## Spelled values

A text spells what the reader takes from it if white space only is left.  Such texts can
be put together: the items of a list and the members of an object may be any texts that
spell values, with the white space that they bring along.

A document is reordered by permuting the members of an object with different keys,
anywhere inside.  The members keep their texts, and everything around the object stays as
it is.  A reordered document presents reordered data, so that it has the same value.
-/

namespace Stencil

namespace Presented

theorem reordered_member (key : Text) (before after : List (Text × Presented))
    {p q : Presented} (h : p.Reordered q) :
    (ofMembers (before ++ (key, p) :: after)).Reordered
      (ofMembers (before ++ (key, q) :: after)) := by
  unfold ofMembers
  rw [List.map_append, List.map_append, List.map_cons, List.map_cons]
  exact Reordered.entry _ _ _ h

theorem reordered_members {members others : List (Text × Presented)}
    (hperm : members.Perm others) (hkeys : (Table.keys members).Nodup) :
    (ofMembers members).Reordered (ofMembers others) := by
  have hpresented : ((members.map fun member =>
      (scalar (Scalar.str member.1), member.2)).map fun pair => pair.1.key) =
      (Table.keys members).map Except.ok := by
    rw [List.map_map, Table.keys, List.map_map]
    rfl
  refine Reordered.entries (hperm.map _) ?_
  rw [hpresented]
  exact hkeys.map fun _ _ h => Except.ok.inj h

end Presented

namespace Json

variable {item : Type} {s t text rest : Text}

/-- The reader takes an item from the text and leaves white space only. -/
def Spells (reader : Reader item) (s : Text) (x : item) : Prop :=
  exists after, Gives (reader s) x after ∧ skipSpace after = []

theorem Spells.unique {reader : Reader item} {x y : item} (h : Spells reader s x)
    (h' : Spells reader s y) : x = y := by
  rcases h with ⟨_, ⟨taken, hread, rfl, _⟩, _⟩
  rcases h' with ⟨_, ⟨taken', hread', rfl, _⟩, _⟩
  rw [hread] at hread'
  cases hread'
  rfl

theorem Reads.spells {reader : Reader item} {x : item} (h : Reads reader text x) :
    Spells reader text x := by
  have hread := h.gives [] Closed.nothing
  rw [List.append_nil] at hread
  exact ⟨[], hread, rfl⟩

theorem skipSpace_append (h : skipSpace s = []) (t : Text) :
    skipSpace (s ++ t) = skipSpace t :=
  List.dropWhile_append_of_pos (List.dropWhile_eq_nil_iff.mp h)

theorem skipSpace_of_spaces (h : forall c, c ∈ s -> isSpace c = true) :
    skipSpace s = [] :=
  List.dropWhile_eq_nil_iff.mpr h

theorem skipSpace_cons {c : Char} (hc : isSpace c = false) (s : Text) :
    skipSpace (c :: s) = c :: s :=
  List.dropWhile_cons_of_neg (Bool.eq_false_iff.mp hc)

theorem Spells.before {reader : Reader item} {x : item} {mark : Char}
    (h : Spells reader text x) (hreader : Framed reader) (hspace : isSpace mark = false)
    (hmark : goesOn mark = false) (rest : Text) :
    exists after, Gives (reader (text ++ mark :: rest)) x after ∧
      skipSpace after = mark :: rest := by
  rcases h with ⟨after, hread, hafter⟩
  have hstops : Stops (mark :: rest) := by
    intro c others heq
    cases heq
    exact hmark
  refine ⟨after ++ mark :: rest, hreader.extend hread hstops, ?_⟩
  rw [skipSpace_append hafter, skipSpace_cons hspace]

/-!
## Rows of spelled parts
-/

theorem ReadsRows.gives_of_spells {reader : Reader item} {rows : Reader (List item)}
    {mark : Char} {texts : List Text} {xs : List item} (h : ReadsRows reader rows mark)
    (hreader : Framed reader) (hspace : isSpace mark = false)
    (hmark : goesOn mark = false) (hparts : List.Forall₂ (Spells reader) texts xs)
    (hne : texts ≠ []) (rest : Text) :
    StartsValue (skipSpace (List.intercalate [','] texts ++ mark :: rest)) ∧
      Gives (rows (List.intercalate [','] texts ++ mark :: rest)) xs rest := by
  induction hparts with
  | nil => exact absurd rfl hne
  | @cons text x texts xs hfirst hothers ih =>
      cases hothers with
      | nil =>
          rw [List.intercalate_singleton]
          rcases hfirst.before hreader hspace hmark rest with ⟨after, hread, hafter⟩
          exact ⟨hreader.starts hread, h.last hread hafter⟩
      | @cons next y texts xs hnext htexts =>
          rcases ih (List.cons_ne_nil next texts) with ⟨hstarts, hrow⟩
          rw [List.intercalate_cons_cons, List.append_assoc, List.append_assoc,
            List.cons_append, List.nil_append]
          have hcomma : goesOn ',' = false := rfl
          rcases hfirst.before hreader rfl hcomma
            (List.intercalate [','] (next :: texts) ++ mark :: rest) with
            ⟨after, hread, hafter⟩
          exact ⟨hreader.starts hread, h.more hread hafter hstarts hrow⟩

def inBrackets (texts : List Text) : Text :=
  '[' :: List.intercalate [','] texts ++ [']']

def inBraces (texts : List Text) : Text :=
  '\x7b' :: List.intercalate [','] texts ++ ['\x7d']

theorem spells_list {levels : Nat} {texts : List Text} {ps : List Presented}
    (h : List.Forall₂ (Spells (value levels)) texts ps) :
    Spells (value (levels + 1)) (inBrackets texts) (Presented.row ps) := by
  have hinner := framed_value levels
  have hlist : Gives (list (value levels) (List.intercalate [','] texts ++ [']']))
      (Presented.row ps) [] := by
    cases h with
    | nil => exact list_of_bracket rfl
    | @cons text p texts ps hfirst hothers =>
        rcases (readsRows_listItems (value levels)).gives_of_spells hinner rfl rfl
          (List.Forall₂.cons hfirst hothers) (List.cons_ne_nil text texts) [] with
          ⟨hstarts, hitems⟩
        exact list_of_items hstarts hitems
  exact ⟨[], valueWith_iff.mpr (valueAt_iff.mp (ValueAt.list rfl hlist)), rfl⟩

theorem spells_object {levels : Nat} {texts : List Text} {entries : List (Text × Presented)}
    (h : List.Forall₂ (Spells (member (value levels))) texts entries) :
    Spells (value (levels + 1)) (inBraces texts) (Presented.ofMembers entries) := by
  have hmember := framed_member (framed_value levels)
  have hobject : Gives
      (object (value levels) (List.intercalate [','] texts ++ ['\x7d']))
      (Presented.ofMembers entries) [] := by
    cases h with
    | nil => exact object_of_brace rfl
    | @cons text x texts entries hfirst hothers =>
        rcases (readsRows_members (value levels)).gives_of_spells hmember rfl rfl
          (List.Forall₂.cons hfirst hothers) (List.cons_ne_nil text texts) [] with
          ⟨hstarts, hmembers⟩
        exact object_of_members hstarts hmembers
  exact ⟨[], valueWith_iff.mpr (valueAt_iff.mp (ValueAt.object rfl hobject)), rfl⟩

def Names (s : Text) (key : Text) : Prop :=
  exists letters after, skipSpace s = '"' :: letters ∧
    Gives (string letters) key after ∧ skipSpace after = [':']

theorem names_quoted (key gap : Text) (hgap : skipSpace gap = []) :
    Names (quoted key ++ gap ++ [':']) key := by
  have htext : quoted key ++ gap ++ [':'] =
      '"' :: (key.flatMap escaped ++ '"' :: (gap ++ [':'])) := by
    simp [quoted]
  refine ⟨_, gap ++ [':'], ?_, string_escaped key _, ?_⟩
  · rw [htext]
    rfl
  · rw [skipSpace_append hgap]
    rfl

theorem spells_member {reader : Reader Presented} {name key : Text} {p : Presented}
    (hname : Names name key) (h : Spells reader text p) :
    Spells (member reader) (name ++ text) (key, p) := by
  rcases hname with ⟨letters, between, hquote, hkey, hcolon⟩
  rcases h with ⟨after, hread, hafter⟩
  exact ⟨after, member_of_parts (skipSpace_extend hquote text) (string_extend hkey text)
    (skipSpace_extend hcolon text) hread, hafter⟩

theorem goesOn_of_isSpace {c : Char} (h : isSpace c = true) : goesOn c = false := by
  simp only [isSpace, Bool.or_eq_true, decide_eq_true_eq] at h
  rcases h with ((rfl | rfl) | rfl) | rfl
  · rfl
  · rfl
  · rfl
  · rfl

theorem Spells.spaced {levels : Nat} {p : Presented} {before after : Text}
    (h : Spells (value levels) s p) (hbefore : forall c, c ∈ before -> isSpace c = true)
    (hafter : forall c, c ∈ after -> isSpace c = true) :
    Spells (value levels) (before ++ s ++ after) p := by
  rcases exists_value_eq levels with ⟨inner?, hvalue⟩
  rcases h with ⟨left, hread, hleft⟩
  have hstops : Stops after := by
    intro c others heq
    rw [heq] at hafter
    exact goesOn_of_isSpace (hafter c List.mem_cons_self)
  have hmore := (framed_value levels).extend hread hstops
  refine ⟨left ++ after, ?_, ?_⟩
  · rw [hvalue, valueWith_iff] at hmore ⊢
    rwa [List.append_assoc, skipSpace_append (skipSpace_of_spaces hbefore)]
  · rw [skipSpace_append hleft, skipSpace_of_spaces hafter]

/-!
## Reordered documents
-/

/-- The same text with the members of objects in another order.  The text spells a value
that nests lists and objects at most so deep. -/
inductive Reordered : Nat -> Text -> Text -> Prop where
  | same {levels : Nat} {s : Text} {p : Presented} :
      Spells (value levels) s p -> Reordered levels s s
  | trans {levels : Nat} {r s t : Text} :
      Reordered levels r s -> Reordered levels s t -> Reordered levels r t
  | spaced {levels : Nat} {s t before after : Text} :
      (forall c, c ∈ before -> isSpace c = true) ->
      (forall c, c ∈ after -> isSpace c = true) -> Reordered levels s t ->
      Reordered levels (before ++ s ++ after) (before ++ t ++ after)
  | item {levels : Nat} {s t : Text} {before after : List Text}
      {ps qs : List Presented} :
      List.Forall₂ (Spells (value levels)) before ps ->
      List.Forall₂ (Spells (value levels)) after qs -> Reordered levels s t ->
      Reordered (levels + 1) (inBrackets (before ++ s :: after))
        (inBrackets (before ++ t :: after))
  | member {levels : Nat} {name key s t : Text} {before after : List Text}
      {xs ys : List (Text × Presented)} :
      List.Forall₂ (Spells (member (value levels))) before xs ->
      List.Forall₂ (Spells (member (value levels))) after ys -> Names name key ->
      Reordered levels s t ->
      Reordered (levels + 1) (inBraces (before ++ (name ++ s) :: after))
        (inBraces (before ++ (name ++ t) :: after))
  | members {levels : Nat} {texts others : List Text} {entries : List (Text × Presented)} :
      List.Forall₂ (Spells (member (value levels))) texts entries ->
      (Table.keys entries).Nodup -> texts.Perm others ->
      Reordered (levels + 1) (inBraces texts) (inBraces others)

/-- Reordered documents present reordered data. -/
theorem Reordered.exists_spells {levels : Nat} (h : Reordered levels s t) :
    exists p q, Spells (value levels) s p ∧ Spells (value levels) t q ∧
      p.Reordered q := by
  induction h with
  | same hs => exact ⟨_, _, hs, hs, Presented.Reordered.same _⟩
  | trans _ _ ihrs ihst =>
      rcases ihrs with ⟨p, q, hr, hs, hpq⟩
      rcases ihst with ⟨q', r, hs', ht, hqr⟩
      rw [← hs.unique hs'] at hqr
      exact ⟨p, r, hr, ht, hpq.trans hqr⟩
  | spaced hbefore hafter _ ih =>
      rcases ih with ⟨p, q, hs, ht, hpq⟩
      exact ⟨p, q, hs.spaced hbefore hafter, ht.spaced hbefore hafter, hpq⟩
  | item hbefore hafter _ ih =>
      rcases ih with ⟨p, q, hs, ht, hpq⟩
      exact ⟨_, _, spells_list (List.rel_append hbefore (List.Forall₂.cons hs hafter)),
        spells_list (List.rel_append hbefore (List.Forall₂.cons ht hafter)),
        Presented.Reordered.item _ _ hpq⟩
  | member hbefore hafter hname _ ih =>
      rcases ih with ⟨p, q, hs, ht, hpq⟩
      exact ⟨_, _,
        spells_object (List.rel_append hbefore
          (List.Forall₂.cons (spells_member hname hs) hafter)),
        spells_object (List.rel_append hbefore
          (List.Forall₂.cons (spells_member hname ht) hafter)),
        Presented.reordered_member _ _ _ hpq⟩
  | members htexts hkeys hperm =>
      rcases List.perm_comp_forall₂ hperm.symm htexts with ⟨entries', htexts', hentries⟩
      exact ⟨_, _, spells_object htexts, spells_object htexts',
        Presented.reordered_members hentries.symm hkeys⟩

/-- A document is read to a value if its text spells something that has the value. -/
theorem document_eq_ok_iff {v : Value} :
    document s = Except.ok v ↔
      exists p, Spells (value nestingLimit) s p ∧ p.value = Except.ok v := by
  unfold document
  constructor
  · intro h
    split at h
    case h_1 => cases h
    case h_2 taken hread =>
      split at h
      case h_1 => cases h
      case h_2 w hvalue =>
        split at h
        case h_1 hafter =>
          cases h
          exact ⟨taken.item, ⟨taken.rest, ⟨taken, hread, rfl, rfl⟩, hafter⟩, hvalue⟩
        case h_2 => cases h
  · rintro ⟨_, ⟨_, ⟨taken, hread, rfl, rfl⟩, hafter⟩, hvalue⟩
    rw [hread]
    dsimp only
    rw [hvalue]
    dsimp only
    rw [hafter]

theorem ofJson_eq_ok_iff {v : Value} :
    Value.ofJson s = Except.ok v ↔
      document s = Except.ok v ∧ v.kind = Kind.mapping := by
  unfold Value.ofJson
  cases document s with
  | error fault => simp
  | ok w =>
      dsimp only
      split
      case isTrue hkind =>
        constructor
        · intro h
          cases h
          exact ⟨rfl, hkind⟩
        · rintro ⟨h, _⟩
          cases h
          rfl
      case isFalse hkind =>
        constructor
        · intro h
          cases h
        · rintro ⟨h, hmapping⟩
          cases h
          exact absurd hmapping hkind

theorem Reordered.ofJson_eq {v : Value} (h : Reordered nestingLimit s t)
    (hs : Value.ofJson s = Except.ok v) : Value.ofJson t = Except.ok v := by
  rcases h.exists_spells with ⟨p, q, hp, hq, hpq⟩
  rcases ofJson_eq_ok_iff.mp hs with ⟨hdocument, hkind⟩
  rcases document_eq_ok_iff.mp hdocument with ⟨p', hp', hvalue⟩
  rw [← hp.unique hp'] at hvalue
  have hother := document_eq_ok_iff.mpr ⟨q, hq, hpq.value_eq hvalue⟩
  exact ofJson_eq_ok_iff.mpr ⟨hother, hkind⟩

end Json

end Stencil
