import Mathlib.Data.List.Forall2
import Stencil.Proofs.Json.Written

/-!
# Documents that are read back

## Parts between commas

A reader reads a text if it gives the same item in front of everything that may stand
behind a value.  If a reader reads the parts of a row, then a reader of rows that is
built on it reads the parts with commas between them, up to the mark that closes the row.
This holds for the items of a list and for the members of an object.

So the document of a tree is read back level by level: a reader of so many levels reads
every tree that is not nested deeper.
-/

namespace Stencil

namespace Json

variable {item : Type} {s text after others rest : Text}

def startsValue (c : Char) : Bool :=
  c = '-' || isDigit c || c ∈ ['n', 't', 'f', '"', '[', '\x7b']

def StartsValue (s : Text) : Prop :=
  exists c others, s = c :: others ∧ startsValue c = true

theorem isSpace_of_startsValue {c : Char} (h : startsValue c = true) :
    isSpace c = false := by
  by_contra hspace
  simp only [isSpace, Bool.or_eq_true, decide_eq_true_eq, Bool.not_eq_false] at hspace
  rcases hspace with ((rfl | rfl) | rfl) | rfl
  · cases h
  · cases h
  · cases h
  · cases h

namespace StartsValue

theorem append (h : StartsValue s) (rest : Text) : StartsValue (s ++ rest) := by
  rcases h with ⟨c, others, rfl, hc⟩
  exact ⟨c, others ++ rest, rfl, hc⟩

theorem intercalate (h : StartsValue s) (texts : List Text) :
    StartsValue (List.intercalate [','] (s :: texts)) := by
  cases texts with
  | nil =>
      rw [List.intercalate_singleton]
      exact h
  | cons next texts =>
      rw [List.intercalate_cons_cons, List.append_assoc]
      exact h.append _

theorem skipSpace_eq (h : StartsValue s) : skipSpace s = s := by
  rcases h with ⟨c, others, rfl, hc⟩
  exact List.dropWhile_cons_of_neg (Bool.eq_false_iff.mp (isSpace_of_startsValue hc))

theorem afterSpace (h : StartsValue s) : StartsValue (skipSpace s) := by
  rw [h.skipSpace_eq]
  exact h

theorem ne_cons {mark : Char} (h : StartsValue s) (hmark : startsValue mark = false)
    (others : Text) : s ≠ mark :: others := by
  rcases h with ⟨c, rest, rfl, hc⟩
  intro heq
  cases heq
  rw [hc] at hmark
  cases hmark

theorem ne_nil (h : StartsValue s) : s ≠ [] := by
  rcases h with ⟨c, rest, rfl, _⟩
  exact List.cons_ne_nil c rest

end StartsValue

/-!
## Rows
-/

structure Reads (reader : Reader item) (text : Text) (x : item) : Prop where
  starts : StartsValue text
  gives : forall rest, Closed rest -> Gives (reader (text ++ rest)) x rest

structure ReadsRows (reader : Reader item) (rows : Reader (List item)) (mark : Char) :
    Prop where
  closed : forall rest, Closed (mark :: rest)
  last : forall {s after rest : Text} {x : item},
    Gives (reader s) x after -> skipSpace after = mark :: rest ->
    Gives (rows s) [x] rest
  more : forall {s after others rest : Text} {x : item} {xs : List item},
    Gives (reader s) x after -> skipSpace after = ',' :: others ->
    StartsValue (skipSpace others) -> Gives (rows others) xs rest ->
    Gives (rows s) (x :: xs) rest

theorem ReadsRows.gives {reader : Reader item} {rows : Reader (List item)} {mark : Char}
    {texts : List Text} {xs : List item} (h : ReadsRows reader rows mark)
    (hmark : isSpace mark = false) (hparts : List.Forall₂ (Reads reader) texts xs)
    (hne : texts ≠ []) (rest : Text) :
    Gives (rows (List.intercalate [','] texts ++ mark :: rest)) xs rest := by
  have hspace : skipSpace (mark :: rest) = mark :: rest :=
    List.dropWhile_cons_of_neg (Bool.eq_false_iff.mp hmark)
  induction hparts with
  | nil => exact absurd rfl hne
  | @cons text x texts xs hfirst hothers ih =>
      cases hothers with
      | nil =>
          rw [List.intercalate_singleton]
          exact h.last (hfirst.gives _ (h.closed rest)) hspace
      | @cons next y texts xs hnext htexts =>
          have hrow := ih (List.cons_ne_nil next texts)
          have hstarts := (hnext.starts.intercalate texts).append (mark :: rest)
          rw [List.intercalate_cons_cons, List.append_assoc, List.append_assoc]
          exact h.more (hfirst.gives _ (Closed.comma _)) rfl hstarts.afterSpace hrow

/-!
## Lists
-/

variable {inner : Reader Presented}

theorem readsRows_listItems (inner : Reader Presented) :
    ReadsRows inner (listItems inner) ']' := by
  refine ⟨Closed.bracket, ?_, ?_⟩
  · intro s after rest p hfirst hend
    rcases hfirst with ⟨first, hread, rfl, rfl⟩
    unfold listItems
    rw [hread]
    dsimp only
    split
    case h_1 heq => cases hend.symm.trans heq
    case h_2 heq =>
      cases hend.symm.trans heq
      exact ⟨_, rfl, rfl, rfl⟩
    case h_3 heq => cases hend.symm.trans heq
    case h_4 hnot _ => exact absurd hend (hnot rest)
  · intro s after others rest p ps hfirst hcomma hstarts hothers
    rcases hfirst with ⟨first, hread, rfl, rfl⟩
    rcases hothers with ⟨taken, hitems, rfl, rfl⟩
    unfold listItems
    rw [hread]
    dsimp only
    split
    case h_1 heq => cases hcomma.symm.trans heq
    case h_2 heq => cases hcomma.symm.trans heq
    case h_3 heq =>
      cases hcomma.symm.trans heq
      split
      case h_1 hbracket => exact absurd hbracket (hstarts.ne_cons rfl _)
      case h_2 =>
        rw [hitems]
        exact ⟨_, rfl, rfl, rfl⟩
    case h_4 hnot => exact absurd hcomma (hnot others)

theorem list_of_items {ps : List Presented} (hstarts : StartsValue (skipSpace s))
    (h : Gives (listItems inner s) ps rest) : Gives (list inner s) (Presented.row ps) rest := by
  rcases h with ⟨items, hread, rfl, rfl⟩
  unfold list
  split
  case h_1 heq => exact absurd heq hstarts.ne_nil
  case h_2 heq => exact absurd heq (hstarts.ne_cons rfl _)
  case h_3 =>
    rw [hread]
    exact ⟨_, rfl, rfl, rfl⟩

theorem list_reads {texts : List Text} {ps : List Presented}
    (h : List.Forall₂ (Reads inner) texts ps) (rest : Text) :
    Gives (list inner (List.intercalate [','] texts ++ ']' :: rest)) (Presented.row ps)
      rest := by
  cases h with
  | nil => exact ⟨_, rfl, rfl, rfl⟩
  | @cons text p texts ps hfirst hothers =>
      have hitems := (readsRows_listItems inner).gives rfl (List.Forall₂.cons hfirst hothers)
        (List.cons_ne_nil text texts) rest
      exact list_of_items ((hfirst.starts.intercalate texts).append _).afterSpace hitems

/-!
## Objects
-/

theorem member_of_parts {key body : Text} {p : Presented} (hquote : skipSpace s = '"' :: others)
    (hkey : Gives (string others) key after) (hcolon : skipSpace after = ':' :: body)
    (hvalue : Gives (inner body) p rest) : Gives (member inner s) (key, p) rest := by
  rcases hkey with ⟨taken, hstring, rfl, rfl⟩
  rcases hvalue with ⟨value, hread, rfl, rfl⟩
  unfold member
  split
  case h_1 heq => cases hquote.symm.trans heq
  case h_2 heq =>
    cases hquote.symm.trans heq
    rw [hstring]
    dsimp only
    split
    case h_1 heq' => cases hcolon.symm.trans heq'
    case h_2 heq' =>
      cases hcolon.symm.trans heq'
      rw [hread]
      exact ⟨_, rfl, rfl, rfl⟩
    case h_3 _ hnot => exact absurd hcolon (hnot body)
  case h_3 _ hnot => exact absurd hquote (hnot others)

theorem member_reads {p : Presented} (key : Text) (h : Reads inner text p) :
    Reads (member inner) (quoted key ++ ':' :: text) (key, p) := by
  constructor
  · exact ⟨'"', _, rfl, rfl⟩
  · intro rest hrest
    have hkey := string_escaped key (':' :: text ++ rest)
    have hquoted : quoted key ++ ':' :: text ++ rest =
        '"' :: (key.flatMap escaped ++ '"' :: (':' :: text ++ rest)) := by
      simp [quoted]
    rw [hquoted]
    exact member_of_parts rfl hkey rfl (h.gives rest hrest)

theorem readsRows_members (inner : Reader Presented) :
    ReadsRows (member inner) (members inner) '\x7d' := by
  refine ⟨Closed.brace, ?_, ?_⟩
  · intro s after rest x hfirst hend
    rcases hfirst with ⟨first, hread, rfl, rfl⟩
    unfold members
    rw [hread]
    dsimp only
    split
    case h_1 heq => cases hend.symm.trans heq
    case h_2 heq =>
      cases hend.symm.trans heq
      exact ⟨_, rfl, rfl, rfl⟩
    case h_3 heq => cases hend.symm.trans heq
    case h_4 hnot _ => exact absurd hend (hnot rest)
  · intro s after others rest x xs hfirst hcomma hstarts hothers
    rcases hfirst with ⟨first, hread, rfl, rfl⟩
    rcases hothers with ⟨taken, hmembers, rfl, rfl⟩
    unfold members
    rw [hread]
    dsimp only
    split
    case h_1 heq => cases hcomma.symm.trans heq
    case h_2 heq => cases hcomma.symm.trans heq
    case h_3 heq =>
      cases hcomma.symm.trans heq
      split
      case h_1 hbrace => exact absurd hbrace (hstarts.ne_cons rfl _)
      case h_2 =>
        rw [hmembers]
        exact ⟨_, rfl, rfl, rfl⟩
    case h_4 hnot => exact absurd hcomma (hnot others)

theorem object_of_members {entries : List (Text × Presented)}
    (hstarts : StartsValue (skipSpace s))
    (h : Gives (members inner s) entries rest) :
    Gives (object inner s) (Presented.ofMembers entries) rest := by
  rcases h with ⟨taken, hread, rfl, rfl⟩
  unfold object
  split
  case h_1 heq => exact absurd heq hstarts.ne_nil
  case h_2 heq => exact absurd heq (hstarts.ne_cons rfl _)
  case h_3 =>
    rw [hread]
    exact ⟨_, rfl, rfl, rfl⟩

theorem object_reads {texts : List Text} {entries : List (Text × Presented)}
    (h : List.Forall₂ (Reads (member inner)) texts entries) (rest : Text) :
    Gives (object inner (List.intercalate [','] texts ++ '\x7d' :: rest))
      (Presented.ofMembers entries) rest := by
  cases h with
  | nil => exact ⟨_, rfl, rfl, rfl⟩
  | @cons text entry texts entries hfirst hothers =>
      have hmembers := (readsRows_members inner).gives rfl
        (List.Forall₂.cons hfirst hothers) (List.cons_ne_nil text texts) rest
      exact object_of_members ((hfirst.starts.intercalate texts).append _).afterSpace hmembers

/-!
## Values
-/

variable {inner? : Option (Reader Presented)} {p : Presented}

def startsNumber (c : Char) : Bool :=
  c = '-' || isDigit c

theorem startsValue_cases {c : Char} (h : startsValue c = true) :
    startsNumber c = true ∨ c = 'n' ∨ c = 't' ∨ c = 'f' ∨ c = '"' ∨ c = '[' ∨
      c = '\x7b' := by
  have hcases : (startsNumber c || c ∈ ['n', 't', 'f', '"', '[', '\x7b']) = true := h
  rw [Bool.or_eq_true, decide_eq_true_eq] at hcases
  simpa only [List.mem_cons, List.not_mem_nil, or_false] using hcases

theorem word_iff {letters : Text} {p q : Presented} {hne : letters ≠ []} :
    Gives (word letters p s hne) q rest ↔ s = letters ++ rest ∧ q = p := by
  induction letters generalizing s rest q with
  | nil => exact absurd rfl hne
  | cons l letters ih =>
      cases s with
      | nil =>
          constructor
          · intro h
            rcases h with ⟨taken, hread, _⟩
            cases hread
          · intro h
            rcases h with ⟨heq, _⟩
            cases heq
      | cons c others =>
          rw [List.cons_append, List.cons.injEq, word]
          split
          case isFalse hc =>
            constructor
            · intro h
              rcases h with ⟨taken, hread, _⟩
              cases hread
            · intro h
              rcases h with ⟨⟨heq, _⟩, _⟩
              exact absurd heq.symm hc
          case isTrue hc =>
            split
            case isTrue hlast =>
              subst hlast
              constructor
              · intro h
                rcases h with ⟨taken, hread, rfl, rfl⟩
                cases hread
                exact ⟨⟨hc.symm, rfl⟩, rfl⟩
              · intro h
                rcases h with ⟨⟨_, rfl⟩, rfl⟩
                exact ⟨_, rfl, rfl, rfl⟩
            case isFalse hmore =>
              constructor
              · intro h
                rcases h with ⟨taken, hread, rfl, rfl⟩
                split at hread
                case h_1 => cases hread
                case h_2 more hword =>
                  cases hread
                  exact ⟨⟨hc.symm, (ih.mp ⟨more, hword, rfl, rfl⟩).1⟩, rfl⟩
              · intro h
                rcases h with ⟨⟨_, heq⟩, rfl⟩
                rcases ih.mpr ⟨heq, rfl⟩ with ⟨more, hword, _, hrest⟩
                rw [hword]
                exact ⟨_, rfl, rfl, hrest⟩

theorem valueHere_number_iff {c : Char} (hc : startsNumber c = true) :
    Gives (valueHere inner? (c :: s)) p rest ↔
      exists x, p = Presented.scalar x ∧ Gives (number (c :: s)) x rest := by
  have hstarts : (decide (c = '-') || isDigit c) = true := hc
  unfold valueHere
  dsimp only
  rw [if_pos hstarts]
  constructor
  · rintro ⟨taken, hread, rfl, rfl⟩
    split at hread
    case h_1 => cases hread
    case h_2 x hx =>
      cases hread
      exact ⟨x.item, rfl, x, hx, rfl, rfl⟩
  · rintro ⟨_, rfl, x, hx, rfl, rfl⟩
    rw [hx]
    exact ⟨_, rfl, rfl, rfl⟩

theorem valueHere_quote_iff :
    Gives (valueHere inner? ('"' :: s)) p rest ↔
      exists text, p = Presented.scalar (Scalar.str text) ∧ Gives (string s) text rest := by
  constructor
  · rintro ⟨taken, hread, rfl, rfl⟩
    unfold valueHere at hread
    cases hstring : string s with
    | error fault => simp [hstring, isDigit] at hread
    | ok text =>
        simp only [hstring] at hread
        cases hread
        exact ⟨text.item, rfl, text, rfl, rfl, rfl⟩
  · rintro ⟨_, rfl, text, hstring, rfl, rfl⟩
    unfold valueHere
    simp only [hstring]
    exact ⟨_, rfl, rfl, rfl⟩

theorem valueHere_bracket_iff :
    Gives (valueHere (some inner) ('[' :: s)) p rest ↔ Gives (list inner s) p rest := by
  constructor
  · rintro ⟨taken, hread, rfl, rfl⟩
    unfold valueHere at hread
    cases hlist : list inner s with
    | error fault => simp [hlist, isDigit] at hread
    | ok items =>
        simp only [hlist] at hread
        cases hread
        exact ⟨items, rfl, rfl, rfl⟩
  · rintro ⟨items, hlist, rfl, rfl⟩
    unfold valueHere
    simp only [hlist]
    exact ⟨_, rfl, rfl, rfl⟩

theorem valueHere_brace_iff :
    Gives (valueHere (some inner) ('\x7b' :: s)) p rest ↔ Gives (object inner s) p rest := by
  constructor
  · rintro ⟨taken, hread, rfl, rfl⟩
    unfold valueHere at hread
    cases hobject : object inner s with
    | error fault => simp [hobject, isDigit] at hread
    | ok members =>
        simp only [hobject] at hread
        cases hread
        exact ⟨members, rfl, rfl, rfl⟩
  · rintro ⟨members, hobject, rfl, rfl⟩
    unfold valueHere
    simp only [hobject]
    exact ⟨_, rfl, rfl, rfl⟩

theorem startsValue_of_valueHere (h : Gives (valueHere inner? s) p rest) :
    StartsValue s := by
  rcases h with ⟨taken, hread, rfl, rfl⟩
  cases s with
  | nil => cases hread
  | cons c others =>
      refine ⟨c, others, rfl, ?_⟩
      by_contra hstarts
      simp only [startsValue, Bool.or_eq_true, decide_eq_true_eq, List.mem_cons,
        List.not_mem_nil, or_false, not_or] at hstarts
      rcases hstarts with ⟨⟨hminus, hdigit⟩, hn, ht, hf, hquote, hbracket, hbrace⟩
      simp [valueHere, hminus, hdigit, hn, ht, hf, hquote, hbracket, hbrace] at hread

/-- What can be read as a value where no space is left in front of it. -/
inductive ValueAt (inner? : Option (Reader Presented)) :
    Text -> Presented -> Text -> Prop where
  | number {c : Char} {s rest : Text} {x : Scalar} :
      startsNumber c = true ->
      Gives (number (c :: s)) x rest ->
      ValueAt inner? (c :: s) (Presented.scalar x) rest
  | null {rest : Text} :
      ValueAt inner? ("null".toList ++ rest) Presented.unit rest
  | bool (b : Bool) {rest : Text} :
      ValueAt inner? (Value.displayBool b ++ rest) (Presented.scalar (Scalar.bool b)) rest
  | quote {s rest text : Text} :
      Gives (string s) text rest ->
      ValueAt inner? ('"' :: s) (Presented.scalar (Scalar.str text)) rest
  | list {inner : Reader Presented} {s rest : Text} {p : Presented} :
      inner? = some inner ->
      Gives (list inner s) p rest ->
      ValueAt inner? ('[' :: s) p rest
  | object {inner : Reader Presented} {s rest : Text} {p : Presented} :
      inner? = some inner ->
      Gives (object inner s) p rest ->
      ValueAt inner? ('\x7b' :: s) p rest

theorem valueHere_of_valueAt (h : ValueAt inner? s p rest) :
    Gives (valueHere inner? s) p rest := by
  cases h with
  | number hc hx => exact (valueHere_number_iff hc).mpr ⟨_, rfl, hx⟩
  | null => exact ⟨_, rfl, rfl, rfl⟩
  | bool b =>
      cases b with
      | false => exact ⟨_, rfl, rfl, rfl⟩
      | true => exact ⟨_, rfl, rfl, rfl⟩
  | quote htext => exact valueHere_quote_iff.mpr ⟨_, rfl, htext⟩
  | list hsome hlist =>
      subst hsome
      exact valueHere_bracket_iff.mpr hlist
  | object hsome hobject =>
      subst hsome
      exact valueHere_brace_iff.mpr hobject

theorem valueAt_of_valueHere (h : Gives (valueHere inner? s) p rest) :
    ValueAt inner? s p rest := by
  rcases startsValue_of_valueHere h with ⟨c, others, rfl, hc⟩
  rcases startsValue_cases hc with hnumber | rfl | rfl | rfl | rfl | rfl | rfl
  · rcases (valueHere_number_iff hnumber).mp h with ⟨x, rfl, hx⟩
    exact ValueAt.number hnumber hx
  · rcases word_iff.mp h with ⟨heq, rfl⟩
    rw [heq]
    exact ValueAt.null
  · rcases word_iff.mp h with ⟨heq, rfl⟩
    rw [heq]
    exact ValueAt.bool true
  · rcases word_iff.mp h with ⟨heq, rfl⟩
    rw [heq]
    exact ValueAt.bool false
  · rcases valueHere_quote_iff.mp h with ⟨text, rfl, htext⟩
    exact ValueAt.quote htext
  · cases inner? with
    | none =>
        rcases h with ⟨taken, hread, _⟩
        cases hread
    | some inner => exact ValueAt.list rfl (valueHere_bracket_iff.mp h)
  · cases inner? with
    | none =>
        rcases h with ⟨taken, hread, _⟩
        cases hread
    | some inner => exact ValueAt.object rfl (valueHere_brace_iff.mp h)

theorem valueAt_iff : ValueAt inner? s p rest ↔ Gives (valueHere inner? s) p rest :=
  ⟨valueHere_of_valueAt, valueAt_of_valueHere⟩

theorem valueWith_iff :
    Gives (valueWith inner? s) p rest ↔ Gives (valueHere inner? (skipSpace s)) p rest := by
  unfold valueWith
  constructor
  · rintro ⟨taken, hread, rfl, rfl⟩
    split at hread
    case h_1 => cases hread
    case h_2 here hhere =>
      cases hread
      exact ⟨here, hhere, rfl, rfl⟩
  · rintro ⟨here, hhere, rfl, rfl⟩
    rw [hhere]
    exact ⟨_, rfl, rfl, rfl⟩

theorem exists_value_eq (levels : Nat) : exists inner?, value levels = valueWith inner? := by
  cases levels with
  | zero => exact ⟨none, rfl⟩
  | succ levels => exact ⟨some (value levels), rfl⟩

theorem reads_valueWith (hstarts : StartsValue text)
    (h : forall rest, Closed rest -> Gives (valueHere inner? (text ++ rest)) p rest) :
    Reads (valueWith inner?) text p := by
  refine ⟨hstarts, ?_⟩
  intro rest hrest
  rw [valueWith_iff, (hstarts.append rest).skipSpace_eq]
  exact h rest hrest

theorem reads_null : Reads (valueWith inner?) "null".toList Presented.unit := by
  apply reads_valueWith
  · exact ⟨'n', _, rfl, rfl⟩
  · intro rest _
    exact valueAt_iff.mp ValueAt.null

theorem reads_bool (b : Bool) :
    Reads (valueWith inner?) (Value.displayBool b) (Presented.scalar (Scalar.bool b)) := by
  apply reads_valueWith
  · cases b with
    | false => exact ⟨'f', _, rfl, rfl⟩
    | true => exact ⟨'t', _, rfl, rfl⟩
  · intro rest _
    exact valueAt_iff.mp (ValueAt.bool b)

theorem reads_str (s : Text) :
    Reads (valueWith inner?) (quoted s) (Presented.scalar (Scalar.str s)) := by
  apply reads_valueWith
  · exact ⟨'"', _, rfl, rfl⟩
  · intro rest _
    have hquoted : quoted s ++ rest = '"' :: (s.flatMap escaped ++ '"' :: rest) := by
      simp [quoted]
    rw [hquoted]
    exact valueAt_iff.mp (ValueAt.quote (string_escaped s rest))

theorem exists_of_ofNat (n : Nat) :
    exists c others, Text.ofNat n = c :: others ∧ startsNumber c = true := by
  rcases ofNat_cases n with h | ⟨c, others, h, hdigit, _⟩
  · exact ⟨'0', [], h, rfl⟩
  · exact ⟨c, others, h, by rw [startsNumber, hdigit, Bool.or_true]⟩

theorem exists_of_ofInt (n : Int) :
    exists c others, Text.ofInt n = c :: others ∧ startsNumber c = true := by
  cases n with
  | ofNat k => exact exists_of_ofNat k
  | negSucc k => exact ⟨'-', Text.ofNat (k + 1), rfl, rfl⟩

theorem reads_of_number {x : Scalar}
    (hstarts : exists c others, text = c :: others ∧ startsNumber c = true)
    (h : forall rest, Closed rest -> Gives (number (text ++ rest)) x rest) :
    Reads (valueWith inner?) text (Presented.scalar x) := by
  rcases hstarts with ⟨c, others, rfl, hc⟩
  apply reads_valueWith
  · refine ⟨c, others, rfl, ?_⟩
    show (startsNumber c || _) = true
    rw [hc, Bool.true_or]
  · intro rest hrest
    exact valueAt_iff.mp (ValueAt.number hc (h rest hrest))

theorem reads_list {texts : List Text} {ps : List Presented}
    (h : List.Forall₂ (Reads inner) texts ps) :
    Reads (valueWith (some inner)) ('[' :: List.intercalate [','] texts ++ [']'])
      (Presented.row ps) := by
  apply reads_valueWith
  · exact ⟨'[', _, rfl, rfl⟩
  · intro rest _
    have htext : '[' :: List.intercalate [','] texts ++ [']'] ++ rest =
        '[' :: (List.intercalate [','] texts ++ ']' :: rest) := by
      simp
    rw [htext]
    exact valueAt_iff.mp (ValueAt.list rfl (list_reads h rest))

theorem reads_object {texts : List Text} {entries : List (Text × Presented)}
    (h : List.Forall₂ (Reads (member inner)) texts entries) :
    Reads (valueWith (some inner)) ('\x7b' :: List.intercalate [','] texts ++ ['\x7d'])
      (Presented.ofMembers entries) := by
  apply reads_valueWith
  · exact ⟨'\x7b', _, rfl, rfl⟩
  · intro rest _
    have htext : '\x7b' :: List.intercalate [','] texts ++ ['\x7d'] ++ rest =
        '\x7b' :: (List.intercalate [','] texts ++ '\x7d' :: rest) := by
      simp
    rw [htext]
    exact valueAt_iff.mp (ValueAt.object rfl (object_reads h rest))

/-!
## Documents
-/

namespace Tree

mutual

/-- A reader of so many levels reads every tree that is not nested deeper. -/
theorem reads_print : forall (tree : Tree) (levels : Nat), tree.depth ≤ levels ->
    Reads (Json.value levels) tree.print tree.presented
  | tree, levels, h => by
      -- Scalars are read on every level; a list or an object takes one of them.
      rcases exists_value_eq levels with ⟨inner?, hreader⟩
      cases tree with
      | null =>
          rw [hreader]
          exact reads_null
      | bool b =>
          rw [hreader]
          exact reads_bool b
      | integer n =>
          rw [hreader]
          exact reads_of_number (exists_of_ofInt n.toInt) fun rest hrest =>
            number_integer n hrest
      | natural n =>
          rw [hreader]
          exact reads_of_number (exists_of_ofNat n.toNat) fun rest hrest =>
            number_natural n hrest
      | str s =>
          rw [hreader]
          exact reads_str s
      | list items =>
          cases levels with
          | zero => cases h
          | succ levels =>
              exact reads_list (reads_printItems items levels (Nat.le_of_succ_le_succ h))
      | object members =>
          cases levels with
          | zero => cases h
          | succ levels =>
              exact reads_object
                (reads_printMembers members levels (Nat.le_of_succ_le_succ h))

theorem reads_printItems : forall (items : List Tree) (levels : Nat),
    depthItems items ≤ levels ->
    List.Forall₂ (Reads (Json.value levels)) (printItems items) (presentedItems items)
  | [], _, _ => List.Forall₂.nil
  | item :: rest, levels, h => by
      rcases Nat.max_le.mp h with ⟨hitem, hrest⟩
      exact List.Forall₂.cons (reads_print item levels hitem)
        (reads_printItems rest levels hrest)

theorem reads_printMembers : forall (members : List (Text × Tree)) (levels : Nat),
    depthMembers members ≤ levels ->
    List.Forall₂ (Reads (member (Json.value levels))) (printMembers members)
      (presentedMembers members)
  | [], _, _ => List.Forall₂.nil
  | (key, item) :: rest, levels, h => by
      rcases Nat.max_le.mp h with ⟨hitem, hrest⟩
      exact List.Forall₂.cons (member_reads key (reads_print item levels hitem))
        (reads_printMembers rest levels hrest)

end

/-- The document of a tree is read back if the tree is not nested too deep. -/
theorem document_print {tree : Tree} (h : tree.depth ≤ nestingLimit) :
    document tree.print = Except.ok tree.value := by
  have hread := (reads_print tree nestingLimit h).gives [] Closed.nothing
  rw [List.append_nil] at hread
  rcases hread with ⟨taken, htaken, hitem, hafter⟩
  unfold document
  rw [htaken]
  dsimp only
  rw [hitem, value_presented]
  dsimp only
  rw [hafter]
  rfl

theorem ofJson_print {members : List (Text × Tree)}
    (h : (object members).depth ≤ nestingLimit) :
    Value.ofJson (object members).print = Except.ok (object members).value := by
  unfold Value.ofJson
  rw [document_print h]
  rfl

end Tree

end Json

end Stencil
