import Stencil.Proofs.Json.Tree

/-!
# Reading what has been written

## Strings and numbers

Every scalar that is written in a document is read back, whatever stands behind it: a
string ends with its own quote, and a number ends in front of a mark that no number goes
on with.  Each reader is described by what it gives, that is by the item which it takes
and by the rest of the text that it leaves.
-/

namespace Stencil

namespace Json

variable {item : Type} {s rest : Text}

/-- A reading that took an item and left a rest. -/
def Gives (reading : Reading item s) (x : item) (rest : Text) : Prop :=
  exists taken, reading = Except.ok taken ∧ taken.item = x ∧ taken.rest = rest

/-!
## Strings
-/

theorem hexValue?_digitChar {n : Nat} (h : n < 16) :
    hexValue? n.digitChar = some n := by
  have hall : forall n, n < 16 -> hexValue? n.digitChar = some n := by
    decide
  exact hall n h

theorem four_le_length_utf8 (a b c d : Char) : 4 ≤ (Text.utf8 [a, b, c, d]).length := by
  have hpos : forall c : Char, 1 ≤ (String.utf8EncodeChar c).length := by
    intro c
    rw [String.length_utf8EncodeChar]
    exact c.utf8Size_pos
  have ha := hpos a
  have hb := hpos b
  have hc := hpos c
  have hd := hpos d
  simp only [Text.utf8, List.flatMap_cons, List.flatMap_nil, List.length_append,
    List.length_nil]
  omega

theorem fourHexDigits_iff {n : Nat} :
    Gives (fourHexDigits s) n rest ↔
      exists a b c d x y z w, s = a :: b :: c :: d :: rest ∧ hexValue? a = some x ∧
        hexValue? b = some y ∧ hexValue? c = some z ∧ hexValue? d = some w ∧
        n = ((x * 16 + y) * 16 + z) * 16 + w := by
  constructor
  · rintro ⟨code, hread, rfl, rfl⟩
    unfold fourHexDigits at hread
    split at hread
    case isTrue => cases hread
    case isFalse =>
      split at hread
      case h_1 a b c d rest _ =>
        split at hread
        case h_1 x y z w hx hy hz hw =>
          cases hread
          exact ⟨a, b, c, d, x, y, z, w, rfl, hx, hy, hz, hw, rfl⟩
        case h_2 => cases hread
      case h_2 => cases hread
  · rintro ⟨a, b, c, d, x, y, z, w, rfl, hx, hy, hz, hw, rfl⟩
    have hlength : ¬ (Text.utf8 ((a :: b :: c :: d :: rest).take 4)).length < 4 :=
      Nat.not_lt.mpr (four_le_length_utf8 a b c d)
    unfold fourHexDigits
    rw [if_neg hlength]
    dsimp only
    rw [hx, hy, hz, hw]
    exact ⟨_, rfl, rfl, rfl⟩

theorem fourHexDigits_control {high low : Nat} (hhigh : high < 16) (hlow : low < 16) :
    Gives (fourHexDigits ('0' :: '0' :: high.digitChar :: low.digitChar :: rest))
      (high * 16 + low) rest := by
  have hzero : hexValue? '0' = some 0 := rfl
  exact fourHexDigits_iff.mpr ⟨_, _, _, _, 0, 0, high, low, rfl, hzero, hzero,
    hexValue?_digitChar hhigh, hexValue?_digitChar hlow, by simp⟩

theorem codeEscape_control {c : Char} (h : c < ' ') (rest : Text) :
    Gives (codeEscape
      ('0' :: '0' :: (c.toNat / 16).digitChar :: (c.toNat % 16).digitChar :: rest))
      c rest := by
  have hcode : c.toNat < 32 := h
  have hlow : c.toNat % 16 < 16 := Nat.mod_lt _ (by decide)
  have hhigh : c.toNat / 16 < 16 := by omega
  rcases fourHexDigits_control hhigh hlow with ⟨code, hread, hitem, hrest⟩
  have hchar : code.item = c.toNat := by
    rw [hitem]
    omega
  have htrailing : isTrailing code.item = false := by
    simp [isTrailing, hchar]
    omega
  have hleading : isLeading code.item = false := by
    simp [isLeading, hchar]
    omega
  unfold codeEscape
  rw [hread]
  dsimp only
  rw [htrailing, hleading, hchar, Char.ofNat_toNat]
  exact ⟨_, rfl, rfl, hrest⟩

theorem escape_control {c : Char} (h : c < ' ') :
    Gives (escape ('u' :: '0' :: '0' :: (c.toNat / 16).digitChar ::
      (c.toNat % 16).digitChar :: rest)) c rest := by
  rcases codeEscape_control h rest with ⟨code, hread, hitem, hrest⟩
  have hshort : shortEscape? 'u' = none := rfl
  unfold escape
  dsimp only
  rw [hshort, hread]
  exact ⟨_, rfl, hitem, hrest⟩

/-- A character is escaped by a letter or by its code, or it stands for itself. -/
theorem escaped_cases (c : Char) :
    (exists letter, shortEscape? letter = some c ∧ escaped c = ['\\', letter]) ∨
      (c < ' ' ∧ escaped c =
        ['\\', 'u', '0', '0', (c.toNat / 16).digitChar, (c.toNat % 16).digitChar]) ∨
      (c ≠ '"' ∧ c ≠ '\\' ∧ ¬ c < ' ' ∧ escaped c = [c]) := by
  unfold escaped
  split
  case h_8 hquote hbackslash _ _ _ _ _ =>
    right
    by_cases hcontrol : c < ' '
    · exact Or.inl ⟨hcontrol, if_pos hcontrol⟩
    · exact Or.inr ⟨hquote, hbackslash, hcontrol, if_neg hcontrol⟩
  all_goals exact Or.inl ⟨_, rfl, rfl⟩

theorem stringItem_of_escape {c : Char} (h : Gives (escape s) c rest) :
    Gives (stringItem ('\\' :: s)) (some c) rest := by
  rcases h with ⟨code, hread, rfl, rfl⟩
  rw [stringItem, hread]
  exact ⟨_, rfl, rfl, rfl⟩

theorem stringItem_of_plain {c : Char} (hquote : c ≠ '"') (hbackslash : c ≠ '\\')
    (hplain : ¬ c < ' ') : Gives (stringItem (c :: rest)) (some c) rest := by
  rw [stringItem, if_neg hplain]
  · exact ⟨_, rfl, rfl, rfl⟩
  · exact hquote
  · exact hbackslash

theorem stringItem_escaped (c : Char) (rest : Text) :
    Gives (stringItem (escaped c ++ rest)) (some c) rest := by
  rcases escaped_cases c with ⟨letter, hshort, hc⟩ | ⟨hcontrol, hc⟩ |
    ⟨hquote, hbackslash, hplain, hc⟩
  · rw [hc]
    apply stringItem_of_escape
    show Gives (escape (letter :: rest)) c rest
    rw [escape, hshort]
    exact ⟨_, rfl, rfl, rfl⟩
  · rw [hc]
    exact stringItem_of_escape (escape_control hcontrol)
  · rw [hc]
    exact stringItem_of_plain hquote hbackslash hplain

theorem string_of_quote (rest : Text) : Gives (string ('"' :: rest)) [] rest := by
  have hitem : stringItem ('"' :: rest) = Except.ok (Taken.first none '"' rest) := rfl
  rw [string, hitem]
  exact ⟨_, rfl, rfl, rfl⟩

theorem string_of_item {c : Char} {after others : Text}
    (hfirst : Gives (stringItem s) (some c) after)
    (hothers : Gives (string after) others rest) :
    Gives (string s) (c :: others) rest := by
  rcases hfirst with ⟨first, hread, hitem, rfl⟩
  rcases hothers with ⟨taken, hstring, rfl, rfl⟩
  rw [string, hread]
  dsimp only
  rw [hitem]
  dsimp only
  rw [hstring]
  exact ⟨_, rfl, rfl, rfl⟩

theorem string_escaped (s rest : Text) :
    Gives (string (s.flatMap escaped ++ '"' :: rest)) s rest := by
  induction s with
  | nil => exact string_of_quote rest
  | cons c s ih =>
      rw [List.flatMap_cons, List.append_assoc]
      exact string_of_item (stringItem_escaped c _) ih

/-!
## Numbers
-/

inductive Closed : Text -> Prop where
  | nothing : Closed []
  | comma (rest : Text) : Closed (',' :: rest)
  | bracket (rest : Text) : Closed (']' :: rest)
  | brace (rest : Text) : Closed ('\x7d' :: rest)

theorem isDigit_of_mem_ofNat {n : Nat} {c : Char} (h : c ∈ Text.ofNat n) :
    isDigit c = true :=
  Nat.isDigit_of_mem_toDigits (by decide) (by decide) h

theorem takeWhile_isDigit_of_closed (h : Closed rest) : rest.takeWhile isDigit = [] := by
  cases h with
  | nothing => rfl
  | comma rest => rfl
  | bracket rest => rfl
  | brace rest => rfl

theorem dropWhile_isDigit_of_closed (h : Closed rest) :
    rest.dropWhile isDigit = rest := by
  cases h with
  | nothing => rfl
  | comma rest => rfl
  | bracket rest => rfl
  | brace rest => rfl

theorem digits_append {ds : Text} (hne : ds ≠ []) (hds : forall c, c ∈ ds -> isDigit c = true)
    (hrest : Closed rest) : Gives (digits (ds ++ rest)) ds rest := by
  cases ds with
  | nil => exact absurd rfl hne
  | cons c others =>
      have hothers : forall d, d ∈ others -> isDigit d = true := fun d hmem =>
        hds d (List.mem_cons_of_mem c hmem)
      unfold digits
      simp only [List.cons_append]
      rw [if_pos (hds c List.mem_cons_self)]
      refine ⟨_, rfl, ?_, ?_⟩
      · show c :: (others ++ rest).takeWhile isDigit = c :: others
        rw [List.takeWhile_append_of_pos hothers, takeWhile_isDigit_of_closed hrest,
          List.append_nil]
      · show (others ++ rest).dropWhile isDigit = rest
        rw [List.dropWhile_append_of_pos hothers, dropWhile_isDigit_of_closed hrest]

/-- A numeral is a row of digits, with a leading zero only if it is zero. -/
theorem ofNat_cases (n : Nat) :
    Text.ofNat n = ['0'] ∨
      exists c others, Text.ofNat n = c :: others ∧ isDigit c = true ∧ c ≠ '0' := by
  by_cases hzero : n = 0
  · subst hzero
    exact Or.inl rfl
  · right
    induction n using Nat.strongRecOn with
    | _ n ih =>
        have hdigits : Text.ofNat n =
            if n < 10 then [n.digitChar]
            else Text.ofNat (n / 10) ++ [(n % 10).digitChar] :=
          Nat.toDigits_eq_if (by decide)
        by_cases hn : n < 10
        · have hone : Text.ofNat n = [n.digitChar] := hdigits.trans (if_pos hn)
          refine ⟨n.digitChar, [], hone, ?_, fun hc => hzero (Nat.digitChar_eq_zero.mp hc)⟩
          apply isDigit_of_mem_ofNat (n := n)
          rw [hone]
          exact List.mem_singleton_self _
        · have hpos : 0 < n := Nat.pos_of_ne_zero hzero
          have hupper : n / 10 ≠ 0 := by omega
          rcases ih (n / 10) (Nat.div_lt_self hpos (by decide)) hupper with
            ⟨c, others, hc, hdigit, hne⟩
          refine ⟨c, others ++ [(n % 10).digitChar], ?_, hdigit, hne⟩
          rw [hdigits, if_neg hn, hc, List.cons_append]

theorem wholeDigits_ofNat (n : Nat) (hrest : Closed rest) :
    Gives (wholeDigits (Text.ofNat n ++ rest)) (Text.ofNat n) rest := by
  have hne : Text.ofNat n ≠ [] := Nat.toDigits_ne_nil
  rcases digits_append hne (fun c hmem => isDigit_of_mem_ofNat hmem) hrest with
    ⟨taken, hread, hitem, hafter⟩
  unfold wholeDigits
  rw [hread]
  dsimp only
  split
  case h_1 hzero =>
    rw [hitem] at hzero
    rcases ofNat_cases n with hn | ⟨c, others, hn, _, hne⟩
    · rw [hn] at hzero
      cases hzero
    · rw [hn] at hzero
      cases hzero
      exact absurd rfl hne
  case h_2 => exact ⟨taken, rfl, hitem, hafter⟩

theorem fractionDigits_of_closed (h : Closed rest) :
    fractionDigits rest = Except.ok ([], Rest.whole rest) := by
  cases h with
  | nothing => rfl
  | comma rest => rfl
  | bracket rest => rfl
  | brace rest => rfl

theorem exponent?_of_closed (h : Closed rest) :
    exponent? rest = Except.ok (none, Rest.whole rest) := by
  cases h with
  | nothing => rfl
  | comma rest => rfl
  | bracket rest => rfl
  | brace rest => rfl

theorem gather_eq {ds : Text} {significand : Nat}
    (h : Nat.ofDigitChars 10 ds significand ≤ significandLimit) :
    gather significand ds = (Nat.ofDigitChars 10 ds significand, ds.length) := by
  induction ds generalizing significand with
  | nil => rfl
  | cons c ds ih =>
      have hnext : Nat.ofDigitChars 10 (c :: ds) significand =
          Nat.ofDigitChars 10 ds (significand * 10 + digitValue c) := by
        rw [Nat.ofDigitChars_cons, Nat.mul_comm]
        rfl
      rw [hnext] at h ⊢
      have hfits : significand * 10 + digitValue c ≤ significandLimit := by
        rw [Nat.ofDigitChars_eq_ofDigitChars_zero] at h
        have hpow : 0 < 10 ^ ds.length := Nat.pow_pos (by decide)
        exact Nat.le_trans (Nat.le_mul_of_pos_left _ hpow)
          (Nat.le_trans (Nat.le_add_right _ _) h)
      rw [gather, if_pos hfits, ih h]
      rfl

theorem ofParts_ofNat (negative : Bool) {n : Nat} (h : n ≤ significandLimit) :
    Numeral.ofParts negative (Text.ofNat n) [] none = ⟨negative, n, 0, true⟩ := by
  have hvalue : Nat.ofDigitChars 10 (Text.ofNat n) 0 = n := Nat.ofDigitChars_ten_toDigits
  have hgather : gather 0 (Text.ofNat n) = (n, (Text.ofNat n).length) := by
    rw [gather_eq (by rw [hvalue]; exact h), hvalue]
  simp [Numeral.ofParts, hgather, gather]

theorem unsignedNumber_of_whole {negative : Bool} {n : Nat} {x : Scalar}
    (hwhole : Gives (wholeDigits s) (Text.ofNat n) rest) (hrest : Closed rest)
    (hn : n ≤ significandLimit)
    (hnumeral : Numeral.scalar? ⟨negative, n, 0, true⟩ = some x) :
    Gives (unsignedNumber negative s) x rest := by
  rcases hwhole with ⟨whole, hread, hitem, rfl⟩
  unfold unsignedNumber
  rw [hread]
  dsimp only
  rw [fractionDigits_of_closed hrest]
  dsimp only [Rest.whole]
  rw [exponent?_of_closed hrest]
  dsimp only
  rw [hitem, ofParts_ofNat negative hn, hnumeral]
  exact ⟨_, rfl, rfl, rfl⟩

theorem number_of_unsigned {c : Char} {x : Scalar} (hc : c ≠ '-')
    (h : Gives (unsignedNumber false (c :: s)) x rest) : Gives (number (c :: s)) x rest := by
  rw [number]
  · exact h
  · intro others heq
    cases heq
    exact hc rfl

theorem number_natural (n : UInt64) (hrest : Closed rest) :
    Gives (number (Text.ofNat n.toNat ++ rest)) (Scalar.nat64 n) rest := by
  have hn : n.toNat ≤ significandLimit := Nat.le_pred_of_lt n.toNat_lt
  have hnumeral : Numeral.scalar? ⟨false, n.toNat, 0, true⟩ = some (Scalar.nat64 n) := by
    simp [Numeral.scalar?]
  have hunsigned :=
    unsignedNumber_of_whole (wholeDigits_ofNat n.toNat hrest) hrest hn hnumeral
  rcases ofNat_cases n.toNat with hcase | ⟨c, others, hcase, hdigit, _⟩
  · rw [hcase] at hunsigned ⊢
    exact number_of_unsigned (by decide) hunsigned
  · rw [hcase] at hunsigned ⊢
    apply number_of_unsigned _ hunsigned
    intro hc
    rw [hc] at hdigit
    cases hdigit

theorem number_negative {n : Int64} {k : Nat} (h : n.toInt = Int.negSucc k)
    (hrest : Closed rest) :
    Gives (number ('-' :: (Text.ofNat (k + 1) ++ rest))) (Scalar.int64 n) rest := by
  have hbound : k + 1 ≤ Nat.pow 2 63 := by
    have hle := n.le_toInt
    rw [h] at hle
    show k + 1 ≤ 2 ^ 63
    omega
  have hn : k + 1 ≤ significandLimit := Nat.le_trans hbound (by decide)
  have hneg : -((k + 1 : Nat) : Int) = n.toInt := h.symm
  have hword : Int64.ofInt (-((k + 1 : Nat) : Int)) = n := by
    rw [hneg, Int64.ofInt_toInt]
  have hnumeral : Numeral.scalar? ⟨true, k + 1, 0, true⟩ = some (Scalar.int64 n) := by
    have hrange : 0 < k + 1 ∧ k + 1 ≤ Nat.pow 2 63 := ⟨Nat.succ_pos k, hbound⟩
    unfold Numeral.scalar?
    simp only [Bool.not_true, Bool.false_eq_true, if_true, if_false]
    rw [if_pos hrange, hword]
  rcases unsignedNumber_of_whole (wholeDigits_ofNat (k + 1) hrest) hrest hn hnumeral with
    ⟨taken, hread, hitem, hafter⟩
  rw [number, hread]
  exact ⟨_, rfl, hitem, hafter⟩

theorem number_integer (n : Int64) (hrest : Closed rest) :
    Gives (number (Text.ofInt n.toInt ++ rest)) (Tree.ofInteger n) rest := by
  rcases Tree.ofInteger_cases n with ⟨k, hn, hscalar⟩ | ⟨m, hn, hscalar⟩
  · rw [hn, hscalar]
    exact number_negative hn hrest
  · rw [hn, hscalar]
    exact number_natural m hrest

end Json

end Stencil
