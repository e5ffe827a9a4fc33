import Stencil.Text.Numeral

/-!
# Reading numerals

## Digits and signs

A natural number is read from a row of digits, and an integer from such a row with a sign
in front or without one.  The numerals that are written are read back, so different
numbers have different numerals.
-/

namespace Stencil

namespace Text

def natural? (s : Text) : Option Nat :=
  if s ≠ [] ∧ s.all Char.isDigit = true then some (Nat.ofDigitChars 10 s 0) else none

def integer? : Text -> Option Int
  | '-' :: s => (natural? s).map fun n => -(n : Int)
  | '+' :: s => (natural? s).map Int.ofNat
  | s => (natural? s).map Int.ofNat

def int32? (s : Text) : Option Int :=
  (integer? s).filter fun n => -2147483648 ≤ n ∧ n ≤ 2147483647

theorem isDigit_of_mem_ofNat {n : Nat} {c : Char} (h : c ∈ ofNat n) :
    c.isDigit = true :=
  Nat.isDigit_of_mem_toDigits (by decide) (by decide) h

theorem ofNat_ne_nil (n : Nat) : ofNat n ≠ [] :=
  Nat.toDigits_ne_nil

theorem natural?_of_isDigit {s : Text} (hne : s ≠ [])
    (h : forall c, c ∈ s -> c.isDigit = true) :
    natural? s = some (Nat.ofDigitChars 10 s 0) :=
  if_pos ⟨hne, List.all_eq_true.mpr h⟩

theorem natural?_ofNat (n : Nat) : natural? (ofNat n) = some n := by
  rw [natural?_of_isDigit (ofNat_ne_nil n) fun c => isDigit_of_mem_ofNat, ofNat,
    Nat.ofDigitChars_ten_toDigits]

theorem integer?_of_isDigit {s : Text} (h : forall c, c ∈ s -> c.isDigit = true) :
    integer? s = (natural? s).map Int.ofNat := by
  unfold integer?
  split
  case h_1 => exact absurd (h '-' List.mem_cons_self) (by decide)
  case h_2 => exact absurd (h '+' List.mem_cons_self) (by decide)
  case h_3 => rfl

theorem integer?_ofInt (n : Int) : integer? (ofInt n) = some n := by
  cases n with
  | ofNat k =>
      have hread : integer? (ofNat k) = (natural? (ofNat k)).map Int.ofNat :=
        integer?_of_isDigit fun c => isDigit_of_mem_ofNat
      rw [ofInt, hread, natural?_ofNat]
      rfl
  | negSucc k =>
      rw [ofInt, integer?, natural?_ofNat]
      rfl

theorem int32?_ofInt {n : Int} (hlow : -2147483648 ≤ n) (hhigh : n ≤ 2147483647) :
    int32? (ofInt n) = some n := by
  rw [int32?, integer?_ofInt, Option.filter_some, if_pos (decide_eq_true ⟨hlow, hhigh⟩)]

theorem ofInt_injective {m n : Int} (h : ofInt m = ofInt n) : m = n :=
  Option.some.inj ((integer?_ofInt m).symm.trans ((congrArg integer? h).trans
    (integer?_ofInt n)))

end Text

end Stencil
