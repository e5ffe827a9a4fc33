import Stencil.Text.Basic

/-!
# Numerals

Whole numbers are written in decimal, code points in lower-case hexadecimal,
both without leading zeros.
-/

namespace Stencil

namespace Text

def ofNat (n : Nat) : Text :=
  Nat.toDigits 10 n

def ofInt : Int -> Text
  | Int.ofNat n => ofNat n
  | Int.negSucc n => '-' :: ofNat (n + 1)

def hexOfNat (n : Nat) : Text :=
  Nat.toDigits 16 n

def atLeastTwoDigits (n : Nat) : Text :=
  if n < 10 then '0' :: ofNat n else ofNat n

theorem ofNat_injective {m n : Nat} (h : ofNat m = ofNat n) : m = n := by
  have hm := Nat.ofDigitChars_toDigits (b := 10) (n := m) (by omega) (by omega)
  have hn := Nat.ofDigitChars_toDigits (b := 10) (n := n) (by omega) (by omega)
  unfold ofNat at h
  rw [← hm, h, hn]

end Text

end Stencil
