import Mathlib.Algebra.Field.Rat
import Mathlib.Data.List.Infix
import Mathlib.Tactic.FieldSimp
import Mathlib.Tactic.Ring
import Stencil.Proofs.Text.Numerals
import Stencil.Proofs.Text.Occurrence

/-!
# Reading decimal numbers

## Points, exponents and signs

The text of a decimal number is a row of digits, with a point among them or without one,
with an exponent behind it or without one, and with a sign in front or without one.  It
denotes a rational number exactly.
-/

namespace Stencil

namespace Text

variable {s s' whole fraction exponent : Text} {c : Char} {q : Rat} {n : Int}

/-- The number that digits with at most one point among them denote. -/
def fixed? (s : Text) : Option Rat :=
  match cutAround? ['.'] s with
  | none => (natural? s).map Nat.cast
  | some (whole, fraction) =>
      match natural? whole, natural? fraction with
      | some w, some f => some (w + f / 10 ^ fraction.length)
      | _, _ => none

/-- The number that such digits denote behind which there may be an exponent of ten. -/
def scaled? (s : Text) : Option Rat :=
  match cutAround? ['e'] s with
  | none => fixed? s
  | some (mantissa, exponent) =>
      match fixed? mantissa, integer? exponent with
      | some q, some n => some (q * 10 ^ n)
      | _, _ => none

def number? : Text -> Option Rat
  | '-' :: s => (scaled? s).map fun q => -q
  | s => scaled? s

structure IsDigits (s : Text) : Prop where
  ne_nil : s ≠ []
  isDigit : forall c, c ∈ s -> c.isDigit = true

theorem isDigits_ofNat (n : Nat) : IsDigits (ofNat n) :=
  ⟨ofNat_ne_nil n, fun _ => isDigit_of_mem_ofNat⟩

namespace IsDigits

theorem cons (h : IsDigits s) (hc : c.isDigit = true) : IsDigits (c :: s) := by
  refine ⟨List.cons_ne_nil c s, fun d hd => ?_⟩
  rcases List.mem_cons.mp hd with rfl | hd
  · exact hc
  · exact h.isDigit d hd

theorem append (h : IsDigits s) (hmore : forall c, c ∈ s' -> c.isDigit = true) :
    IsDigits (s ++ s') := by
  refine ⟨fun hnil => h.ne_nil (List.append_eq_nil_iff.mp hnil).1, fun c hc => ?_⟩
  rcases List.mem_append.mp hc with hc | hc
  · exact h.isDigit c hc
  · exact hmore c hc

theorem not_mem (h : IsDigits s) (hc : c.isDigit = false) : c ∉ s := by
  intro hmem
  rw [h.isDigit c hmem] at hc
  cases hc

theorem head?_append_ne (h : IsDigits s) (more : Text) :
    (s ++ more).head? ≠ some '-' := by
  cases s with
  | nil => exact absurd rfl h.ne_nil
  | cons c rest =>
      intro hhead
      cases hhead
      exact h.not_mem (by decide) List.mem_cons_self

theorem natural?_eq (h : IsDigits s) : natural? s = some (Nat.ofDigitChars 10 s 0) :=
  natural?_of_isDigit h.ne_nil h.isDigit

end IsDigits

/-!
## Reading the parts
-/

theorem cutAround?_singleton_eq_none (h : c ∉ s) : cutAround? [c] s = none :=
  cutAround?_eq_none_iff.mpr fun hinfix => h ((List.singleton_infix_iff c s).mp hinfix)

theorem cutAround?_singleton (h : c ∉ s) (rest : Text) :
    cutAround? [c] (s ++ c :: rest) = some (s, rest) :=
  cutAround?_eq_some_iff.mpr ⟨rfl, firstAt_of_head_not_mem h [] rest⟩

theorem fixed?_of_isDigits (h : IsDigits s) :
    fixed? s = some (Nat.ofDigitChars 10 s 0 : Rat) := by
  rw [fixed?, cutAround?_singleton_eq_none (h.not_mem (by decide))]
  simp only [h.natural?_eq, Option.map_some]

theorem fixed?_of_point (hwhole : IsDigits whole) (hfraction : IsDigits fraction) :
    fixed? (whole ++ '.' :: fraction) =
      some ((Nat.ofDigitChars 10 (whole ++ fraction) 0 : Rat) / 10 ^ fraction.length) := by
  have hsum : (Nat.ofDigitChars 10 (whole ++ fraction) 0 : Rat) =
      10 ^ fraction.length * Nat.ofDigitChars 10 whole 0 + Nat.ofDigitChars 10 fraction 0 := by
    rw [Nat.ofDigitChars_append, Nat.ofDigitChars_eq_ofDigitChars_zero]
    push_cast
    rfl
  rw [fixed?, cutAround?_singleton (hwhole.not_mem (by decide))]
  simp only [hwhole.natural?_eq, hfraction.natural?_eq, hsum]
  rw [add_div, mul_div_cancel_left₀ _ (pow_ne_zero _ (by norm_num))]

inductive Fixed : Text -> Rat -> Prop where
  | digits {s : Text} (h : IsDigits s) : Fixed s (Nat.ofDigitChars 10 s 0)
  | point {whole fraction : Text} (hwhole : IsDigits whole)
      (hfraction : IsDigits fraction) :
      Fixed (whole ++ '.' :: fraction)
        (Nat.ofDigitChars 10 (whole ++ fraction) 0 / 10 ^ fraction.length)

namespace Fixed

theorem fixed?_eq (h : Fixed s q) : fixed? s = some q := by
  cases h with
  | digits h => exact fixed?_of_isDigits h
  | point hwhole hfraction => exact fixed?_of_point hwhole hfraction

theorem not_mem_e (h : Fixed s q) : 'e' ∉ s := by
  cases h with
  | digits h => exact h.not_mem (by decide)
  | point hwhole hfraction =>
      rw [List.mem_append, List.mem_cons, not_or, not_or]
      exact ⟨hwhole.not_mem (by decide), by decide, hfraction.not_mem (by decide)⟩

theorem head?_append_ne (h : Fixed s q) (more : Text) : (s ++ more).head? ≠ some '-' := by
  cases h with
  | digits h => exact h.head?_append_ne more
  | point hwhole _ =>
      rw [List.append_assoc]
      exact hwhole.head?_append_ne _

theorem scaled?_eq (h : Fixed s q) : scaled? s = some q := by
  rw [scaled?, cutAround?_singleton_eq_none h.not_mem_e]
  exact h.fixed?_eq

theorem scaled?_exponent (h : Fixed s q) (hexponent : integer? exponent = some n) :
    scaled? (s ++ 'e' :: exponent) = some (q * 10 ^ n) := by
  rw [scaled?, cutAround?_singleton h.not_mem_e]
  simp only [h.fixed?_eq, hexponent]

end Fixed

/-- A row of digits with a point put before the last `places` of them. -/
theorem Fixed.of_digits {places : Nat} (h : IsDigits s) (hpos : 0 < places)
    (hplaces : places < s.length) :
    Fixed (s.take (s.length - places) ++ '.' :: s.drop (s.length - places))
      (Nat.ofDigitChars 10 s 0 / 10 ^ places) := by
  have hdrop : (s.drop (s.length - places)).length = places := by
    rw [List.length_drop]
    omega
  have htake : (s.take (s.length - places)).length = s.length - places := by
    rw [List.length_take]
    omega
  have hwhole : IsDigits (s.take (s.length - places)) :=
    ⟨List.ne_nil_of_length_pos (by omega), fun c hc => h.isDigit c (List.mem_of_mem_take hc)⟩
  have hfraction : IsDigits (s.drop (s.length - places)) :=
    ⟨List.ne_nil_of_length_pos (by omega), fun c hc => h.isDigit c (List.mem_of_mem_drop hc)⟩
  have hpoint := Fixed.point hwhole hfraction
  rw [List.take_append_drop, hdrop] at hpoint
  exact hpoint

theorem number?_of_unsigned (h : s.head? ≠ some '-') : number? s = scaled? s := by
  unfold number?
  split
  case h_1 => exact absurd rfl h
  case h_2 => rfl

/-!
## Numerals of two digits
-/

theorem isDigits_atLeastTwoDigits (n : Nat) : IsDigits (atLeastTwoDigits n) := by
  have hdigits := isDigits_ofNat n
  unfold atLeastTwoDigits
  split
  case isTrue => exact hdigits.cons (by decide)
  case isFalse => exact hdigits

theorem natural?_atLeastTwoDigits (n : Nat) : natural? (atLeastTwoDigits n) = some n := by
  have hvalue : Nat.ofDigitChars 10 (atLeastTwoDigits n) 0 = n := by
    unfold atLeastTwoDigits
    split
    case isTrue =>
      rw [Nat.ofDigitChars_cons]
      exact Nat.ofDigitChars_ten_toDigits
    case isFalse => exact Nat.ofDigitChars_ten_toDigits
  rw [(isDigits_atLeastTwoDigits n).natural?_eq, hvalue]

theorem two_le_length_atLeastTwoDigits (n : Nat) : 2 ≤ (atLeastTwoDigits n).length := by
  unfold atLeastTwoDigits
  split
  case isTrue => exact Nat.succ_le_succ (List.length_pos_of_ne_nil (ofNat_ne_nil n))
  case isFalse h =>
    by_contra hshort
    have hlt := (Nat.length_toDigits_le_iff (by decide) Nat.one_pos).mp
      (Nat.le_of_lt_succ (Nat.lt_of_not_le hshort))
    exact h hlt

end Text

end Stencil
