import Mathlib.Algebra.Order.Field.Power
import Mathlib.Tactic.Positivity
import Stencil.Proofs.Binary64.Nearest

/-!
# Rounding intervals

## Rational values

A decimal denotes a rational number, and so does the magnitude of a finite number.  The
numbers that round to a finite number form an interval around its magnitude.  Whether a
decimal reads back as a number depends on what it denotes only, so numbers that a decimal
reads back as differ at most in their signs.
-/

namespace Stencil

theorem tenPow_eq (power : Int) :
    (10 : Rat) ^ power =
      (Nat.pow 10 power.toNat : Nat) / (Nat.pow 10 (-power).toNat : Nat) := by
  rw [Nat.pow_eq, Nat.pow_eq, Nat.cast_pow, Nat.cast_pow]
  cases power with
  | ofNat n => simp
  | negSucc n =>
      rw [Int.toNat_negSucc, Int.neg_negSucc, zpow_negSucc]
      simp

theorem ratio_le_ratio_iff {a b c d : Nat} (hb : 0 < b) (hd : 0 < d) :
    (a : Rat) / b ≤ c / d ↔ a * d ≤ c * b := by
  rw [div_le_div_iff₀ (Nat.cast_pos.mpr hb) (Nat.cast_pos.mpr hd)]
  exact_mod_cast Iff.rfl

theorem ratio_lt_ratio_iff {a b c d : Nat} (hb : 0 < b) (hd : 0 < d) :
    (a : Rat) / b < c / d ↔ a * d < c * b := by
  rw [div_lt_div_iff₀ (Nat.cast_pos.mpr hb) (Nat.cast_pos.mpr hd)]
  exact_mod_cast Iff.rfl

namespace Decimal

def value (d : Decimal) : Rat :=
  d.coefficient * 10 ^ d.power

theorem value_eq_ratio (d : Decimal) : d.value = d.numerator / d.denominator := by
  rw [value, tenPow_eq, numerator, denominator, Nat.cast_mul, mul_div_assoc]

end Decimal

namespace Binary64

variable {x y : Binary64} {d e : Decimal} {p q r : Rat}

def size (x : Binary64) : Rat :=
  x.magnitude / one

/-- The lower end of the rounding interval. -/
def low (x : Binary64) : Rat :=
  (4 * x.magnitude - x.roomBelow : Nat) / (4 * one : Nat)

/-- The upper end of the rounding interval. -/
def high (x : Binary64) : Rat :=
  (4 * x.magnitude + x.roomAbove : Nat) / (4 * one : Nat)

/-- The rational number rounds to the magnitude of the number. -/
def Covers (x : Binary64) (q : Rat) : Prop :=
  if x.significand % 2 = 0 then x.low ≤ q ∧ q ≤ x.high else x.low < q ∧ q < x.high

theorem four_one_pos : 0 < 4 * one :=
  Nat.mul_pos (by decide) one_pos

theorem readsBack_iff : x.ReadsBack d ↔ x.Covers d.value := by
  have hden := denominator_pos d
  have hcomm : 4 * one * d.numerator = d.numerator * (4 * one) := Nat.mul_comm _ _
  rw [Covers, low, high, d.value_eq_ratio, ratio_le_ratio_iff four_one_pos hden,
    ratio_le_ratio_iff hden four_one_pos, ratio_lt_ratio_iff four_one_pos hden,
    ratio_lt_ratio_iff hden four_one_pos, ← hcomm]
  exact Iff.rfl

theorem covers_of_lt (hlow : x.low < q) (hhigh : q < x.high) : x.Covers q := by
  unfold Covers
  split
  case isTrue => exact ⟨hlow.le, hhigh.le⟩
  case isFalse => exact ⟨hlow, hhigh⟩

namespace Covers

theorem between (hp : x.Covers p) (hr : x.Covers r) (hpq : p ≤ q) (hqr : q ≤ r) :
    x.Covers q := by
  unfold Covers at hp hr ⊢
  split at hp
  case isTrue heven =>
    rw [if_pos heven] at hr ⊢
    exact ⟨hp.1.trans hpq, hqr.trans hr.2⟩
  case isFalse hodd =>
    rw [if_neg hodd] at hr ⊢
    exact ⟨hp.1.trans_le hpq, hqr.trans_lt hr.2⟩

theorem low_le (h : x.Covers q) : x.low ≤ q := by
  unfold Covers at h
  split at h
  case isTrue => exact h.1
  case isFalse => exact h.1.le

theorem le_high (h : x.Covers q) : q ≤ x.high := by
  unfold Covers at h
  split at h
  case isTrue => exact h.2
  case isFalse => exact h.2.le

end Covers

theorem roomBelow_pos (x : Binary64) : 0 < x.roomBelow := by
  have hgap := x.gap_pos
  unfold roomBelow
  split
  all_goals omega

theorem roomBelow_le (x : Binary64) : x.roomBelow ≤ 2 * x.gap := by
  unfold roomBelow
  split
  all_goals omega

theorem size_eq_ratio (x : Binary64) : x.size = (4 * x.magnitude : Nat) / (4 * one : Nat) := by
  rw [size, Nat.cast_mul, Nat.cast_mul]
  exact (mul_div_mul_left _ _ (by norm_num)).symm

theorem size_lt_high (x : Binary64) : x.size < x.high := by
  have hroom : 0 < x.roomAbove := Nat.mul_pos (by decide) x.gap_pos
  rw [size_eq_ratio, high, ratio_lt_ratio_iff four_one_pos four_one_pos]
  exact Nat.mul_lt_mul_of_pos_right (by omega) four_one_pos

namespace FiniteNonzero

theorem gap_le (hx : x.FiniteNonzero) : x.gap ≤ x.magnitude :=
  Nat.le_mul_of_pos_left _ hx.significand_pos

theorem size_pos (hx : x.FiniteNonzero) : 0 < x.size :=
  div_pos (Nat.cast_pos.mpr hx.magnitude_pos) (Nat.cast_pos.mpr one_pos)

theorem low_lt_size (hx : x.FiniteNonzero) : x.low < x.size := by
  have hmagnitude := hx.magnitude_pos
  have hroom := x.roomBelow_pos
  rw [size_eq_ratio, low, ratio_lt_ratio_iff four_one_pos four_one_pos]
  exact Nat.mul_lt_mul_of_pos_right (by omega) four_one_pos

theorem covers_size (hx : x.FiniteNonzero) : x.Covers x.size :=
  covers_of_lt hx.low_lt_size x.size_lt_high

theorem half_size_le_low (hx : x.FiniteNonzero) : x.size / 2 ≤ x.low := by
  have hgap := hx.gap_le
  have hroom := x.roomBelow_le
  have hhalf : x.size / 2 = (2 * x.magnitude : Nat) / (4 * one : Nat) := by
    rw [size_eq_ratio]
    push_cast
    ring
  rw [hhalf, low, ratio_le_ratio_iff four_one_pos four_one_pos]
  exact Nat.mul_le_mul_right _ (by omega)

theorem high_le (hx : x.FiniteNonzero) : x.high ≤ 3 / 2 * x.size := by
  have hgap := hx.gap_le
  have hhalf : 3 / 2 * x.size = (6 * x.magnitude : Nat) / (4 * one : Nat) := by
    rw [size_eq_ratio]
    push_cast
    ring
  rw [hhalf, high, roomAbove, ratio_le_ratio_iff four_one_pos four_one_pos]
  exact Nat.mul_le_mul_right _ (by omega)

theorem pos_of_covers (hx : x.FiniteNonzero) (h : x.Covers q) : 0 < q :=
  (half_pos hx.size_pos).trans_le (hx.half_size_le_low.trans h.low_le)

/-- Numbers of the same sign that decimals of the same value read back as are the same. -/
theorem eq_of_readsBack (hx : x.FiniteNonzero) (hy : y.FiniteNonzero)
    (hsign : x.isNegative = y.isNegative) (hd : x.ReadsBack d) (he : y.ReadsBack e)
    (hvalue : d.value = e.value) : x = y := by
  have hread : y.ReadsBack d := by
    rw [readsBack_iff, hvalue, ← readsBack_iff]
    exact he
  rw [← hd.ofRatio_eq hx, hsign, hread.ofRatio_eq hy]

end FiniteNonzero

end Binary64

end Stencil
