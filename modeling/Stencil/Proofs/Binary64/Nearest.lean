import Mathlib.Tactic.Linarith
import Mathlib.Tactic.Ring
import Stencil.Binary64.Rounding
import Stencil.Binary64.Shortest

/-!
# Decimals are rounded to the numbers they read back as

## Words

A word is its sign bit, its exponent field and its fraction field.  The last two together
count the magnitudes below the number, so a finite number is also found by its step
exponent and its significand, as rounding finds it.
-/

namespace Stencil

namespace Binary64

variable {x y : Binary64} {d : Decimal} {num den : Nat}

theorem exponentUnit_eq : exponentUnit = 4503599627370496 := rfl

theorem signUnit_eq : signUnit = 9223372036854775808 := rfl

theorem twoPow_pos (n : Nat) : 0 < Nat.pow 2 n :=
  Nat.two_pow_pos n

theorem one_eq : one = Nat.pow 2 1074 := by
  decide +kernel

theorem one_pos : 0 < one := by
  decide +kernel

theorem gap_pos (x : Binary64) : 0 < x.gap :=
  twoPow_pos (x.exponentField - 1)

structure FiniteNonzero (x : Binary64) : Prop where
  isNaN_eq : x.isNaN = false
  isInfinite_eq : x.isInfinite = false
  isZero_eq : x.isZero = false

/-- The number of magnitudes below that of a number. -/
def rank (x : Binary64) : Nat :=
  x.exponentField * exponentUnit + x.fractionField

theorem fractionField_lt (x : Binary64) : x.fractionField < exponentUnit :=
  Nat.mod_lt _ (by decide)

theorem bits_eq (x : Binary64) :
    x.bits.toNat = (if x.isNegative then signUnit else 0) + x.rank := by
  have hword := x.bits.toNat_lt
  by_cases h : signUnit ≤ x.bits.toNat
  · rw [isNegative, if_pos (decide_eq_true h), rank, exponentField, fractionField]
    rw [signUnit_eq] at h ⊢
    rw [exponentUnit_eq]
    omega
  · rw [isNegative, if_neg (mt of_decide_eq_true h), rank, exponentField, fractionField]
    rw [signUnit_eq] at h
    rw [exponentUnit_eq]
    omega

theorem ofSignAndBits_rank (x : Binary64) : ofSignAndBits x.isNegative x.rank = x := by
  have hbits : (if x.isNegative then signUnit + x.rank else x.rank) = x.bits.toNat := by
    rw [bits_eq]
    cases x.isNegative with
    | true => rfl
    | false => exact (Nat.zero_add _).symm
  rw [ofSignAndBits, hbits, UInt64.ofNat_toNat]

theorem eq_of_fields (hsign : x.isNegative = y.isNegative)
    (hexponent : x.exponentField = y.exponentField)
    (hfraction : x.fractionField = y.fractionField) : x = y := by
  rw [← ofSignAndBits_rank x, ← ofSignAndBits_rank y, rank, rank, hsign, hexponent,
    hfraction]

namespace FiniteNonzero

theorem exponentField_lt (hx : x.FiniteNonzero) : x.exponentField < 2047 := by
  have hfield : x.exponentField < 2048 := Nat.mod_lt _ (by decide)
  have hne : x.exponentField ≠ 2047 := by
    intro h
    have hNaN := hx.isNaN_eq
    have hinfinite := hx.isInfinite_eq
    simp only [isNaN, isInfinite, h, decide_true, Bool.true_and, decide_eq_false_iff_not,
      not_not] at hNaN hinfinite
    exact hinfinite hNaN
  omega

theorem significand_pos (hx : x.FiniteNonzero) : 0 < x.significand := by
  unfold significand
  split
  case isTrue h =>
    have hzero := hx.isZero_eq
    simp only [isZero, h, decide_true, Bool.true_and, decide_eq_false_iff_not] at hzero
    exact Nat.pos_of_ne_zero hzero
  case isFalse h => exact Nat.add_pos_left (by decide) _

theorem magnitude_pos (hx : x.FiniteNonzero) : 0 < x.magnitude :=
  Nat.mul_pos hx.significand_pos x.gap_pos

theorem rank_lt (hx : x.FiniteNonzero) : x.rank < infinityBits := by
  have hexponent := hx.exponentField_lt
  have hfraction := x.fractionField_lt
  simp only [rank, infinityBits, exponentUnit_eq] at hfraction ⊢
  omega

end FiniteNonzero

theorem significand_lt (x : Binary64) : x.significand < 2 * exponentUnit := by
  have hfraction := x.fractionField_lt
  unfold significand
  split
  all_goals omega

theorem steps_eq_rank (x : Binary64) :
    (x.exponentField - 1) * exponentUnit + x.significand = x.rank := by
  unfold significand rank
  split
  case isTrue h => rw [h]
  case isFalse h =>
    cases hfield : x.exponentField with
    | zero => exact absurd hfield h
    | succ n =>
        rw [Nat.add_sub_cancel, Nat.succ_mul]
        omega

/-!
## Rounding
-/

/-- A ratio is rounded to a whole number if it is within a half of it, and less than that
if the number is odd. -/
theorem roundHalfEven_eq {steps : Nat} (hden : 0 < den)
    (hlow : 2 * (den * steps) ≤ 2 * num + den) (hhigh : 2 * num ≤ 2 * (den * steps) + den)
    (hodd : steps % 2 = 1 ->
      2 * (den * steps) < 2 * num + den ∧ 2 * num < 2 * (den * steps) + den) :
    roundHalfEven num den = steps := by
  have hnum := Nat.div_add_mod num den
  have hmod := Nat.mod_lt num hden
  -- The quotient and the number of steps are compared through their products.
  have hbelow : steps ≤ num / den + 1 := by
    by_contra h
    have hmul := Nat.mul_le_mul_left den (show num / den + 2 ≤ steps by omega)
    rw [Nat.mul_add] at hmul
    omega
  have habove : num / den ≤ steps := by
    by_contra h
    have hmul := Nat.mul_le_mul_left den (show steps + 1 ≤ num / den by omega)
    rw [Nat.mul_add] at hmul
    omega
  have hcases : steps = num / den ∨ steps = num / den + 1 := by omega
  dsimp only [roundHalfEven]
  rcases hcases with rfl | rfl
  · split
    case isTrue h => rfl
    case isFalse h =>
      split
      case isTrue h => omega
      case isFalse h => omega
  · rw [Nat.mul_add] at hlow hodd
    split
    case isTrue h => omega
    case isFalse h =>
      split
      case isTrue h => omega
      case isFalse h => rfl

theorem FiniteNonzero.ofRatio_eq {shift steps : Nat} (hx : x.FiniteNonzero)
    (hshift : (num * one / den).log2 - 52 = shift)
    (hsteps : roundHalfEven (num * one) (den * Nat.pow 2 shift) = steps)
    (hrank : shift * exponentUnit + steps = x.rank) :
    ofRatio x.isNegative num den = x := by
  have hmin : min x.rank infinityBits = x.rank := Nat.min_eq_left hx.rank_lt.le
  unfold ofRatio
  simp only [hshift, hsteps, hrank, hmin, ofSignAndBits_rank]

theorem log2_div_sub {shift : Nat} (hden : 0 < den)
    (hlow : shift = 0 ∨ exponentUnit * (den * Nat.pow 2 shift) ≤ num)
    (hhigh : num < 2 * exponentUnit * (den * Nat.pow 2 shift)) :
    (num / den).log2 - 52 = shift := by
  have hupper : (num / den).log2 < 53 + shift := by
    by_cases hzero : num / den = 0
    · rw [hzero, Nat.log2_zero]
      omega
    · rw [Nat.log2_lt hzero, Nat.div_lt_iff_lt_mul hden, Nat.pow_add]
      calc
        num < 2 * exponentUnit * (den * Nat.pow 2 shift) := hhigh
        _ = 2 ^ 53 * 2 ^ shift * den := by
          rw [exponentUnit_eq, show Nat.pow 2 shift = 2 ^ shift from rfl]
          ring
  rcases hlow with rfl | hlow
  · omega
  · have hpow : 2 ^ (52 + shift) ≤ num / den := by
      rw [Nat.le_div_iff_mul_le hden, Nat.pow_add]
      calc
        2 ^ 52 * 2 ^ shift * den = exponentUnit * (den * Nat.pow 2 shift) := by
          rw [exponentUnit_eq, show Nat.pow 2 shift = 2 ^ shift from rfl]
          ring
        _ ≤ num := hlow
    have hne : num / den ≠ 0 := by
      intro h
      rw [h] at hpow
      exact absurd hpow (Nat.not_le.mpr (Nat.two_pow_pos _))
    have hlower := (Nat.le_log2 hne).mpr hpow
    omega

/-!
## Decimals that read back
-/

theorem denominator_pos (d : Decimal) : 0 < d.denominator :=
  Nat.pow_pos (by decide)

theorem ReadsBack.bounds (h : x.ReadsBack d) :
    4 * (d.denominator * x.gap * x.significand) ≤
        4 * (d.numerator * one) + d.denominator * x.roomBelow ∧
      4 * (d.numerator * one) ≤
        4 * (d.denominator * x.gap * x.significand) + 2 * (d.denominator * x.gap) ∧
      (x.significand % 2 = 1 ->
        4 * (d.denominator * x.gap * x.significand) <
            4 * (d.numerator * one) + d.denominator * x.roomBelow ∧
          4 * (d.numerator * one) <
            4 * (d.denominator * x.gap * x.significand) + 2 * (d.denominator * x.gap)) := by
  have hpoint : 4 * one * d.numerator = 4 * (d.numerator * one) := by ring
  have hexact : 4 * x.magnitude * d.denominator =
      4 * (d.denominator * x.gap * x.significand) := by
    rw [magnitude]
    ring
  have hbelow : x.roomBelow * d.denominator = d.denominator * x.roomBelow := Nat.mul_comm _ _
  have habove : x.roomAbove * d.denominator = 2 * (d.denominator * x.gap) := by
    rw [roomAbove]
    ring
  simp only [ReadsBack, Nat.sub_mul, Nat.add_mul, hpoint, hexact, hbelow, habove] at h
  split at h
  case isTrue heven => omega
  case isFalse hodd => omega

/-- A ratio within half a step of a number is rounded to it, unless the ratio has a leading
bit below that of the number. -/
theorem ofRatio_of_near (hx : x.FiniteNonzero) (hden : 0 < den)
    (hlow : 2 * (den * x.gap * x.significand) ≤ 2 * (num * one) + den * x.gap)
    (hhigh : 2 * (num * one) ≤ 2 * (den * x.gap * x.significand) + den * x.gap)
    (hodd : x.significand % 2 = 1 ->
      2 * (den * x.gap * x.significand) < 2 * (num * one) + den * x.gap ∧
        2 * (num * one) < 2 * (den * x.gap * x.significand) + den * x.gap)
    (hleading : x.exponentField - 1 = 0 ∨ exponentUnit * (den * x.gap) ≤ num * one) :
    ofRatio x.isNegative num den = x := by
  have hstep : 0 < den * x.gap := Nat.mul_pos hden x.gap_pos
  have hbelow : num * one < 2 * exponentUnit * (den * x.gap) := by
    have hmul := Nat.mul_le_mul_left (den * x.gap)
      (show x.significand + 1 ≤ 2 * exponentUnit from x.significand_lt)
    rw [Nat.mul_add, Nat.mul_comm _ (2 * exponentUnit)] at hmul
    omega
  exact FiniteNonzero.ofRatio_eq hx (log2_div_sub hden hleading hbelow)
    (roundHalfEven_eq hstep hlow hhigh hodd) x.steps_eq_rank

theorem ofRatio_of_below (hx : x.FiniteNonzero) (hden : 0 < den)
    (hfraction : x.fractionField = 0) (hexponent : 1 < x.exponentField)
    (hlow : 4 * (exponentUnit * (den * x.gap)) ≤ 4 * (num * one) + den * x.gap)
    (hhigh : num * one < exponentUnit * (den * x.gap)) :
    ofRatio x.isNegative num den = x := by
  obtain ⟨n, hn⟩ : exists n, x.exponentField = n + 2 :=
    ⟨x.exponentField - 2, by omega⟩
  -- Below the power the steps are half as long, and rounding carries into the exponent.
  have hgap : x.gap = 2 * Nat.pow 2 n := by
    rw [gap, hn, show n + 2 - 1 = n + 1 from rfl, Nat.pow_eq, Nat.pow_succ, Nat.mul_comm]
    rfl
  have hstep : 0 < den * Nat.pow 2 n := Nat.mul_pos hden (twoPow_pos n)
  have hdouble : den * x.gap = 2 * (den * Nat.pow 2 n) := by
    rw [hgap]
    ring
  rw [hdouble, exponentUnit_eq] at hlow hhigh
  have hleading : n = 0 ∨ exponentUnit * (den * Nat.pow 2 n) ≤ num * one := by
    rw [exponentUnit_eq]
    omega
  have hbelow : num * one < 2 * exponentUnit * (den * Nat.pow 2 n) := by
    rw [exponentUnit_eq]
    omega
  have hrank : n * exponentUnit + 2 * exponentUnit = x.rank := by
    rw [rank, hn, hfraction, Nat.add_zero, Nat.add_mul]
  have hrounded : roundHalfEven (num * one) (den * Nat.pow 2 n) = 2 * exponentUnit := by
    apply roundHalfEven_eq hstep
    · rw [exponentUnit_eq]
      omega
    · rw [exponentUnit_eq]
      omega
    · intro h
      rw [exponentUnit_eq] at h
      omega
  exact FiniteNonzero.ofRatio_eq hx (log2_div_sub hden hleading hbelow) hrounded hrank

/-- A decimal in the rounding interval of a number is rounded to that number. -/
theorem ReadsBack.ofRatio_eq (hx : x.FiniteNonzero) (h : x.ReadsBack d) :
    ofRatio x.isNegative d.numerator d.denominator = x := by
  rcases h.bounds with ⟨hlow, hhigh, hodd⟩
  have hden := denominator_pos d
  by_cases hboundary : x.fractionField = 0 ∧ 1 < x.exponentField
  · rcases hboundary with ⟨hfraction, hexponent⟩
    have hroom : x.roomBelow = x.gap := by
      rw [roomBelow, if_pos (by simp [hfraction, hexponent])]
    have hsignificand : x.significand = exponentUnit := by
      rw [significand, if_neg (by omega), hfraction, Nat.add_zero]
    rw [hroom, hsignificand, Nat.mul_comm _ exponentUnit] at hlow
    rw [hsignificand, Nat.mul_comm _ exponentUnit] at hhigh
    by_cases hbelow : d.numerator * one < exponentUnit * (d.denominator * x.gap)
    · exact ofRatio_of_below hx hden hfraction hexponent (by omega) hbelow
    · apply ofRatio_of_near hx hden
      · rw [hsignificand, Nat.mul_comm _ exponentUnit]
        omega
      · rw [hsignificand, Nat.mul_comm _ exponentUnit]
        omega
      · intro h
        rw [hsignificand] at h
        cases h
      · exact Or.inr (Nat.le_of_not_lt hbelow)
  · have hroom : x.roomBelow = 2 * x.gap := by
      rw [roomBelow, if_neg (by simpa using hboundary)]
    have hdouble : d.denominator * x.roomBelow = 2 * (d.denominator * x.gap) := by
      rw [hroom]
      ring
    rw [hdouble] at hlow hodd
    apply ofRatio_of_near hx hden
    · omega
    · omega
    · intro h
      have hstrict := hodd h
      omega
    · by_cases hleast : x.exponentField ≤ 1
      · exact Or.inl (by omega)
      · have hfraction : exponentUnit + 1 ≤ x.significand := by
          rw [significand, if_neg (by omega)]
          omega
        have hmul := Nat.mul_le_mul_left (d.denominator * x.gap) hfraction
        rw [Nat.mul_add, Nat.mul_comm _ exponentUnit] at hmul
        exact Or.inr (by omega)

end Binary64

end Stencil
