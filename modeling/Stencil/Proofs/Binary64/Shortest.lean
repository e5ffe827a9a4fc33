import Mathlib.Algebra.Order.Floor.Semifield
import Mathlib.Data.Rat.Floor
import Stencil.Binary64.Layout
import Stencil.Proofs.Binary64.Interval

/-!
# The shortest decimal

## Decimals on coarse grids

A decimal that reads back as a number is a shortest one if no decimal on a coarser grid
reads back.  Then it has no trailing zeros and no more digits than any decimal that reads
back: one with fewer digits would be smaller, and between the two there is a power of ten
on a coarser grid.
-/

namespace Stencil

namespace Decimal

variable {d e : Decimal} {coefficient : Nat} {power : Int}

theorem length_digits_pos (d : Decimal) : 0 < d.digits.length :=
  Nat.length_toDigits_pos

theorem coefficient_lt (d : Decimal) : d.coefficient < 10 ^ d.digits.length :=
  (Nat.length_toDigits_le_iff (by decide) d.length_digits_pos).mp (Nat.le_refl _)

theorem le_coefficient {n : Nat} (hpos : 0 < d.coefficient) (hn : n < d.digits.length) :
    10 ^ n ≤ d.coefficient := by
  cases n with
  | zero => exact hpos
  | succ n =>
      refine Nat.le_of_not_lt fun hlt => ?_
      have hlength := (Nat.length_toDigits_le_iff (by decide) n.succ_pos).mpr hlt
      exact absurd hn (Nat.not_lt.mpr hlength)

theorem value_mk : value ⟨coefficient, power⟩ = coefficient * 10 ^ power := rfl

theorem value_one : value ⟨1, power⟩ = 10 ^ power := by
  rw [value_mk, Nat.cast_one, one_mul]

theorem tenPow_pos (power : Int) : (0 : Rat) < 10 ^ power :=
  zpow_pos (by norm_num) power

theorem tenPow_le {m n : Int} (h : m ≤ n) : (10 : Rat) ^ m ≤ 10 ^ n :=
  zpow_le_zpow_right₀ (by norm_num) h

theorem tenPow_add (n : Nat) (power : Int) :
    (10 : Rat) ^ (n + power) = (10 ^ n : Nat) * 10 ^ power := by
  rw [zpow_add₀ (by norm_num), zpow_natCast, Nat.cast_pow, Nat.cast_ofNat]

theorem tenPow_exponent_le (hpos : 0 < d.coefficient) : (10 : Rat) ^ d.exponent ≤ d.value := by
  have hlength := d.length_digits_pos
  have hexponent : d.exponent = ((d.digits.length - 1 : Nat) : Int) + d.power := by
    rw [exponent]
    omega
  rw [hexponent, tenPow_add, value]
  exact mul_le_mul_of_nonneg_right
    (Nat.cast_le.mpr (le_coefficient hpos (by omega))) (tenPow_pos _).le

theorem value_lt_tenPow (d : Decimal) : d.value < 10 ^ (d.exponent + 1) := by
  have hexponent : d.exponent + 1 = (d.digits.length : Int) + d.power := by
    rw [exponent]
    omega
  rw [hexponent, tenPow_add, value]
  exact mul_lt_mul_of_pos_right (Nat.cast_lt.mpr d.coefficient_lt) (tenPow_pos _)

end Decimal

namespace Binary64

variable {x : Binary64} {d e : Decimal} {power : Int} {coefficient grids : Nat}

structure IsShortest (x : Binary64) (d : Decimal) : Prop where
  readsBack : x.ReadsBack d
  coarsest : forall (coefficient : Nat) (power : Int), d.power < power ->
    ¬ x.ReadsBack ⟨coefficient, power⟩

namespace ReadsBack

theorem congr_value (h : x.ReadsBack d) (hvalue : d.value = e.value) : x.ReadsBack e := by
  rw [readsBack_iff, ← hvalue, ← readsBack_iff]
  exact h

theorem coefficient_pos (hx : x.FiniteNonzero) (h : x.ReadsBack d) : 0 < d.coefficient := by
  refine Nat.pos_of_ne_zero fun hzero => ?_
  have hpos := hx.pos_of_covers (readsBack_iff.mp h)
  rw [Decimal.value, hzero, Nat.cast_zero, zero_mul] at hpos
  exact lt_irrefl _ hpos

end ReadsBack

namespace IsShortest

/-- A shortest decimal has no trailing zeros. -/
theorem coefficient_mod_ten (h : x.IsShortest d) : d.coefficient % 10 ≠ 0 := by
  intro hmod
  have hcoefficient : d.coefficient = d.coefficient / 10 * 10 := by omega
  have hvalue : d.value = Decimal.value ⟨d.coefficient / 10, d.power + 1⟩ := by
    have hcast : (d.coefficient : Rat) = (d.coefficient / 10 : Nat) * 10 := by
      exact_mod_cast hcoefficient
    rw [Decimal.value, hcast, Decimal.value, zpow_add_one₀ (by norm_num)]
    ring
  exact h.coarsest _ _ (by omega) (h.readsBack.congr_value hvalue)

/-- No decimal that reads back has fewer digits. -/
theorem length_digits_le (hx : x.FiniteNonzero) (h : x.IsShortest d) (he : x.ReadsBack e) :
    d.digits.length ≤ e.digits.length := by
  by_contra hlonger
  have hpower : e.power ≤ d.power := by
    by_contra hcoarser
    exact h.coarsest e.coefficient e.power (Int.not_le.mp hcoarser) he
  -- The power of ten with one more digit than the shorter decimal lies between the two.
  have habove : e.value ≤ Decimal.value ⟨1, e.digits.length + d.power⟩ := by
    rw [Decimal.value_one, Decimal.tenPow_add, Decimal.value]
    exact mul_le_mul (Nat.cast_le.mpr e.coefficient_lt.le) (Decimal.tenPow_le hpower)
      (Decimal.tenPow_pos _).le (Nat.cast_nonneg _)
  have hbelow : Decimal.value ⟨1, e.digits.length + d.power⟩ ≤ d.value := by
    rw [Decimal.value_one, Decimal.tenPow_add, Decimal.value]
    exact mul_le_mul_of_nonneg_right (Nat.cast_le.mpr
      (Decimal.le_coefficient (h.readsBack.coefficient_pos hx) (by omega)))
      (Decimal.tenPow_pos _).le
  have hlength := e.length_digits_pos
  exact h.coarsest 1 (e.digits.length + d.power) (by omega) (readsBack_iff.mpr
    ((readsBack_iff.mp he).between (readsBack_iff.mp h.readsBack) habove hbelow))

end IsShortest

/-!
## Neighbours on a grid
-/

theorem neighbourBelow_coefficient (x : Binary64) (power : Int) :
    (x.neighbourBelow power).coefficient = ⌊x.size / 10 ^ power⌋₊ := by
  rw [size, tenPow_eq, div_div_div_eq, ← Nat.cast_mul, ← Nat.cast_mul,
    Nat.floor_div_eq_div]
  rfl

theorem value_neighbourBelow_le (hx : x.FiniteNonzero) (power : Int) :
    (x.neighbourBelow power).value ≤ x.size := by
  have hpow := Decimal.tenPow_pos power
  have hfloor := Nat.floor_le (div_pos hx.size_pos hpow).le
  rw [← neighbourBelow_coefficient, le_div_iff₀ hpow] at hfloor
  exact hfloor

theorem size_lt_value_neighbourAbove (x : Binary64) (power : Int) :
    x.size < (x.neighbourAbove power).value := by
  have hpow := Decimal.tenPow_pos power
  have hfloor := Nat.lt_floor_add_one (x.size / 10 ^ power)
  rw [← neighbourBelow_coefficient, div_lt_iff₀ hpow] at hfloor
  rw [neighbourAbove, Decimal.value_mk, Nat.cast_add, Nat.cast_one]
  exact hfloor

theorem value_neighbourAbove (x : Binary64) (power : Int) :
    (x.neighbourAbove power).value = (x.neighbourBelow power).value + 10 ^ power := by
  rw [neighbourAbove, Decimal.value_mk, Nat.cast_add, Nat.cast_one, add_mul, one_mul]
  rfl

/-- If a point of a grid reads back, so does a neighbour of the number on it. -/
theorem readsBack_neighbour (hx : x.FiniteNonzero) (h : x.ReadsBack ⟨coefficient, power⟩) :
    x.ReadsBack (x.neighbourBelow power) ∨ x.ReadsBack (x.neighbourAbove power) := by
  have hcovers := readsBack_iff.mp h
  have hpow := (Decimal.tenPow_pos power).le
  rcases Nat.lt_or_ge (x.neighbourBelow power).coefficient coefficient with habove | hbelow
  · have hvalue : (x.neighbourAbove power).value ≤ Decimal.value ⟨coefficient, power⟩ :=
      mul_le_mul_of_nonneg_right (Nat.cast_le.mpr habove) hpow
    exact Or.inr (readsBack_iff.mpr (hx.covers_size.between hcovers
      (x.size_lt_value_neighbourAbove power).le hvalue))
  · have hvalue : Decimal.value ⟨coefficient, power⟩ ≤ (x.neighbourBelow power).value :=
      mul_le_mul_of_nonneg_right (Nat.cast_le.mpr hbelow) hpow
    exact Or.inl (readsBack_iff.mpr (hcovers.between hx.covers_size hvalue
      (value_neighbourBelow_le hx power)))

theorem readsBack_of_onGrid? (h : x.onGrid? power = some d) :
    x.ReadsBack d ∧ d.power = power := by
  simp only [onGrid?] at h
  split at h
  case isTrue hbelow =>
    split at h
    case isTrue habove =>
      cases h
      exact ⟨habove.1, rfl⟩
    case isFalse =>
      cases h
      exact ⟨hbelow, rfl⟩
  case isFalse =>
    split at h
    case isTrue habove =>
      cases h
      exact ⟨habove, rfl⟩
    case isFalse => cases h

theorem not_readsBack_of_onGrid? (hx : x.FiniteNonzero) (h : x.onGrid? power = none) :
    ¬ x.ReadsBack ⟨coefficient, power⟩ := by
  intro hreads
  simp only [onGrid?] at h
  split at h
  case isTrue =>
    split at h
    all_goals cases h
  case isFalse hbelow =>
    split at h
    case isTrue => cases h
    case isFalse habove => exact (readsBack_neighbour hx hreads).elim hbelow habove

/-- The search finds a shortest decimal if it begins above all decimals that read back and
reaches one of them. -/
theorem searchGrids_isShortest (hx : x.FiniteNonzero)
    (hcoarser : forall (coefficient : Nat) (finer : Int), power < finer ->
      ¬ x.ReadsBack ⟨coefficient, finer⟩)
    (hfine : exists (coefficient n : Nat), n < grids ∧
      x.ReadsBack ⟨coefficient, power - n⟩) :
    x.IsShortest (x.searchGrids grids power) := by
  induction grids generalizing power with
  | zero =>
      rcases hfine with ⟨_, n, hn, _⟩
      exact absurd hn n.not_lt_zero
  | succ grids ih =>
      unfold searchGrids
      cases hgrid : x.onGrid? power with
      | some d =>
          rcases readsBack_of_onGrid? hgrid with ⟨hreads, rfl⟩
          exact ⟨hreads, hcoarser⟩
      | none =>
          apply ih
          · intro coefficient coarser hlt
            rcases Int.lt_or_eq_of_le (show power ≤ coarser by omega) with hlt | rfl
            · exact hcoarser coefficient coarser hlt
            · exact not_readsBack_of_onGrid? hx hgrid
          · rcases hfine with ⟨coefficient, n, hn, hreads⟩
            cases n with
            | zero =>
                rw [Nat.cast_zero, sub_zero] at hreads
                exact absurd hreads (not_readsBack_of_onGrid? hx hgrid)
            | succ n =>
                refine ⟨coefficient, n, by omega, ?_⟩
                have hpower : power - 1 - n = power - (n + 1 : Nat) := by omega
                rw [hpower]
                exact hreads

/-!
## The estimate of the coarsest power

The number 30103 / 100000 lies between two convergents of the logarithm of two, and over
the exponents of binary64 numbers the three differ by much less than one digit.
-/

theorem tenPow_le_twoPow_of_base {a b : Nat} {k n : Int} (hb : b ≠ 0)
    (hbase : ((10 : Rat) ^ b) ^ n ≤ (2 ^ a) ^ n) (hexponent : a * n ≤ b * k) :
    (10 : Rat) ^ n ≤ 2 ^ k := by
  apply le_of_pow_le_pow_left₀ hb (zpow_pos (by norm_num) k).le
  calc
    ((10 : Rat) ^ n) ^ b = (10 ^ b) ^ n := by
      rw [← zpow_natCast, zpow_comm, zpow_natCast]
    _ ≤ (2 ^ a) ^ n := hbase
    _ = 2 ^ (a * n) := by rw [zpow_mul, zpow_natCast]
    _ ≤ 2 ^ (b * k) := zpow_le_zpow_right₀ (by norm_num) hexponent
    _ = (2 ^ k) ^ b := by rw [zpow_mul, zpow_natCast, ← zpow_natCast, zpow_comm, zpow_natCast]

theorem tenPow_le_twoPow {k n : Int} (h : 100000 * n ≤ 30103 * k) (hlow : -1100 ≤ k)
    (hhigh : k ≤ 1100) : (10 : Rat) ^ n ≤ 2 ^ (k + 1) := by
  rcases Int.le_total 0 n with hn | hn
  · have hbase : (10 : Rat) ^ 59 ≤ 2 ^ 196 := by norm_num
    exact tenPow_le_twoPow_of_base (by decide)
      (zpow_le_zpow_left₀ hn (by positivity) hbase) (by omega)
  · have hbase : (2 : Rat) ^ 93 ≤ 10 ^ 28 := by norm_num
    obtain ⟨m, rfl⟩ : exists m : Nat, n = -m := ⟨n.natAbs, by omega⟩
    have hinverse : ((10 : Rat) ^ 28) ^ (-(m : Int)) ≤ (2 ^ 93) ^ (-(m : Int)) := by
      rw [zpow_neg, zpow_neg, zpow_natCast, zpow_natCast]
      exact inv_anti₀ (by positivity) (pow_le_pow_left₀ (by positivity) hbase m)
    exact tenPow_le_twoPow_of_base (by decide) hinverse (by omega)

theorem twoPow_le_tenPow {k n : Int} (h : 30103 * k ≤ 100000 * n) (hlow : -1100 ≤ k)
    (hhigh : k ≤ 1100) : (2 : Rat) ^ k ≤ 2 * 10 ^ n := by
  have hinverse := tenPow_le_twoPow (show 100000 * -n ≤ 30103 * -k by omega) (by omega)
    (by omega)
  rw [zpow_neg, zpow_add_one₀ (by norm_num), zpow_neg, inv_mul_eq_div,
    inv_le_comm₀ (Decimal.tenPow_pos n) (by positivity), inv_div, div_le_iff₀ (by norm_num),
    mul_comm] at hinverse
  exact hinverse

theorem cast_eq_twoPow {n unit : Nat} (hunit : unit = Nat.pow 2 n) : (unit : Rat) = 2 ^ n := by
  rw [hunit, Nat.pow_eq, Nat.cast_pow, Nat.cast_ofNat]

theorem twoPow_le_size (hx : x.FiniteNonzero) :
    (2 : Rat) ^ ((x.magnitude.log2 : Int) - 1074) ≤ x.size := by
  have hlog := Nat.log2_self_le hx.magnitude_pos.ne'
  rw [size, cast_eq_twoPow one_eq, zpow_sub₀ (by norm_num), zpow_natCast, ← zpow_natCast _ 1074]
  apply div_le_div_of_nonneg_right _ (by positivity)
  exact_mod_cast hlog

theorem size_lt_twoPow (x : Binary64) :
    x.size < (2 : Rat) ^ ((x.magnitude.log2 : Int) - 1073) := by
  have hlog := Nat.lt_log2_self (n := x.magnitude)
  have hexponent : (x.magnitude.log2 : Int) - 1073 =
      (x.magnitude.log2 + 1 : Nat) - (1074 : Nat) := by omega
  rw [size, cast_eq_twoPow one_eq, hexponent, zpow_sub₀ (by norm_num), zpow_natCast, zpow_natCast]
  apply div_lt_div_of_pos_right _ (by positivity)
  exact_mod_cast hlog

theorem magnitude_lt (x : Binary64) : x.magnitude < 2 * exponentUnit * x.gap :=
  Nat.mul_lt_mul_of_pos_right x.significand_lt x.gap_pos

theorem log2_magnitude_lt (hx : x.FiniteNonzero) : x.magnitude.log2 < 2098 := by
  have hexponent := hx.exponentField_lt
  have hbound : x.magnitude < 2 ^ (53 + (x.exponentField - 1)) := by
    rw [pow_add]
    exact x.magnitude_lt
  have hlog := (Nat.log2_lt hx.magnitude_pos.ne').mpr hbound
  omega

theorem tenPow_coarsestPower_le (hx : x.FiniteNonzero) :
    (10 : Rat) ^ x.coarsestPower ≤ 40 * x.size := by
  have hlog := log2_magnitude_lt hx
  have hsize := twoPow_le_size hx
  have hestimate := tenPow_le_twoPow
    (n := ((x.magnitude.log2 : Int) - 1073) * 30103 / 100000)
    (k := (x.magnitude.log2 : Int) - 1073) (by omega) (by omega) (by omega)
  have hexponent : (x.magnitude.log2 : Int) - 1073 + 1 = (x.magnitude.log2 : Int) - 1074 + 2 := by
    omega
  rw [hexponent, zpow_add₀ (by norm_num)] at hestimate
  rw [coarsestPower, zpow_add_one₀ (by norm_num)]
  norm_num at hestimate ⊢
  linarith

theorem size_lt_tenPow (hx : x.FiniteNonzero) :
    x.size < 2 * 10 ^ x.coarsestPower := by
  have hlog := log2_magnitude_lt hx
  have hestimate := twoPow_le_tenPow (n := x.coarsestPower)
    (k := (x.magnitude.log2 : Int) - 1073) (by unfold coarsestPower; omega) (by omega) (by omega)
  exact x.size_lt_twoPow.trans_le hestimate

theorem size_lt_room (x : Binary64) : x.size < 2 ^ 54 * (x.high - x.size) := by
  have hone : (0 : Rat) < one := Nat.cast_pos.mpr one_pos
  have hroom : x.high - x.size = x.gap / (2 * one) := by
    rw [high, size_eq_ratio, ← sub_div, roomAbove]
    push_cast
    rw [div_eq_div_iff (by positivity) (by positivity)]
    ring
  have hmagnitude : (x.magnitude : Rat) < 2 ^ 53 * x.gap := by
    exact_mod_cast x.magnitude_lt
  rw [hroom, size, ← mul_div_assoc, div_lt_div_iff₀ hone (by positivity)]
  nlinarith

/-- The search begins on a grid that is coarse enough and ends on one that is fine enough. -/
theorem shortest_isShortest (hx : x.FiniteNonzero) : x.IsShortest x.shortest := by
  have hsize := hx.size_pos
  apply searchGrids_isShortest hx
  · intro coefficient power hpower hreads
    have hpos : (1 : Rat) ≤ coefficient :=
      Nat.one_le_cast.mpr (hreads.coefficient_pos hx)
    have hnext : (10 : Rat) ^ (x.coarsestPower + 1) ≤ 10 ^ power :=
      Decimal.tenPow_le (by omega)
    have hestimate := size_lt_tenPow hx
    have hhigh := (readsBack_iff.mp hreads).le_high.trans hx.high_le
    rw [Decimal.value_mk] at hhigh
    rw [zpow_add_one₀ (by norm_num)] at hnext
    nlinarith [Decimal.tenPow_pos power]
  · refine ⟨(x.neighbourAbove (x.coarsestPower - 19)).coefficient, 19, by decide, ?_⟩
    have hbelow := value_neighbourBelow_le hx (x.coarsestPower - 19)
    have habove := x.size_lt_value_neighbourAbove (x.coarsestPower - 19)
    have hestimate := tenPow_coarsestPower_le hx
    have hroom := x.size_lt_room
    have hstep : (10 : Rat) ^ (x.coarsestPower - 19) = 10 ^ x.coarsestPower / 10 ^ 19 := by
      rw [zpow_sub₀ (by norm_num)]
      norm_num
    have hhigh : (x.neighbourAbove (x.coarsestPower - 19)).value < x.high := by
      rw [value_neighbourAbove, hstep]
      norm_num at hroom ⊢
      linarith
    exact readsBack_iff.mpr (covers_of_lt (hx.low_lt_size.trans habove) hhigh)

/-!
## Exponents
-/

theorem ReadsBack.exponent_le (hx : x.FiniteNonzero) (h : x.ReadsBack d) :
    d.exponent ≤ x.coarsestPower := by
  have hsize := size_lt_tenPow hx
  have hhigh := (readsBack_iff.mp h).le_high.trans hx.high_le
  have hvalue := Decimal.tenPow_exponent_le (h.coefficient_pos hx)
  have hlt : (10 : Rat) ^ d.exponent < 10 ^ (x.coarsestPower + 1) := by
    rw [zpow_add_one₀ (by norm_num)]
    linarith [Decimal.tenPow_pos x.coarsestPower]
  have hexponent := (zpow_lt_zpow_iff_right₀ (by norm_num)).mp hlt
  omega

theorem ReadsBack.le_exponent (hx : x.FiniteNonzero) (h : x.ReadsBack d) :
    x.coarsestPower - 2 ≤ d.exponent := by
  have hsize := tenPow_coarsestPower_le hx
  have hlow := hx.half_size_le_low.trans (readsBack_iff.mp h).low_le
  have hvalue := d.value_lt_tenPow
  have hlt : (10 : Rat) ^ (x.coarsestPower - 2) < 10 ^ (d.exponent + 1) := by
    rw [zpow_sub₀ (by norm_num)]
    norm_num
    linarith [Decimal.tenPow_pos x.coarsestPower]
  have hexponent := (zpow_lt_zpow_iff_right₀ (by norm_num)).mp hlt
  omega

theorem ReadsBack.natAbs_exponent_lt (hx : x.FiniteNonzero) (h : x.ReadsBack d) :
    d.exponent.natAbs < 1000 := by
  have hupper := h.exponent_le hx
  have hlower := h.le_exponent hx
  have hlog := log2_magnitude_lt hx
  unfold coarsestPower at hupper hlower
  omega

end Binary64

end Stencil
