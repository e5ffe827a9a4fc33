import Stencil.Proofs.Binary64.Shortest
import Stencil.Proofs.Text.Decimals
import Stencil.Value.Display

/-!
# The default text of a number

## What the layouts denote

A number is printed with the digits of its shortest decimal, in one of two layouts.  Both
denote what the decimal denotes, so the text of a finite number tells its sign and a
rational number that rounds to it, and different numbers have different texts.
-/

namespace Stencil

namespace Decimal

variable {places : Nat} {digits : Text}

/-- The number that the digits of the decimal denote with a point behind the first one. -/
def leading (d : Decimal) : Rat :=
  d.coefficient / 10 ^ (d.digits.length - 1)

theorem value_eq_leading (d : Decimal) : d.value = d.leading * 10 ^ d.exponent := by
  have hlength := d.length_digits_pos
  have hexponent : d.exponent = ((d.digits.length - 1 : Nat) : Int) + d.power := by
    rw [exponent]
    omega
  rw [value, leading, hexponent, tenPow_add, Nat.cast_pow, Nat.cast_ofNat, ← mul_assoc,
    div_mul_cancel₀ _ (pow_ne_zero _ (by norm_num))]

theorem isDigits_digits (d : Decimal) : Text.IsDigits d.digits :=
  Text.isDigits_ofNat d.coefficient

theorem ofDigitChars_digits (d : Decimal) : Nat.ofDigitChars 10 d.digits 0 = d.coefficient :=
  Nat.ofDigitChars_ten_toDigits

theorem fixed_mantissa (d : Decimal) : Text.Fixed d.mantissa d.leading := by
  have hdigits := d.isDigits_digits
  have hcoefficient := d.ofDigitChars_digits
  unfold mantissa leading
  rw [← hcoefficient]
  split
  case h_1 first second rest heq =>
    rw [heq] at hdigits ⊢
    have hfirst : Text.IsDigits [first] := by
      refine ⟨List.cons_ne_nil _ _, fun c hc => ?_⟩
      rw [List.mem_singleton.mp hc]
      exact hdigits.isDigit first List.mem_cons_self
    have hrest : Text.IsDigits (second :: rest) :=
      ⟨List.cons_ne_nil _ _, fun c hc => hdigits.isDigit c (List.mem_cons_of_mem _ hc)⟩
    exact Text.Fixed.point hfirst hrest
  case h_2 hshort =>
    have hone : d.digits.length - 1 = 0 := by
      cases hcases : d.digits with
      | nil => rfl
      | cons first rest =>
          cases rest with
          | nil => rfl
          | cons second rest => exact absurd hcases (hshort first second rest)
    rw [hone, pow_zero, div_one]
    exact Text.Fixed.digits hdigits

theorem fixed_pointBeforeLast (h : Text.IsDigits digits) (hplaces : 0 < places) :
    Text.Fixed (pointBeforeLast places digits)
      (Nat.ofDigitChars 10 digits 0 / 10 ^ places) := by
  have hpadded : Text.IsDigits
      (List.replicate (places + 1 - digits.length) '0' ++ digits) := by
    refine ⟨List.append_ne_nil_of_right_ne_nil _ h.ne_nil, fun c hc => ?_⟩
    rcases List.mem_append.mp hc with hc | hc
    · rw [List.eq_of_mem_replicate hc]
      rfl
    · exact h.isDigit c hc
  have hlength : places <
      (List.replicate (places + 1 - digits.length) '0' ++ digits).length := by
    rw [List.length_append, List.length_replicate]
    omega
  have hfixed := Text.Fixed.of_digits hpadded hplaces hlength
  rw [Nat.ofDigitChars_append, Nat.ofDigitChars_replicate_zero, Nat.mul_zero] at hfixed
  exact hfixed

theorem fixed_positional (d : Decimal) : Text.Fixed d.positional d.value := by
  have hdigits := d.isDigits_digits
  have hcoefficient := d.ofDigitChars_digits
  unfold positional
  split
  case isTrue hpower =>
    have hvalue : d.value = (Nat.ofDigitChars 10
        (d.digits ++ List.replicate d.power.toNat '0') 0 : Nat) := by
      rw [Nat.ofDigitChars_append, hcoefficient, Nat.ofDigitChars_replicate_zero, value,
        ← Int.toNat_of_nonneg hpower, zpow_natCast, mul_comm]
      push_cast
      rfl
    rw [hvalue]
    refine Text.Fixed.digits (hdigits.append fun c hc => ?_)
    rw [List.eq_of_mem_replicate hc]
    rfl
  case isFalse hpower =>
    have hvalue : d.value =
        (Nat.ofDigitChars 10 d.digits 0 : Rat) / 10 ^ d.power.natAbs := by
      have hnegative : d.power = -(d.power.natAbs : Int) := by omega
      rw [hcoefficient, value, hnegative, zpow_neg, zpow_natCast, div_eq_mul_inv,
        Int.natAbs_neg, Int.natAbs_natCast]
    rw [hvalue]
    exact fixed_pointBeforeLast hdigits (by omega)

theorem integer?_exponent (n : Int) :
    Text.integer? ((if n < 0 then '-' else '+') :: Text.atLeastTwoDigits n.natAbs) = some n := by
  split
  case isTrue h =>
    rw [Text.integer?, Text.natural?_atLeastTwoDigits]
    exact congrArg some (show -(n.natAbs : Int) = n by omega)
  case isFalse h =>
    rw [Text.integer?, Text.natural?_atLeastTwoDigits]
    exact congrArg some (show (n.natAbs : Int) = n by omega)

theorem scaled?_positional (d : Decimal) : Text.scaled? d.positional = some d.value :=
  d.fixed_positional.scaled?_eq

theorem scaled?_scientific (d : Decimal) : Text.scaled? d.scientific = some d.value := by
  rw [value_eq_leading]
  exact d.fixed_mantissa.scaled?_exponent (integer?_exponent d.exponent)

end Decimal

namespace Binary64

variable {x y : Binary64} {s : Text} {p q : Rat}

/-- The number with the sign of `x` and the given magnitude. -/
def signed (x : Binary64) (q : Rat) : Rat :=
  if x.isNegative then -q else q

theorem number?_withSign (x : Binary64) (hunsigned : s.head? ≠ some '-')
    (hread : Text.scaled? s = some q) : Text.number? (x.withSign s) = some (x.signed q) := by
  unfold withSign signed
  cases x.isNegative with
  | true =>
      rw [if_pos rfl, if_pos rfl, Text.number?, hread]
      rfl
  | false =>
      rw [if_neg Bool.false_ne_true, if_neg Bool.false_ne_true,
        Text.number?_of_unsigned hunsigned, hread]

theorem eq_of_signed_eq (hp : 0 < p) (hq : 0 < q) (h : x.signed p = y.signed q) :
    x.isNegative = y.isNegative ∧ p = q := by
  unfold signed at h
  cases hx : x.isNegative with
  | true =>
      cases hy : y.isNegative with
      | true =>
          rw [hx, hy, if_pos rfl, if_pos rfl] at h
          exact ⟨rfl, neg_inj.mp h⟩
      | false =>
          rw [hx, hy, if_pos rfl, if_neg Bool.false_ne_true] at h
          exact absurd h (by linarith)
  | false =>
      cases hy : y.isNegative with
      | true =>
          rw [hx, hy, if_neg Bool.false_ne_true, if_pos rfl] at h
          exact absurd h (by linarith)
      | false =>
          rw [hx, hy, if_neg Bool.false_ne_true, if_neg Bool.false_ne_true] at h
          exact ⟨rfl, h⟩

/-!
## The steps of writing
-/

/-- The text with an exponent that the standard formatter writes for a finite number. -/
def exponential (x : Binary64) : Text :=
  x.withSign (x.shortest.mantissa ++ 'e' :: Text.ofInt x.shortest.exponent)

/-- The default text, as it is put together from the texts of the standard formatter: the
exponent is cut off the text with an exponent and read as a 32-bit integer, which fails if
it is not one. -/
def written? (x : Binary64) : Option Text :=
  if x.isNaN then some "NaN".toList
  else if x.isInfinite then some ((if x.isNegative then '-' else '+') :: "Inf".toList)
  else if x.isZero then some x.positional
  else
    match (Text.cutAround? ['e'] x.exponential).getD (x.exponential, ['0']) with
    | (mantissa, exponent) =>
        (Text.int32? exponent).map fun e =>
          if -4 ≤ e ∧ e < 6 then x.positional
          else mantissa ++ 'e' :: (if e < 0 then '-' else '+') ::
            Text.atLeastTwoDigits e.natAbs

theorem withSign_append (x : Binary64) (s more : Text) :
    x.withSign (s ++ more) = x.withSign s ++ more := by
  unfold withSign
  split
  all_goals rfl

theorem withSign_scientific (x : Binary64) :
    x.withSign x.shortest.scientific =
      x.withSign x.shortest.mantissa ++
        'e' :: (if x.shortest.exponent < 0 then '-' else '+') ::
          Text.atLeastTwoDigits x.shortest.exponent.natAbs :=
  x.withSign_append _ _

theorem not_mem_withSign (h : 'e' ∉ s) : 'e' ∉ x.withSign s := by
  unfold withSign
  split
  case isTrue =>
    rw [List.mem_cons, not_or]
    exact ⟨by decide, h⟩
  case isFalse => exact h

theorem cutAround?_exponential (x : Binary64) :
    Text.cutAround? ['e'] x.exponential =
      some (x.withSign x.shortest.mantissa, Text.ofInt x.shortest.exponent) := by
  rw [exponential, withSign_append]
  exact Text.cutAround?_singleton (not_mem_withSign x.shortest.fixed_mantissa.not_mem_e) _

namespace FiniteNonzero

theorem positional_eq (hx : x.FiniteNonzero) :
    x.positional = x.withSign x.shortest.positional := by
  simp only [positional, hx.isNaN_eq, hx.isInfinite_eq, hx.isZero_eq, Bool.false_eq_true,
    if_false]

theorem display_eq (hx : x.FiniteNonzero) :
    x.display =
      if -4 ≤ x.shortest.exponent ∧ x.shortest.exponent < 6 then x.positional
      else x.withSign x.shortest.scientific := by
  simp only [display, hx.isNaN_eq, hx.isInfinite_eq, hx.isZero_eq, Bool.false_eq_true,
    if_false, hx.positional_eq]
  split
  all_goals rfl

theorem written?_eq (hx : x.FiniteNonzero) : x.written? = some x.display := by
  have hexponent := (shortest_isShortest hx).readsBack.natAbs_exponent_lt hx
  have hread : Text.int32? (Text.ofInt x.shortest.exponent) = some x.shortest.exponent :=
    Text.int32?_ofInt (by omega) (by omega)
  simp only [written?, hx.isNaN_eq, hx.isInfinite_eq, hx.isZero_eq, Bool.false_eq_true,
    if_false, cutAround?_exponential, Option.getD_some, hread, Option.map_some,
    hx.display_eq, x.withSign_scientific]

theorem number?_positional (hx : x.FiniteNonzero) :
    Text.number? x.positional = some (x.signed x.shortest.value) := by
  have hunsigned := x.shortest.fixed_positional.head?_append_ne []
  rw [List.append_nil] at hunsigned
  rw [hx.positional_eq]
  exact number?_withSign x hunsigned x.shortest.scaled?_positional

/-- Both layouts denote the shortest decimal, with the sign of the number. -/
theorem number?_display (hx : x.FiniteNonzero) :
    Text.number? x.display = some (x.signed x.shortest.value) := by
  rw [hx.display_eq]
  split
  case isTrue => exact hx.number?_positional
  case isFalse =>
    exact number?_withSign x (x.shortest.fixed_mantissa.head?_append_ne _)
      x.shortest.scaled?_scientific

end FiniteNonzero

theorem classes (x : Binary64) :
    x.isNaN = true ∨ x.isInfinite = true ∨ x.isZero = true ∨ x.FiniteNonzero := by
  cases hNaN : x.isNaN with
  | true => exact Or.inl rfl
  | false =>
      cases hinfinite : x.isInfinite with
      | true => exact Or.inr (Or.inl rfl)
      | false =>
          cases hzero : x.isZero with
          | true => exact Or.inr (Or.inr (Or.inl rfl))
          | false => exact Or.inr (Or.inr (Or.inr ⟨hNaN, hinfinite, hzero⟩))

theorem isNaN_of_isInfinite (hx : x.isInfinite = true) : x.isNaN = false := by
  simp only [isInfinite, isNaN, Bool.and_eq_true, decide_eq_true_eq] at hx ⊢
  simp [hx.2]

theorem isNaN_of_isZero (hx : x.isZero = true) : x.isNaN = false := by
  simp only [isZero, isNaN, Bool.and_eq_true, decide_eq_true_eq] at hx ⊢
  simp [hx.2]

theorem isInfinite_of_isZero (hx : x.isZero = true) : x.isInfinite = false := by
  simp only [isZero, isInfinite, Bool.and_eq_true, decide_eq_true_eq] at hx ⊢
  simp [hx.1]

theorem display_of_isNaN (hx : x.isNaN = true) : x.display = "NaN".toList := by
  rw [display, if_pos hx]

theorem display_of_isInfinite (hx : x.isInfinite = true) :
    x.display = (if x.isNegative then '-' else '+') :: "Inf".toList := by
  rw [display, isNaN_of_isInfinite hx, if_neg Bool.false_ne_true, if_pos hx]

theorem display_of_isZero (hx : x.isZero = true) : x.display = x.withSign ['0'] := by
  rw [display, isNaN_of_isZero hx, isInfinite_of_isZero hx, if_neg Bool.false_ne_true,
    if_neg Bool.false_ne_true, if_pos hx]

/-- Writing never fails, and writes the default text. -/
theorem written?_eq_display (x : Binary64) : x.written? = some x.display := by
  rcases x.classes with hx | hx | hx | hx
  · rw [display_of_isNaN hx, written?, if_pos hx]
  · rw [display_of_isInfinite hx, written?, isNaN_of_isInfinite hx,
      if_neg Bool.false_ne_true, if_pos hx]
  · have hpositional : x.positional = x.withSign ['0'] := by
      rw [positional, isNaN_of_isZero hx, isInfinite_of_isZero hx,
        if_neg Bool.false_ne_true, if_neg Bool.false_ne_true, if_pos hx]
    rw [display_of_isZero hx, written?, isNaN_of_isZero hx, isInfinite_of_isZero hx,
      if_neg Bool.false_ne_true, if_neg Bool.false_ne_true, if_pos hx, hpositional]
  · exact hx.written?_eq

/-!
## Different numbers have different texts
-/

theorem number?_display_of_isNaN (hx : x.isNaN = true) : Text.number? x.display = none := by
  rw [display_of_isNaN hx]
  rfl

theorem number?_display_of_isInfinite (hx : x.isInfinite = true) :
    Text.number? x.display = none := by
  rw [display_of_isInfinite hx]
  cases x.isNegative with
  | true => rfl
  | false => rfl

theorem number?_display_of_isZero (hx : x.isZero = true) :
    Text.number? x.display = some 0 := by
  have hzero : Text.scaled? ['0'] = some 0 := by
    have hdigits : Text.IsDigits ['0'] := Text.isDigits_ofNat 0
    rw [(Text.Fixed.digits hdigits).scaled?_eq]
    rfl
  rw [display_of_isZero hx, number?_withSign x (by decide) hzero, signed, neg_zero, ite_self]

theorem FiniteNonzero.value_pos (hx : x.FiniteNonzero) : 0 < x.shortest.value :=
  hx.pos_of_covers (readsBack_iff.mp (shortest_isShortest hx).readsBack)

theorem FiniteNonzero.signed_value_ne_zero (hx : x.FiniteNonzero) :
    x.signed x.shortest.value ≠ 0 := by
  have hpos := hx.value_pos
  unfold signed
  split
  case isTrue => exact neg_ne_zero.mpr hpos.ne'
  case isFalse => exact hpos.ne'

theorem FiniteNonzero.eq_of_display_eq (hx : x.FiniteNonzero) (h : x.display = y.display) :
    x = y := by
  have hread := hx.number?_display
  rw [h] at hread
  rcases y.classes with hy | hy | hy | hy
  · rw [number?_display_of_isNaN hy] at hread
    cases hread
  · rw [number?_display_of_isInfinite hy] at hread
    cases hread
  · rw [number?_display_of_isZero hy] at hread
    exact absurd (Option.some.inj hread).symm hx.signed_value_ne_zero
  · rw [hy.number?_display] at hread
    rcases eq_of_signed_eq hy.value_pos hx.value_pos (Option.some.inj hread) with
      ⟨hsign, hvalue⟩
    exact hx.eq_of_readsBack hy hsign.symm (shortest_isShortest hx).readsBack
      (shortest_isShortest hy).readsBack hvalue.symm

theorem eq_of_ite_eq {item : Type} {a b : item} (hne : a ≠ b) {p q : Bool}
    (h : (if p then a else b) = if q then a else b) : p = q := by
  cases p with
  | true =>
      cases q with
      | true => rfl
      | false => exact absurd h hne
  | false =>
      cases q with
      | true => exact absurd h.symm hne
      | false => rfl

theorem isZero_of_number?_display (h : Text.number? x.display = some 0) : x.isZero = true := by
  rcases x.classes with hx | hx | hx | hx
  · rw [number?_display_of_isNaN hx] at h
    cases h
  · rw [number?_display_of_isInfinite hx] at h
    cases h
  · exact hx
  · rw [hx.number?_display] at h
    exact absurd (Option.some.inj h) hx.signed_value_ne_zero

theorem eq_of_display_eq_of_isZero (hx : x.isZero = true) (h : x.display = y.display) :
    x = y := by
  have hread := number?_display_of_isZero hx
  rw [h] at hread
  have hy := isZero_of_number?_display hread
  rw [display_of_isZero hx, display_of_isZero hy] at h
  have hsign : x.isNegative = y.isNegative := eq_of_ite_eq (by decide) h
  simp only [isZero, Bool.and_eq_true, decide_eq_true_eq] at hx hy
  exact eq_of_fields hsign (hx.1.trans hy.1.symm) (hx.2.trans hy.2.symm)

theorem isInfinite_of_display_eq (hx : x.isInfinite = true) (h : x.display = y.display) :
    y.isInfinite = true := by
  have hread := number?_display_of_isInfinite hx
  rw [h] at hread
  rcases y.classes with hy | hy | hy | hy
  · rw [display_of_isInfinite hx, display_of_isNaN hy] at h
    split at h
    all_goals cases h
  · exact hy
  · rw [number?_display_of_isZero hy] at hread
    cases hread
  · rw [hy.number?_display] at hread
    cases hread

theorem eq_of_display_eq_of_isInfinite (hx : x.isInfinite = true)
    (h : x.display = y.display) : x = y := by
  have hy := isInfinite_of_display_eq hx h
  rw [display_of_isInfinite hx, display_of_isInfinite hy] at h
  have hsign : x.isNegative = y.isNegative :=
    eq_of_ite_eq (by decide) (List.cons.inj h).1
  simp only [isInfinite, Bool.and_eq_true, decide_eq_true_eq] at hx hy
  exact eq_of_fields hsign (hx.1.trans hy.1.symm) (hx.2.trans hy.2.symm)

theorem eq_of_display_eq (hx : x.isNaN = false) (h : x.display = y.display) : x = y := by
  rcases x.classes with hNaN | hinfinite | hzero | hfinite
  · rw [hx] at hNaN
    cases hNaN
  · exact eq_of_display_eq_of_isInfinite hinfinite h
  · exact eq_of_display_eq_of_isZero hzero h
  · exact hfinite.eq_of_display_eq h

theorem display_eq_iff :
    x.display = y.display ↔ x = y ∨ (x.isNaN = true ∧ y.isNaN = true) := by
  constructor
  · intro h
    cases hx : x.isNaN with
    | false => exact Or.inl (eq_of_display_eq hx h)
    | true =>
        cases hy : y.isNaN with
        | false => exact Or.inl (eq_of_display_eq hy h.symm).symm
        | true => exact Or.inr ⟨rfl, rfl⟩
  · intro h
    rcases h with rfl | ⟨hx, hy⟩
    · rfl
    · rw [display_of_isNaN hx, display_of_isNaN hy]

/-!
## Exactness of the default text
-/

/-- What the default text of a finite number other than zero is.  The exponent decides on
the layout, and either layout denotes the digits of the number, with a point behind the
first of them, times the power of ten of the exponent, with the sign of the number. -/
structure IsDefaultText (x : Binary64) (text : Text) : Prop where
  positional : -4 ≤ x.shortest.exponent -> x.shortest.exponent < 6 -> text = x.positional
  scientific : x.shortest.exponent < -4 ∨ 6 ≤ x.shortest.exponent ->
    exists digits : Text,
      text = x.withSign x.shortest.mantissa ++
          'e' :: (if x.shortest.exponent < 0 then '-' else '+') :: digits ∧
        2 ≤ digits.length ∧ Text.natural? digits = some x.shortest.exponent.natAbs
  denotes : Text.number? text =
    some (x.signed (x.shortest.leading * 10 ^ x.shortest.exponent))

theorem FiniteNonzero.isDefaultText (hx : x.FiniteNonzero) : x.IsDefaultText x.display where
  positional hlow hhigh := by
    rw [hx.display_eq, if_pos ⟨hlow, hhigh⟩]
  scientific hexponent := by
    refine ⟨Text.atLeastTwoDigits x.shortest.exponent.natAbs, ?_,
      Text.two_le_length_atLeastTwoDigits _, Text.natural?_atLeastTwoDigits _⟩
    rw [hx.display_eq, if_neg (by omega), withSign_scientific]
  denotes := by
    rw [hx.number?_display, Decimal.value_eq_leading]

/-- The default text of a number is written without a failure.  For a finite number other
than zero its digits are the fewest that read back as the number, and the text denotes
their decimal exactly.  Numbers have the same text only if they are the same or both are
not numbers. -/
theorem display_exact (x : Binary64) :
    x.written? = some (Value.float x).display ∧
      (x.FiniteNonzero ->
        ofRatio x.isNegative x.shortest.numerator x.shortest.denominator = x ∧
          (forall d : Decimal, x.ReadsBack d ->
            x.shortest.digits.length ≤ d.digits.length) ∧
          x.shortest.coefficient % 10 ≠ 0 ∧
          Text.number? x.positional = Text.number? (Value.float x).display ∧
          x.IsDefaultText (Value.float x).display) ∧
      forall y : Binary64, (Value.float x).display = (Value.float y).display ↔
        x = y ∨ (x.isNaN = true ∧ y.isNaN = true) := by
  refine ⟨x.written?_eq_display, fun hx => ?_, fun y => display_eq_iff⟩
  have hshortest := shortest_isShortest hx
  exact ⟨hshortest.readsBack.ofRatio_eq hx, fun d => hshortest.length_digits_le hx,
    hshortest.coefficient_mod_ten, hx.number?_positional.trans hx.number?_display.symm,
    hx.isDefaultText⟩

example : (ofRatio true 3 20000000).display = "-1.5e-07".toList := by
  decide +kernel

end Binary64

end Stencil
