import LineCensus.Numeric.Decimal
import LineCensus.Proofs.Rounding
import Mathlib

/-!
The shortest decimal for a number. It lies in the range of the number, so that it is read as that number;
and there always is one, since decimals with 17 digits lie closer together than the ends of a range do.
-/

namespace LineCensus.Numeric

set_option autoImplicit false

open Binary64 (roundedQuotient minExponent IsCanonical InRange gapBelow gap_below_of_odd)

theorem Binary64.rounded_quotient_near {top bottom : Nat} (divides : 0 < bottom) :
    (roundedQuotient top bottom : ℚ) - 1 / 2 ≤ top / bottom ∧
      (top : ℚ) / bottom ≤ roundedQuotient top bottom + 1 / 2 := by
  have parts : top / bottom * bottom + top % bottom = top := Nat.div_add_mod' top bottom
  have rest := Nat.mod_lt top divides
  have near : 2 * (roundedQuotient top bottom * bottom) ≤ 2 * top + bottom ∧
      2 * top ≤ 2 * (roundedQuotient top bottom * bottom) + bottom := by
    have next : (top / bottom + 1) * bottom = top / bottom * bottom + bottom := Nat.succ_mul _ _
    simp only [roundedQuotient, beq_iff_eq, Bool.and_eq_true]
    split
    · omega
    · split <;> omega
  have divisor : (0 : ℚ) < bottom := by exact_mod_cast divides
  obtain ⟨above, below⟩ := near
  have aboveValue : (2 : ℚ) * (roundedQuotient top bottom * bottom) ≤ 2 * top + bottom := by
    exact_mod_cast above
  have belowValue : (2 : ℚ) * top ≤ 2 * (roundedQuotient top bottom * bottom) + bottom := by
    exact_mod_cast below
  rw [le_div_iff₀ divisor, div_le_iff₀ divisor]
  constructor <;> linarith

namespace Decimal

/-! ### Values -/

def value (decimal : Decimal) : ℚ := decimal.digits * 10 ^ decimal.exponent

theorem trimmed_value (bound digits : Nat) (exponent : Int) :
    (trimmed bound digits exponent).value = digits * 10 ^ exponent := by
  induction bound generalizing digits exponent with
  | zero => rfl
  | succ bound ih =>
      rw [trimmed]
      split
      case isTrue endsInZero =>
        simp only [bne_iff_ne, ne_eq, Bool.and_eq_true, beq_iff_eq] at endsInZero
        have whole : digits / 10 * 10 = digits :=
          Nat.div_mul_cancel (Nat.dvd_of_mod_eq_zero endsInZero.2)
        have value : ((digits / 10 : Nat) : ℚ) * 10 = digits := by exact_mod_cast whole
        rw [ih, zpow_add_one₀ (by norm_num), mul_comm ((10 : ℚ) ^ exponent), ← mul_assoc, value]
      case isFalse => rfl

theorem make_value (digits : Nat) (exponent : Int) :
    (make digits exponent).value = digits * 10 ^ exponent := trimmed_value _ _ _

theorem decimal_parts (digits : Nat) (place : Int) :
    ∃ top bottom : Nat, 0 < bottom ∧
      (if place < 0 then (digits, powerOfTen place.natAbs)
        else (digits * powerOfTen place.toNat, 1)) = (top, bottom) ∧
      (top : ℚ) / bottom = digits * 10 ^ place := by
  rw [power_of_ten_eq, power_of_ten_eq]
  split
  case isTrue down =>
    refine ⟨_, _, Nat.pow_pos (by decide), rfl, ?_⟩
    rw [zpow_of_neg 10 down, Nat.cast_pow, Nat.cast_ofNat, div_eq_mul_inv]
  case isFalse up =>
    refine ⟨_, _, Nat.one_pos, rfl, ?_⟩
    rw [zpow_of_not_neg 10 up, Nat.cast_mul, Nat.cast_pow, Nat.cast_ofNat, Nat.cast_one, div_one]

theorem grid_parts (numerator : Nat) {denominator : Nat} (divides : 0 < denominator) (place : Int) :
    ∃ top bottom : Nat, 0 < bottom ∧
      (if place < 0 then (numerator * powerOfTen place.natAbs, denominator)
        else (numerator, denominator * powerOfTen place.toNat)) = (top, bottom) ∧
      (top : ℚ) / bottom * 10 ^ place = numerator / denominator := by
  rw [power_of_ten_eq, power_of_ten_eq]
  split
  case isTrue down =>
    refine ⟨_, _, divides, rfl, ?_⟩
    rw [zpow_of_neg 10 down, Nat.cast_mul, Nat.cast_pow, Nat.cast_ofNat]
    field_simp
  case isFalse up =>
    refine ⟨_, _, Nat.mul_pos divides (Nat.pow_pos (by decide)), rfl, ?_⟩
    rw [zpow_of_not_neg 10 up, Nat.cast_mul, Nat.cast_pow, Nat.cast_ofNat]
    field_simp

theorem quotient_le_iff {a b c d : Nat} (left : 0 < b) (right : 0 < d) :
    (a : ℚ) / b ≤ c / d ↔ a * d ≤ c * b := by
  rw [div_le_div_iff₀ (by exact_mod_cast left) (by exact_mod_cast right)]
  norm_cast

theorem quotient_lt_iff {a b c d : Nat} (left : 0 < b) (right : 0 < d) :
    (a : ℚ) / b < c / d ↔ a * d < c * b := by
  rw [div_lt_div_iff₀ (by exact_mod_cast left) (by exact_mod_cast right)]
  norm_cast

/-! ### Sizes -/

theorem magnitude_of_whole {numerator denominator : Nat} (divides : 0 < denominator)
    (whole : denominator ≤ numerator) :
    (10 : ℚ) ^ (((text (numerator / denominator)).length : Int) - 1) ≤ numerator / denominator :=
  (digit_count_bounds (Nat.div_pos whole divides)).1.trans Nat.cast_div_le

/-- The size of a quotient is known as soon as it has been moved up in front of the point. -/
theorem magnitude_le {numerator denominator : Nat} (divides : 0 < denominator) (bound : Nat)
    (reached : denominator ≤ numerator * 10 ^ bound) :
    (10 : ℚ) ^ (magnitude numerator denominator (bound + 1) - 1) ≤ numerator / denominator := by
  induction bound generalizing numerator with
  | zero =>
      rw [pow_zero, Nat.mul_one] at reached
      rw [magnitude, if_pos reached]
      exact magnitude_of_whole divides reached
  | succ bound ih =>
      rw [magnitude]
      split
      case isTrue whole => exact magnitude_of_whole divides whole
      case isFalse =>
        rw [pow_succ', ← Nat.mul_assoc] at reached
        have low := ih reached
        rw [zpow_sub_one₀ (by norm_num), ← div_eq_mul_inv, div_le_iff₀ (by norm_num)]
        rwa [Nat.cast_mul, Nat.cast_ofNat, mul_div_right_comm] at low

/-! ### Intervals -/

/-- Whether an interval is the range of a number. -/
structure Interval.Spans (interval : Interval) (significand : Nat) (exponent : Int) : Prop where
  divides : 0 < interval.denominator
  low : (interval.low : ℚ) / interval.denominator =
    (significand - gapBelow significand exponent) * 2 ^ exponent
  value : (interval.value : ℚ) / interval.denominator = significand * 2 ^ exponent
  high : (interval.high : ℚ) / interval.denominator = (significand + 1 / 2) * 2 ^ exponent
  closed_iff : interval.closed = true ↔ significand % 2 = 0

theorem power_of_two_parts (exponent : Int) :
    ∃ scale denominator : Nat, 0 < denominator ∧
      (if exponent < 0 then (1, 1 <<< exponent.natAbs) else (1 <<< exponent.toNat, 1)) =
        (scale, denominator) ∧ (scale : ℚ) / denominator = 2 ^ exponent := by
  split
  case isTrue down =>
    refine ⟨_, _, ?_, rfl, ?_⟩
    · rw [Nat.one_shiftLeft]
      exact Nat.two_pow_pos _
    · rw [zpow_of_neg 2 down, Nat.cast_one, Nat.one_shiftLeft, Nat.cast_pow, Nat.cast_ofNat, one_div]
  case isFalse up =>
    refine ⟨_, _, Nat.one_pos, rfl, ?_⟩
    rw [zpow_of_not_neg 2 up, Nat.one_shiftLeft, Nat.cast_pow, Nat.cast_ofNat, Nat.cast_one, div_one]

theorem interval_spans {significand : Nat} (something : 0 < significand) (exponent : Int) :
    (Interval.of significand exponent).Spans significand exponent := by
  obtain ⟨scale, denominator, divides, same, unit⟩ := power_of_two_parts exponent
  have divisor : (denominator : ℚ) ≠ 0 := by exact_mod_cast divides.ne'
  have quarters (n : Nat) : ((n * scale : Nat) : ℚ) / ((4 * denominator : Nat) : ℚ) =
      n / 4 * 2 ^ exponent := by
    rw [← unit, Nat.cast_mul, Nat.cast_mul, Nat.cast_ofNat]
    field_simp
  have narrow : (significand == 1 <<< 52 && decide (Binary64.minExponent < exponent)) = true ↔
      significand = 2 ^ 52 ∧ minExponent < exponent := by
    rw [Bool.and_eq_true, beq_iff_eq, decide_eq_true_iff, Nat.one_shiftLeft]
  rw [Interval.of, same]
  simp only [narrow]
  constructor
  · exact Nat.mul_pos (by decide) divides
  · dsimp only
    rw [quarters, gapBelow]
    congr 1
    split
    · rw [Nat.cast_sub (by omega)]
      push_cast
      ring
    · rw [Nat.cast_sub (by omega)]
      push_cast
      ring
  · dsimp only
    rw [quarters, Nat.cast_mul, Nat.cast_ofNat, mul_div_cancel_left₀ _ (by norm_num)]
  · dsimp only
    rw [quarters]
    push_cast
    ring
  · exact beq_iff_eq

theorem half_step_lt_gap {significand : Nat} {exponent : Int} (bounded : significand < 2 ^ 53)
    {place : Int} (fine : (10 : ℚ) ^ (place + 16) ≤ significand * 2 ^ exponent) :
    (10 : ℚ) ^ place / 2 < gapBelow significand exponent * 2 ^ exponent := by
  have step := ten_zpow_pos place
  have unit := two_zpow_pos exponent
  rw [zpow_add₀ (by norm_num)] at fine
  rw [gapBelow]
  split
  case isTrue narrow =>
    rw [narrow.1, Nat.cast_pow, Nat.cast_ofNat] at fine
    norm_num at fine
    linarith
  case isFalse =>
    have bits : (significand : ℚ) < 2 ^ 53 := by exact_mod_cast bounded
    have scaled := mul_lt_mul_of_pos_right bits unit
    norm_num at scaled fine
    linarith

namespace Interval

variable {interval : Interval} {significand : Nat} {exponent : Int}

/-- What is found on a grid lies in the interval. -/
theorem contains_of_on_grid {digits : Nat} {place : Int}
    (found : interval.onGrid place = some digits) : interval.contains digits place = true := by
  rw [onGrid] at found
  generalize (if place < 0 then
      (interval.value * powerOfTen place.natAbs, interval.denominator)
    else (interval.value, interval.denominator * powerOfTen place.toNat)) = quotient at found
  dsimp only at found
  split at found
  case isTrue inside =>
    rwa [← Option.some.inj found]
  case isFalse =>
    rw [Option.ite_none_right_eq_some] at found
    obtain ⟨inside, same⟩ := found
    rwa [← Option.some.inj same]

variable (spans : interval.Spans significand exponent)

include spans

/-- An interval contains just the decimals in the range that it spans. -/
theorem contains_iff_in_range (digits : Nat) (place : Int) :
    interval.contains digits place = true ↔
      InRange (digits * 10 ^ place) significand exponent := by
  obtain ⟨top, bottom, divides, same, value⟩ := decimal_parts digits place
  have isInside : interval.contains digits place = true ↔
      if significand % 2 = 0 then
        (significand - gapBelow significand exponent) * 2 ^ exponent ≤ digits * 10 ^ place ∧
          digits * 10 ^ place ≤ (significand + 1 / 2) * (2 : ℚ) ^ exponent
      else (significand - gapBelow significand exponent) * 2 ^ exponent < digits * 10 ^ place ∧
          digits * 10 ^ place < (significand + 1 / 2) * (2 : ℚ) ^ exponent := by
    rw [contains, same]
    simp only [← spans.closed_iff, ← spans.low, ← spans.high, ← value,
      quotient_le_iff spans.divides divides, quotient_le_iff divides spans.divides,
      quotient_lt_iff spans.divides divides, quotient_lt_iff divides spans.divides]
    cases interval.closed <;> simp
  rw [isInside]
  constructor
  · intro inside
    split at inside
    case isTrue even => exact ⟨inside.1, inside.2, by omega⟩
    case isFalse =>
      refine ⟨inside.1.le, inside.2.le, fun odd => ?_⟩
      rwa [gap_below_of_odd odd] at inside
  · intro within
    split
    case isTrue => exact ⟨within.low, within.high⟩
    case isFalse notEven =>
      have odd : significand % 2 = 1 := by omega
      rw [gap_below_of_odd odd]
      exact within.inside odd

/-- A grid on which the value has 17 digits has a decimal of the interval. -/
theorem on_grid_of_fine (bounded : significand < 2 ^ 53) {place : Int}
    (fine : (10 : ℚ) ^ (place + 16) ≤ significand * 2 ^ exponent) :
    ∃ digits, interval.onGrid place = some digits := by
  obtain ⟨top, bottom, divides, same, value⟩ := grid_parts interval.value spans.divides place
  rw [spans.value] at value
  have step := ten_zpow_pos place
  have unit := two_zpow_pos exponent
  have half := half_step_lt_gap bounded fine
  have near : (significand - gapBelow significand exponent) * 2 ^ exponent <
        roundedQuotient top bottom * 10 ^ place ∧
      roundedQuotient top bottom * 10 ^ place < (significand + 1 / 2) * (2 : ℚ) ^ exponent := by
    obtain ⟨above, below⟩ := @Binary64.rounded_quotient_near top bottom divides
    have atLeast := mul_le_mul_of_nonneg_right above step.le
    have atMost := mul_le_mul_of_nonneg_right below step.le
    have gap := mul_le_mul_of_nonneg_right (Binary64.gap_below_le significand exponent) unit.le
    rw [value] at atLeast atMost
    constructor <;> linarith
  have inside : interval.contains (roundedQuotient top bottom) place = true := by
    rw [contains_iff_in_range spans]
    refine ⟨near.1.le, near.2.le, fun odd => ?_⟩
    rwa [gap_below_of_odd odd] at near
  exact ⟨_, by simp only [onGrid, same]; exact if_pos inside⟩

end Interval

/-! ### The search -/

/-- The first decimal that is found is one of the interval, if there is one to be found. -/
theorem shortest_from_contained {interval : Interval} {size : Int} {bound length : Nat}
    (reached : ∃ digits, interval.onGrid (size - (length + bound : Nat)) = some digits) :
    ∃ digits place, interval.contains digits place = true ∧
      shortestFrom interval size (bound + 1) length = make digits place := by
  induction bound generalizing length with
  | zero =>
      obtain ⟨digits, found⟩ := reached
      refine ⟨digits, size - length, Interval.contains_of_on_grid found, ?_⟩
      rw [Nat.add_zero] at found
      simp only [shortestFrom, found]
  | succ bound ih =>
      rw [shortestFrom]
      cases tried : interval.onGrid (size - length) with
      | some digits => exact ⟨digits, size - length, Interval.contains_of_on_grid tried, rfl⟩
      | none =>
          apply ih
          rwa [Nat.add_right_comm, Nat.add_assoc]

section

variable {significand : Nat} {exponent : Int} (canonical : IsCanonical significand exponent)
  (something : 0 < significand)

include canonical something

theorem magnitude_of_canonical :
    let interval := Interval.of significand exponent
    (10 : ℚ) ^ (magnitude interval.value interval.denominator zeroBound - 1) ≤
      significand * 2 ^ exponent := by
  have spans := interval_spans something exponent
  have atLeast : (1 : ℚ) ≤ significand := by exact_mod_cast something
  generalize Interval.of significand exponent = interval at spans
  have divisor : (0 : ℚ) < interval.denominator := by exact_mod_cast spans.divides
  have reached : interval.denominator ≤ interval.value * 10 ^ 399 := by
    have least : (10 : ℚ) ^ (-331 : Int) ≤ interval.value / interval.denominator :=
      calc
        (10 : ℚ) ^ (-331 : Int) ≤ 2 ^ (-1075 : Int) := Binary64.least_power_of_ten
        _ ≤ 2 ^ exponent := two_zpow_le (le_trans (by decide) canonical.least)
        _ ≤ significand * 2 ^ exponent := le_mul_of_one_le_left (two_zpow_pos exponent).le atLeast
        _ = interval.value / interval.denominator := spans.value.symm
    have whole : (interval.denominator : ℚ) ≤ interval.value * 10 ^ 399 := by
      rw [le_div_iff₀ divisor, zpow_neg, inv_mul_le_iff₀ (ten_zpow_pos 331), mul_comm] at least
      refine least.trans (mul_le_mul_of_nonneg_left ?_ (Nat.cast_nonneg _))
      rw [← zpow_natCast]
      exact ten_zpow_le (by decide)
    exact_mod_cast whole
  have low := magnitude_le spans.divides 399 reached
  rwa [spans.value] at low

/-- The shortest decimal for a number lies in its range. -/
theorem shortest_in_range (negative : Bool) :
    InRange (shortest (.finite negative significand exponent)).value significand exponent := by
  have spans := interval_spans something exponent
  have large := magnitude_of_canonical canonical something
  have nonzero : (significand == 0) = false := beq_eq_false_iff_ne.mpr something.ne'
  simp only [shortest, nonzero, Bool.false_eq_true, if_false]
  dsimp only at large
  generalize Interval.of significand exponent = interval at spans large ⊢
  generalize magnitude interval.value interval.denominator zeroBound = size at large ⊢
  have fine : (10 : ℚ) ^ (size - (1 + 16 : Nat) + 16) ≤ significand * 2 ^ exponent := by
    rwa [show size - (1 + 16 : Nat) + 16 = size - 1 by omega]
  obtain ⟨digits, place, inside, found⟩ := shortest_from_contained
    (Interval.on_grid_of_fine spans canonical.bounded fine)
  rw [maxDigits, found, make_value]
  exact (Interval.contains_iff_in_range spans digits place).mp inside

theorem shortest_digits_pos (negative : Bool) :
    0 < (shortest (.finite negative significand exponent)).digits := by
  obtain ⟨least, -⟩ :=
    Binary64.value_bounds canonical something (shortest_in_range canonical something negative)
  have positive := (two_zpow_pos _).trans_le least
  rw [value, mul_pos_iff_of_pos_right (ten_zpow_pos _)] at positive
  exact_mod_cast positive

/-- The shortest decimal for a number is read as that number. -/
theorem of_decimal_shortest (negative : Bool) :
    let decimal := shortest (.finite negative significand exponent)
    Binary64.ofDecimal negative decimal.digits decimal.exponent =
      .finite negative significand exponent :=
  Binary64.of_decimal_of_in_range negative canonical something
    (shortest_in_range canonical something negative)

end

end Decimal

end LineCensus.Numeric
