import LineCensus.Proofs.Exactness
import Mathlib

/-!
Rounding to the nearest number. A positive number stands for all quotients that are nearer to it than to
any other number, its ends included if its significand is even. Below a power of two numbers lie twice as
close, so there the range is only half as wide. Each quotient is rounded to the number in whose range it
lies.
-/

namespace LineCensus.Numeric

set_option autoImplicit false

namespace Binary64

/-! ### Integers -/

/-- A quotient is rounded to the integer that is at most a half away, if it is even where it is just
that. -/
theorem rounded_quotient_of_near {top bottom nearest : Nat} (divides : 0 < bottom)
    (above : 2 * nearest * bottom ≤ 2 * top + bottom)
    (below : 2 * top ≤ 2 * nearest * bottom + bottom)
    (inside : nearest % 2 = 1 →
      2 * nearest * bottom < 2 * top + bottom ∧ 2 * top < 2 * nearest * bottom + bottom) :
    roundedQuotient top bottom = nearest := by
  have parts : top / bottom * bottom + top % bottom = top := Nat.div_add_mod' top bottom
  have rest := Nat.mod_lt top divides
  simp only [roundedQuotient, beq_iff_eq, Bool.and_eq_true]
  generalize top / bottom = quotient at parts ⊢
  generalize top % bottom = left at parts rest ⊢
  have low : quotient ≤ nearest := by
    by_contra larger
    have step := Nat.mul_le_mul_right bottom (Nat.succ_le_of_lt (not_le.mp larger))
    rw [Nat.succ_mul] at step
    rw [Nat.mul_assoc] at below
    omega
  have high : nearest ≤ quotient + 1 := by
    by_contra larger
    have step := Nat.mul_le_mul_right bottom (Nat.succ_le_of_lt (not_le.mp larger))
    rw [Nat.succ_mul, Nat.succ_mul] at step
    rw [Nat.mul_assoc] at above
    omega
  rw [Nat.mul_assoc] at above below inside
  rcases Nat.le_iff_lt_or_eq.mp high with fewer | rfl
  · obtain rfl : nearest = quotient := by omega
    have half : ¬bottom < 2 * left := by omega
    rw [if_neg half, if_neg]
    rintro ⟨tied, odd⟩
    have strict := inside odd
    omega
  · have next : (quotient + 1) * bottom = quotient * bottom + bottom := Nat.succ_mul _ _
    by_cases more : bottom < 2 * left
    · rw [if_pos more]
    · have tied : 2 * left = bottom := by omega
      have odd : quotient % 2 = 1 := by
        by_contra even
        have strict := inside (by omega)
        omega
      rw [if_neg more, if_pos ⟨tied, odd⟩]

theorem rounded_le_succ (top bottom : Nat) : roundedQuotient top bottom ≤ top / bottom + 1 := by
  simp only [roundedQuotient]
  split
  · exact Nat.le_refl _
  · split
    · exact Nat.le_refl _
    · exact Nat.le_succ _

end Binary64

/-! ### Powers -/

theorem power_of_ten_eq (exponent : Nat) : powerOfTen exponent = 10 ^ exponent := by
  induction exponent with
  | zero => rfl
  | succ exponent ih => rw [powerOfTen, ih, Nat.pow_succ, Nat.mul_comm]

theorem zpow_of_neg (base : ℚ) {exponent : Int} (down : exponent < 0) :
    base ^ exponent = (base ^ exponent.natAbs)⁻¹ := by
  have size : exponent = -(exponent.natAbs : Int) := by omega
  conv_lhs => rw [size]
  rw [zpow_neg, zpow_natCast]

theorem zpow_of_not_neg (base : ℚ) {exponent : Int} (up : ¬exponent < 0) :
    base ^ exponent = base ^ exponent.toNat := by
  have size : exponent = (exponent.toNat : Int) := by omega
  conv_lhs => rw [size]
  rw [zpow_natCast]

theorem two_zpow_pos (exponent : Int) : (0 : ℚ) < 2 ^ exponent := zpow_pos (by norm_num) exponent

theorem two_zpow_le {a b : Int} (le : a ≤ b) : (2 : ℚ) ^ a ≤ 2 ^ b :=
  zpow_le_zpow_right₀ (by norm_num) le

theorem ten_zpow_pos (exponent : Int) : (0 : ℚ) < 10 ^ exponent := zpow_pos (by norm_num) exponent

theorem ten_zpow_le {a b : Int} (le : a ≤ b) : (10 : ℚ) ^ a ≤ 10 ^ b :=
  zpow_le_zpow_right₀ (by norm_num) le

/-- A positive natural number lies between the powers of ten around it. -/
theorem digit_count_bounds {n : Nat} (positive : 0 < n) :
    (10 : ℚ) ^ (((Nat.toDigits 10 n).length : Int) - 1) ≤ n ∧
      (n : ℚ) < 10 ^ ((Nat.toDigits 10 n).length : Int) := by
  have someDigit : 0 < (Nat.toDigits 10 n).length := Nat.length_toDigits_pos
  constructor
  · have fewer : ((Nat.toDigits 10 n).length : Int) - 1 = ((Nat.toDigits 10 n).length - 1 : Nat) := by
      omega
    have least : 10 ^ ((Nat.toDigits 10 n).length - 1) ≤ n := by
      by_contra less
      rw [not_le] at less
      rcases Nat.eq_zero_or_pos ((Nat.toDigits 10 n).length - 1) with none | some
      · rw [none, pow_zero] at less
        omega
      · have shorter := (Nat.length_toDigits_le_iff (by decide) some).mpr less
        omega
    rw [fewer, zpow_natCast]
    exact_mod_cast least
  · have most := (Nat.length_toDigits_le_iff (by decide) someDigit).mp (le_refl _)
    rw [zpow_natCast]
    exact_mod_cast most

namespace Binary64

/-! ### Exponents -/

/-- Whether a positive quotient is written with some exponent: with the largest that leaves 53 bits
before the point, or with the smallest of all. -/
structure IsExponent (quotient : ℚ) (exponent : Int) : Prop where
  least : minExponent ≤ exponent
  below : quotient < 2 ^ (exponent + 53)
  filled : exponent = minExponent ∨ 2 ^ (exponent + 52) ≤ quotient

theorem IsExponent.unique {quotient : ℚ} {a b : Int} (first : IsExponent quotient a)
    (second : IsExponent quotient b) : a = b := by
  have apart {a b : Int} (first : IsExponent quotient a) (second : IsExponent quotient b) : b ≤ a := by
    rcases second.filled with rfl | filled
    · exact first.least
    · have between : (2 : ℚ) ^ (b + 52) < 2 ^ (a + 53) := filled.trans_lt first.below
      have less := (zpow_lt_zpow_iff_right₀ (by norm_num : (1 : ℚ) < 2)).mp between
      omega
  exact le_antisymm (apart second first) (apart first second)

theorem log_two_bounds {n : Nat} (positive : 0 < n) :
    (2 : ℚ) ^ (n.log2 : Int) ≤ n ∧ (n : ℚ) < 2 ^ ((n.log2 : Int) + 1) := by
  constructor
  · rw [zpow_natCast]
    exact_mod_cast Nat.log2_self_le positive.ne'
  · rw [← Nat.cast_succ, zpow_natCast]
    exact_mod_cast Nat.lt_log2_self

section

variable {numerator denominator : Nat}

theorem scaled_value (exponent : Int) :
    ((scaled numerator denominator exponent).1 : ℚ) / (scaled numerator denominator exponent).2 =
      numerator / denominator / 2 ^ exponent := by
  rw [scaled]
  split
  case isTrue down =>
    rw [zpow_of_neg 2 down, Nat.shiftLeft_eq, Nat.cast_mul, Nat.cast_pow, Nat.cast_ofNat,
      div_inv_eq_mul, div_mul_eq_mul_div]
  case isFalse up =>
    rw [zpow_of_not_neg 2 up, Nat.shiftLeft_eq, Nat.cast_mul, Nat.cast_pow, Nat.cast_ofNat, div_div]

variable (divides : 0 < denominator)

include divides

theorem scaled_bottom_pos (exponent : Int) : 0 < (scaled numerator denominator exponent).2 := by
  rw [scaled]
  split
  · exact divides
  · rw [Nat.shiftLeft_eq]
    exact Nat.mul_pos divides (Nat.two_pow_pos _)

variable (positive : 0 < numerator)

include positive

theorem quotient_bounds :
    (2 : ℚ) ^ ((numerator.log2 : Int) - denominator.log2 - 1) ≤ numerator / denominator ∧
      (numerator / denominator : ℚ) < 2 ^ ((numerator.log2 : Int) - denominator.log2 + 1) := by
  have divisor : (0 : ℚ) < denominator := by exact_mod_cast divides
  obtain ⟨topLow, topHigh⟩ := log_two_bounds positive
  obtain ⟨bottomLow, bottomHigh⟩ := log_two_bounds divides
  generalize (numerator.log2 : Int) = a at topLow topHigh ⊢
  generalize (denominator.log2 : Int) = b at bottomLow bottomHigh ⊢
  constructor
  · rw [le_div_iff₀ divisor]
    calc
      (2 : ℚ) ^ (a - b - 1) * denominator ≤ 2 ^ (a - b - 1) * 2 ^ (b + 1) := by gcongr
      _ = 2 ^ a := by
        rw [← zpow_add₀ (by norm_num)]
        congr 1
        ring
      _ ≤ numerator := topLow
  · rw [div_lt_iff₀ divisor]
    calc
      (numerator : ℚ) < 2 ^ (a + 1) := topHigh
      _ = 2 ^ (a - b + 1) * 2 ^ b := by
        rw [← zpow_add₀ (by norm_num)]
        congr 1
        ring
      _ ≤ 2 ^ (a - b + 1) * denominator := by gcongr

theorem exponent_of_spec :
    IsExponent ((numerator : ℚ) / denominator) (exponentOf numerator denominator) := by
  obtain ⟨low, high⟩ := quotient_bounds divides positive
  rw [exponentOf]
  generalize guessed : (numerator.log2 : Int) - denominator.log2 - 52 = guess
  have above : (numerator.log2 : Int) - denominator.log2 + 1 = guess + 53 := by omega
  have under : (numerator.log2 : Int) - denominator.log2 - 1 = guess + 51 := by omega
  rw [above] at high
  rw [under] at low
  have bottomPositive : (0 : ℚ) < (scaled numerator denominator guess).2 := by
    exact_mod_cast scaled_bottom_pos divides guess
  have missing : (scaled numerator denominator guess).1 <
      (scaled numerator denominator guess).2 <<< 52 ↔
        (numerator : ℚ) / denominator < 2 ^ (guess + 52) := by
    rw [zpow_add₀ (by norm_num), ← div_lt_iff₀' (two_zpow_pos guess), ← scaled_value,
      div_lt_iff₀' bottomPositive, Nat.shiftLeft_eq]
    exact_mod_cast Iff.rfl
  simp only [missing]
  split
  case isTrue less =>
    refine ⟨le_max_right _ _, less.trans_le (two_zpow_le (by omega)), ?_⟩
    rcases le_total (guess - 1) minExponent with small | large
    · exact .inl (max_eq_right small)
    · rw [max_eq_left large]
      exact .inr ((two_zpow_le (by omega)).trans low)
  case isFalse enough =>
    refine ⟨le_max_right _ _, high.trans_le (two_zpow_le (by omega)), ?_⟩
    rcases le_total guess minExponent with small | large
    · exact .inl (max_eq_right small)
    · rw [max_eq_left large]
      exact .inr (not_lt.mp enough)

omit positive in
/-- What is in front of the point, with an exponent that fits, takes 53 bits or fewer. -/
theorem scaled_quotient_bounds {exponent : Int}
    (fits : IsExponent ((numerator : ℚ) / denominator) exponent) :
    let quotient := (scaled numerator denominator exponent).1 / (scaled numerator denominator exponent).2
    quotient < 2 ^ 53 ∧ (exponent = minExponent ∨ 2 ^ 52 ≤ quotient) := by
  have bottomPositive := @scaled_bottom_pos numerator denominator divides exponent
  have value := @scaled_value numerator denominator exponent
  generalize (scaled numerator denominator exponent).1 = top at value ⊢
  generalize (scaled numerator denominator exponent).2 = bottom at bottomPositive value ⊢
  have divisor : (0 : ℚ) < bottom := by exact_mod_cast bottomPositive
  have unit := two_zpow_pos exponent
  constructor
  · have less : (top : ℚ) / bottom < 2 ^ 53 := by
      rw [value, div_lt_iff₀ unit, mul_comm]
      have spread := fits.below
      rwa [zpow_add₀ (by norm_num)] at spread
    rw [div_lt_iff₀ divisor] at less
    rw [Nat.div_lt_iff_lt_mul bottomPositive]
    exact_mod_cast less
  · rcases fits.filled with small | large
    · exact .inl small
    · right
      have more : (2 : ℚ) ^ 52 ≤ top / bottom := by
        rw [value, le_div_iff₀ unit, mul_comm]
        rwa [zpow_add₀ (by norm_num)] at large
      rw [le_div_iff₀ divisor] at more
      rw [Nat.le_div_iff_mul_le bottomPositive]
      exact_mod_cast more

theorem exponent_of_eq {exponent : Int}
    (fits : IsExponent ((numerator : ℚ) / denominator) exponent) :
    exponentOf numerator denominator = exponent :=
  (exponent_of_spec divides positive).unique fits

omit divides in
/-- Rounding in full: the significand takes 53 bits, unless rounding up makes it the next power of two. -/
theorem of_ratio_eq (negative : Bool) {exponent : Int} {significand : Nat}
    (chosen : exponentOf numerator denominator = exponent)
    (rounded : roundedQuotient (scaled numerator denominator exponent).1
      (scaled numerator denominator exponent).2 = significand) :
    ofRatio negative numerator denominator =
      if significand = 2 ^ 53 then
        if maxExponent < exponent + 1 then infinite negative
        else finite negative (2 ^ 52) (exponent + 1)
      else if maxExponent < exponent then infinite negative
      else finite negative significand exponent := by
  have something : (numerator == 0) = false := beq_eq_false_iff_ne.mpr positive.ne'
  have half : (2 ^ 53 : Nat) / 2 = 2 ^ 52 := rfl
  simp only [ofRatio, something, Bool.false_eq_true, if_false, chosen, rounded, beq_iff_eq,
    significand_bound_eq]
  by_cases full : significand = 2 ^ 53
  · rw [if_pos full, if_pos full, full, half]
  · rw [if_neg full, if_neg full]

end

/-! ### Proper numbers -/

/-- Whether a significand and an exponent are those of a finite number: the significand has 53 bits, or
fewer with the smallest exponent. -/
structure IsCanonical (significand : Nat) (exponent : Int) : Prop where
  bounded : significand < 2 ^ 53
  least : minExponent ≤ exponent
  most : exponent ≤ maxExponent
  filled : exponent = minExponent ∨ 2 ^ 52 ≤ significand

/-- Whether a number has the one form in which it is written, if it is finite. -/
def IsProper : Binary64 → Prop
  | finite _ significand exponent => IsCanonical significand exponent
  | _ => True

theorem zero_is_proper (negative : Bool) : (zero negative).IsProper :=
  ⟨by decide, le_refl _, by decide, .inl rfl⟩

/-- What is rounded is a proper number. -/
theorem of_ratio_is_proper (negative : Bool) (numerator : Nat) {denominator : Nat}
    (divides : 0 < denominator) : (ofRatio negative numerator denominator).IsProper := by
  rcases Nat.eq_zero_or_pos numerator with rfl | positive
  · rw [of_ratio_zero]
    exact zero_is_proper negative
  · have spec := exponent_of_spec divides positive
    generalize chosen : exponentOf numerator denominator = exponent at spec
    obtain ⟨below, filled⟩ := scaled_quotient_bounds divides spec
    have equation := of_ratio_eq positive negative chosen rfl
    generalize (scaled numerator denominator exponent).1 = top at below filled equation
    generalize (scaled numerator denominator exponent).2 = bottom at below filled equation
    have atLeast := quotient_le_rounded top bottom
    have atMost := rounded_le_succ top bottom
    have least := spec.least
    rw [equation]
    generalize roundedQuotient top bottom = significand at atLeast atMost
    split
    · split
      · trivial
      · exact ⟨by decide, by omega, by omega, .inr (le_refl _)⟩
    · split
      · trivial
      · exact ⟨by omega, least, by omega, by omega⟩

theorem of_nat_is_proper (n : Nat) : (ofNat n).IsProper := of_ratio_is_proper false n Nat.one_pos

theorem magnitude_bottom_pos (a : Binary64) : 0 < a.magnitude.2 := by
  cases a with
  | nan => exact Nat.one_pos
  | infinite negative => exact Nat.one_pos
  | finite negative significand exponent =>
      rw [magnitude]
      split
      · rw [Nat.one_shiftLeft]
        exact Nat.two_pow_pos _
      · exact Nat.one_pos

theorem magnitude_top_pos {negative : Bool} {significand : Nat} {exponent : Int}
    (something : 0 < significand) : 0 < (finite negative significand exponent).magnitude.1 := by
  rw [magnitude]
  split
  · exact something
  · rw [Nat.shiftLeft_eq]
    exact Nat.mul_pos something (Nat.two_pow_pos _)

theorem div_is_proper (a b : Binary64) : (a / b).IsProper := by
  change (div a b).IsProper
  cases a with
  | nan => trivial
  | infinite negative =>
      cases b with
      | nan | infinite | finite => trivial
  | finite negative significand exponent =>
      cases b with
      | nan => trivial
      | infinite => exact zero_is_proper _
      | finite otherNegative other otherExponent =>
          rw [div]
          split
          case isTrue => split <;> trivial
          case isFalse nonzero =>
            have something : 0 < other := by
              apply Nat.pos_of_ne_zero
              rintro rfl
              exact nonzero rfl
            exact of_ratio_is_proper _ _
              (Nat.mul_pos (magnitude_bottom_pos _) (magnitude_top_pos something))

/-! ### Ranges -/

/-- How far the range of a number goes down: half the way to the number below it. -/
def gapBelow (significand : Nat) (exponent : Int) : ℚ :=
  if significand = 2 ^ 52 ∧ minExponent < exponent then 1 / 4 else 1 / 2

theorem gap_below_le (significand : Nat) (exponent : Int) : gapBelow significand exponent ≤ 1 / 2 := by
  rw [gapBelow]
  split <;> norm_num

theorem gap_below_of_odd {significand : Nat} (odd : significand % 2 = 1) (exponent : Int) :
    gapBelow significand exponent = 1 / 2 := by
  rw [gapBelow, if_neg]
  rintro ⟨rfl, -⟩
  cases odd

/-- Whether a quotient is nearer to a number than to any other. -/
structure InRange (quotient : ℚ) (significand : Nat) (exponent : Int) : Prop where
  low : (significand - gapBelow significand exponent) * 2 ^ exponent ≤ quotient
  high : quotient ≤ (significand + 1 / 2) * 2 ^ exponent
  inside : significand % 2 = 1 →
    (significand - 1 / 2) * 2 ^ exponent < quotient ∧ quotient < (significand + 1 / 2) * 2 ^ exponent

theorem rounded_quotient_of_near_value {top bottom nearest : Nat} (divides : 0 < bottom)
    (low : (nearest : ℚ) - 1 / 2 ≤ top / bottom) (high : (top : ℚ) / bottom ≤ nearest + 1 / 2)
    (inside : nearest % 2 = 1 →
      (nearest : ℚ) - 1 / 2 < top / bottom ∧ (top : ℚ) / bottom < nearest + 1 / 2) :
    roundedQuotient top bottom = nearest := by
  have divisor : (0 : ℚ) < bottom := by exact_mod_cast divides
  apply rounded_quotient_of_near divides
  · rw [le_div_iff₀ divisor] at low
    have whole : (2 * nearest * bottom : ℚ) ≤ 2 * top + bottom := by linarith
    exact_mod_cast whole
  · rw [div_le_iff₀ divisor] at high
    have whole : (2 * top : ℚ) ≤ 2 * nearest * bottom + bottom := by linarith
    exact_mod_cast whole
  · intro odd
    obtain ⟨above, below⟩ := inside odd
    rw [lt_div_iff₀ divisor] at above
    rw [div_lt_iff₀ divisor] at below
    have wholeAbove : (2 * nearest * bottom : ℚ) < 2 * top + bottom := by linarith
    have wholeBelow : (2 * top : ℚ) < 2 * nearest * bottom + bottom := by linarith
    exact ⟨by exact_mod_cast wholeAbove, by exact_mod_cast wholeBelow⟩

section

variable (negative : Bool) {numerator denominator significand : Nat} {exponent : Int}
  (divides : 0 < denominator) (positive : 0 < numerator)
  (canonical : IsCanonical significand exponent)
  (within : InRange ((numerator : ℚ) / denominator) significand exponent)

include divides positive canonical within

theorem of_ratio_with_exponent
    (fits : IsExponent ((numerator : ℚ) / denominator) exponent) :
    ofRatio negative numerator denominator = finite negative significand exponent := by
  have unit := two_zpow_pos exponent
  have rounded : roundedQuotient (scaled numerator denominator exponent).1
      (scaled numerator denominator exponent).2 = significand := by
    apply rounded_quotient_of_near_value (scaled_bottom_pos divides exponent)
    · rw [scaled_value, le_div_iff₀ unit]
      refine le_trans ?_ within.low
      have gap := gap_below_le significand exponent
      gcongr
    · rw [scaled_value, div_le_iff₀ unit]
      exact within.high
    · intro odd
      rw [scaled_value, lt_div_iff₀ unit, div_lt_iff₀ unit]
      exact within.inside odd
  rw [of_ratio_eq positive negative (exponent_of_eq divides positive fits) rounded,
    if_neg canonical.bounded.ne, if_neg (not_lt.mpr canonical.most)]

/-- A quotient that is a little smaller than a power of two has one bit more. -/
theorem of_ratio_below_power (less : (numerator : ℚ) / denominator < 2 ^ (exponent + 52))
    (large : minExponent < exponent) :
    ofRatio negative numerator denominator = finite negative significand exponent := by
  have unit := two_zpow_pos exponent
  have filled : 2 ^ 52 ≤ significand := canonical.filled.resolve_left large.ne'
  have filledValue : (2 : ℚ) ^ 52 ≤ significand := by exact_mod_cast filled
  rw [zpow_add₀ (by norm_num), mul_comm] at less
  have power : significand = 2 ^ 52 := by
    have gap := gap_below_le significand exponent
    have between := lt_of_mul_lt_mul_right (within.low.trans_lt less) unit.le
    have whole : (significand : ℚ) < 2 ^ 52 + 1 := by linarith
    have atMost : significand < 2 ^ 52 + 1 := by exact_mod_cast whole
    omega
  have near := within.low
  rw [gapBelow, if_pos ⟨power, large⟩, power] at near
  push_cast at near
  have halved : (2 : ℚ) ^ exponent = 2 * 2 ^ (exponent - 1) := by
    rw [← zpow_one_add₀ (by norm_num)]
    congr 1
    ring
  have halfUnit := two_zpow_pos (exponent - 1)
  rw [halved] at near less
  have fits : IsExponent ((numerator : ℚ) / denominator) (exponent - 1) := by
    refine ⟨by omega, ?_, .inr ?_⟩
    · rw [zpow_add₀ (by norm_num)]
      norm_num at less ⊢
      linarith
    · rw [zpow_add₀ (by norm_num)]
      norm_num at near ⊢
      linarith
  have rounded : roundedQuotient (scaled numerator denominator (exponent - 1)).1
      (scaled numerator denominator (exponent - 1)).2 = 2 ^ 53 := by
    apply rounded_quotient_of_near_value (scaled_bottom_pos divides (exponent - 1))
    · rw [scaled_value, le_div_iff₀ halfUnit]
      norm_num at near ⊢
      linarith
    · rw [scaled_value, div_le_iff₀ halfUnit]
      norm_num at less ⊢
      linarith
    · intro odd
      exact absurd odd (by decide)
  have most := canonical.most
  rw [of_ratio_eq positive negative (exponent_of_eq divides positive fits) rounded, if_pos rfl,
    if_neg (by omega), power, Int.sub_add_cancel]

end

/-- A quotient in the range of a number is rounded to that number. -/
theorem of_ratio_of_in_range (negative : Bool) {numerator denominator significand : Nat}
    {exponent : Int} (divides : 0 < denominator) (canonical : IsCanonical significand exponent)
    (something : 0 < significand)
    (within : InRange ((numerator : ℚ) / denominator) significand exponent) :
    ofRatio negative numerator denominator = finite negative significand exponent := by
  have unit := two_zpow_pos exponent
  have gap := gap_below_le significand exponent
  have positive : 0 < numerator := by
    have atLeast : (1 : ℚ) ≤ significand := by exact_mod_cast something
    have more : (0 : ℚ) < (significand - gapBelow significand exponent) * 2 ^ exponent :=
      mul_pos (by linarith) unit
    have quotient := more.trans_le within.low
    rw [div_pos_iff_of_pos_right (by exact_mod_cast divides)] at quotient
    exact_mod_cast quotient
  have below : (numerator : ℚ) / denominator < 2 ^ (exponent + 53) := by
    have whole : significand + 1 ≤ 2 ^ 53 := canonical.bounded
    have atMost : (significand : ℚ) + 1 ≤ 2 ^ 53 := by exact_mod_cast whole
    rw [zpow_add₀ (by norm_num), mul_comm]
    exact within.high.trans_lt (mul_lt_mul_of_pos_right (by linarith) unit)
  by_cases filled : exponent = minExponent ∨ (2 : ℚ) ^ (exponent + 52) ≤ numerator / denominator
  · exact of_ratio_with_exponent negative divides positive canonical within
      ⟨canonical.least, below, filled⟩
  · rw [not_or, not_le] at filled
    exact of_ratio_below_power negative divides positive canonical within filled.2
      (lt_of_le_of_ne canonical.least (Ne.symm filled.1))

/-! ### Decimals -/

theorem value_bounds {significand : Nat} {exponent : Int} (canonical : IsCanonical significand exponent)
    (something : 0 < significand) {quotient : ℚ} (within : InRange quotient significand exponent) :
    (2 : ℚ) ^ (-1075 : Int) ≤ quotient ∧ quotient < 2 ^ (1024 : Int) := by
  have gap := gap_below_le significand exponent
  have atLeast : (1 : ℚ) ≤ significand := by exact_mod_cast something
  have whole : significand + 1 ≤ 2 ^ 53 := canonical.bounded
  have atMost : (significand : ℚ) + 1 ≤ 2 ^ 53 := by exact_mod_cast whole
  constructor
  · calc
      (2 : ℚ) ^ (-1075 : Int) = 1 / 2 * 2 ^ minExponent := by
        rw [minExponent, show (-1075 : Int) = -1 + -1074 by norm_num, zpow_add₀ (by norm_num)]
        norm_num
      _ ≤ (significand - gapBelow significand exponent) * 2 ^ exponent :=
        mul_le_mul (by linarith) (two_zpow_le canonical.least) (two_zpow_pos _).le (by linarith)
      _ ≤ quotient := within.low
  · calc
      quotient ≤ (significand + 1 / 2) * 2 ^ exponent := within.high
      _ < 2 ^ 53 * 2 ^ exponent := mul_lt_mul_of_pos_right (by linarith) (two_zpow_pos exponent)
      _ ≤ 2 ^ 53 * 2 ^ maxExponent :=
        mul_le_mul_of_nonneg_left (two_zpow_le canonical.most) (by positivity)
      _ = 2 ^ (1024 : Int) := by
        rw [maxExponent, show (1024 : Int) = 53 + 971 by norm_num, zpow_add₀ (by norm_num)]
        norm_num

theorem least_power_of_ten : (10 : ℚ) ^ (-331 : Int) ≤ 2 ^ (-1075 : Int) := by
  have powers : (2 : ℚ) ^ 1075 ≤ 10 ^ 331 :=
    calc
      (2 : ℚ) ^ 1075 = (2 ^ 215) ^ 5 := pow_mul 2 215 5
      _ ≤ (10 ^ 66) ^ 5 := pow_le_pow_left₀ (by positivity) (by norm_num) 5
      _ = 10 ^ 330 := (pow_mul 10 66 5).symm
      _ ≤ 10 ^ 331 := pow_le_pow_right₀ (by norm_num) (by decide)
  rw [zpow_neg, zpow_neg]
  exact inv_anti₀ (two_zpow_pos _) powers

theorem greatest_power_of_two : (2 : ℚ) ^ (1024 : Int) ≤ 10 ^ (310 : Int) := by
  have powers : (2 : ℚ) ^ 1024 ≤ 10 ^ 310 :=
    calc
      (2 : ℚ) ^ 1024 = (2 ^ 128) ^ 8 := pow_mul 2 128 8
      _ ≤ (4 * 10 ^ 38) ^ 8 := pow_le_pow_left₀ (by positivity) (by norm_num) 8
      _ = 4 ^ 8 * (10 ^ 38) ^ 8 := mul_pow _ _ _
      _ ≤ 10 ^ 6 * (10 ^ 38) ^ 8 := by gcongr; norm_num
      _ = 10 ^ 310 := by rw [← pow_mul, ← pow_add]
  exact powers

/-- A decimal in the range of a number is read as that number. -/
theorem of_decimal_of_in_range (negative : Bool) {digits significand : Nat} {place exponent : Int}
    (canonical : IsCanonical significand exponent) (something : 0 < significand)
    (within : InRange (digits * 10 ^ place) significand exponent) :
    ofDecimal negative digits place = finite negative significand exponent := by
  obtain ⟨least, most⟩ := value_bounds canonical something within
  have power := ten_zpow_pos place
  have filled : 0 < digits := by
    have more := (two_zpow_pos _).trans_le least
    rw [mul_pos_iff_of_pos_right power] at more
    exact_mod_cast more
  obtain ⟨low, high⟩ := digit_count_bounds filled
  have notSmall : ¬((Nat.toDigits 10 digits).length : Int) + place < minMagnitude := by
    intro small
    rw [minMagnitude] at small
    have reached := mul_lt_mul_of_pos_right high power
    rw [← zpow_add₀ (by norm_num)] at reached
    have limit := ten_zpow_le (show ((Nat.toDigits 10 digits).length : Int) + place ≤ -331 by omega)
    exact absurd least (not_le.mpr (reached.trans_le (limit.trans least_power_of_ten)))
  have notLarge : ¬maxMagnitude < ((Nat.toDigits 10 digits).length : Int) + place := by
    intro large
    rw [maxMagnitude] at large
    have reached := mul_le_mul_of_nonneg_right low power.le
    rw [← zpow_add₀ (by norm_num)] at reached
    have limit := ten_zpow_le
      (show (310 : Int) ≤ ((Nat.toDigits 10 digits).length : Int) - 1 + place by omega)
    exact absurd most (not_lt.mpr (greatest_power_of_two.trans (limit.trans reached)))
  rw [ofDecimal]
  simp only [beq_iff_eq, Bool.or_eq_true, decide_eq_true_eq, filled.ne', notSmall, notLarge, or_self,
    if_false, power_of_ten_eq]
  split
  case isTrue down =>
    apply of_ratio_of_in_range negative (Nat.pow_pos (by decide)) canonical something
    rw [zpow_of_neg 10 down] at within
    rwa [Nat.cast_pow, Nat.cast_ofNat, div_eq_mul_inv]
  case isFalse up =>
    apply of_ratio_of_in_range negative Nat.one_pos canonical something
    rw [zpow_of_not_neg 10 up] at within
    rwa [Nat.cast_mul, Nat.cast_pow, Nat.cast_ofNat, Nat.cast_one, div_one]

end Binary64

end LineCensus.Numeric
