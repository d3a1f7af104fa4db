import LineCensus.Numeric.Binary64
import Mathlib

/-!
Natural numbers below 2^53 are kept as they are. Up to there no bit of a natural number is rounded away,
so that sums, differences and comparisons are those of the natural numbers themselves. A larger natural
number may be rounded, but it stays larger.
-/

namespace LineCensus.Numeric.Binary64

set_option autoImplicit false

theorem significand_bound_eq : significandBound = 2 ^ 53 := by
  rw [significandBound, Nat.one_shiftLeft]

/-! ### Common factors -/

theorem rounded_quotient_scale (numerator denominator : Nat) {factor : Nat} (positive : 0 < factor) :
    roundedQuotient (numerator * factor) (denominator * factor) =
      roundedQuotient numerator denominator := by
  have quotient : numerator * factor / (denominator * factor) = numerator / denominator :=
    Nat.mul_div_mul_right _ _ positive
  have rest : 2 * (numerator * factor % (denominator * factor)) =
      2 * (numerator % denominator) * factor := by
    rw [Nat.mul_mod_mul_right, Nat.mul_assoc]
  have larger : denominator * factor < 2 * (numerator % denominator) * factor ↔
      denominator < 2 * (numerator % denominator) := Nat.mul_lt_mul_right positive
  have half : 2 * (numerator % denominator) * factor = denominator * factor ↔
      2 * (numerator % denominator) = denominator := Nat.mul_left_inj positive.ne'
  simp only [roundedQuotient, quotient, rest, larger, beq_iff_eq, Bool.and_eq_true, half]

theorem scaled_scale (numerator denominator factor : Nat) (exponent : Int) :
    scaled (numerator * factor) (denominator * factor) exponent =
      ((scaled numerator denominator exponent).1 * factor,
        (scaled numerator denominator exponent).2 * factor) := by
  rw [scaled, scaled]
  split
  · rw [Nat.shiftLeft_eq, Nat.shiftLeft_eq, Nat.mul_right_comm]
  · rw [Nat.shiftLeft_eq, Nat.shiftLeft_eq, Nat.mul_right_comm]

theorem log_two_scale {n : Nat} (positive : 0 < n) (bits : Nat) :
    Nat.log2 (n * 2 ^ bits) = Nat.log2 n + bits := by
  rw [Nat.log2_eq_iff (Nat.mul_pos positive (Nat.two_pow_pos bits)).ne']
  constructor
  · rw [Nat.pow_add]
    exact Nat.mul_le_mul_right _ (Nat.log2_self_le positive.ne')
  · rw [Nat.add_right_comm, Nat.pow_add]
    exact Nat.mul_lt_mul_of_pos_right Nat.lt_log2_self (Nat.two_pow_pos bits)

theorem exponent_of_scale {numerator denominator : Nat} (positive : 0 < numerator)
    (divides : 0 < denominator) (bits : Nat) :
    exponentOf (numerator * 2 ^ bits) (denominator * 2 ^ bits) =
      exponentOf numerator denominator := by
  have guess : ((Nat.log2 numerator + bits : Nat) : Int) - (Nat.log2 denominator + bits : Nat) - 52 =
      (Nat.log2 numerator : Int) - (Nat.log2 denominator : Int) - 52 := by
    omega
  simp only [exponentOf, log_two_scale positive, log_two_scale divides, guess, scaled_scale,
    Nat.shiftLeft_eq, Nat.mul_right_comm _ (2 ^ bits), Nat.mul_lt_mul_right (Nat.two_pow_pos bits)]

theorem of_ratio_zero (negative : Bool) (denominator : Nat) :
    ofRatio negative 0 denominator = zero negative := by
  rw [ofRatio, if_pos (beq_self_eq_true 0)]

/-- Common bits of a numerator and a denominator leave no trace. -/
theorem of_ratio_scale (negative : Bool) (numerator : Nat) {denominator : Nat}
    (divides : 0 < denominator) (bits : Nat) :
    ofRatio negative (numerator * 2 ^ bits) (denominator * 2 ^ bits) =
      ofRatio negative numerator denominator := by
  rcases Nat.eq_zero_or_pos numerator with rfl | positive
  · rw [Nat.zero_mul, of_ratio_zero, of_ratio_zero]
  · have same : (numerator * 2 ^ bits == 0) = (numerator == 0) := by
      rw [Bool.eq_iff_iff, beq_iff_eq, beq_iff_eq, Nat.mul_eq_zero]
      exact or_iff_left (Nat.two_pow_pos bits).ne'
    simp only [ofRatio, same, exponent_of_scale positive divides, scaled_scale,
      rounded_quotient_scale _ _ (Nat.two_pow_pos bits)]

theorem of_least_units_whole (n : Int) :
    ofLeastUnits (n * 2 ^ minExponent.natAbs) = ofInt n := by
  rw [ofLeastUnits]
  generalize minExponent.natAbs = bits
  have unit : (0 : Int) < 2 ^ bits := by positivity
  have sign : decide (n * 2 ^ bits < 0) = decide (n < 0) := by
    rw [decide_eq_decide]
    exact ⟨fun below => neg_of_mul_neg_left below unit.le, fun below => mul_neg_of_neg_of_pos below unit⟩
  have size : (n * 2 ^ bits).natAbs = n.natAbs * 2 ^ bits := by
    rw [Int.natAbs_mul, Int.natAbs_pow]
    rfl
  have whole := of_ratio_scale (decide (n < 0)) n.natAbs Nat.one_pos bits
  rw [Nat.one_mul] at whole
  rw [sign, size, Nat.one_shiftLeft, ofInt, whole]

/-! ### Natural numbers -/

variable {n : Nat}

theorem rounded_quotient_one (n : Nat) : roundedQuotient n 1 = n := by
  simp [roundedQuotient, Nat.mod_one]

theorem scaled_up {exponent : Int} (numerator denominator : Nat) (up : 0 ≤ exponent) :
    scaled numerator denominator exponent = (numerator, denominator <<< exponent.toNat) := by
  rw [scaled, if_neg (not_lt.mpr up)]

theorem scaled_down {exponent : Int} (numerator : Nat) (down : exponent ≤ 0) :
    scaled numerator 1 exponent = (numerator <<< exponent.natAbs, 1) := by
  rw [scaled]
  split
  case isTrue => rfl
  case isFalse up =>
    have none : exponent = 0 := by omega
    rw [none]
    rfl

theorem exponent_of_nat (positive : 0 < n) : exponentOf n 1 = (n.log2 : Int) - 52 := by
  have fills : 2 ^ n.log2 ≤ n := Nat.log2_self_le positive.ne'
  have guess : (n.log2 : Int) - (Nat.log2 1 : Nat) - 52 = (n.log2 : Int) - 52 := by
    have none : Nat.log2 1 = 0 := by decide
    omega
  -- The guess stands, since a number has its first bit where its logarithm says.
  have enough : ¬ (scaled n 1 ((n.log2 : Int) - 52)).1 <
      (scaled n 1 ((n.log2 : Int) - 52)).2 <<< 52 := by
    rw [Nat.not_lt]
    rcases Int.le_total ((n.log2 : Int) - 52) 0 with down | up
    · have bits : n.log2 + ((n.log2 : Int) - 52).natAbs = 52 := by omega
      rw [scaled_down n down]
      change 1 <<< 52 ≤ n <<< _
      rw [Nat.one_shiftLeft, Nat.shiftLeft_eq, ← bits, Nat.pow_add]
      exact Nat.mul_le_mul_right _ fills
    · have bits : ((n.log2 : Int) - 52).toNat + 52 = n.log2 := by omega
      rw [scaled_up n 1 up]
      change 1 <<< _ <<< 52 ≤ n
      rw [Nat.one_shiftLeft, Nat.shiftLeft_eq, ← Nat.pow_add, bits]
      exact fills
  have above : minExponent ≤ (n.log2 : Int) - 52 := by
    rw [minExponent]
    omega
  simp only [exponentOf, guess, if_neg enough]
  exact max_eq_left above

theorem log_two_of_small (positive : 0 < n) (small : n < 2 ^ 53) : n.log2 ≤ 52 := by
  have fills : 2 ^ n.log2 ≤ n := Nat.log2_self_le positive.ne'
  have fewer : n.log2 < 53 := (Nat.pow_lt_pow_iff_right (by decide)).mp (fills.trans_lt small)
  exact Nat.lt_succ_iff.mp fewer

theorem of_nat_of_small (positive : 0 < n) (small : n < 2 ^ 53) :
    ofNat n = finite false (n <<< ((n.log2 : Int) - 52).natAbs) ((n.log2 : Int) - 52) := by
  have few := log_two_of_small positive small
  have down : (n.log2 : Int) - 52 ≤ 0 := by omega
  have bits : n.log2 + 1 + ((n.log2 : Int) - 52).natAbs = 53 := by omega
  have below : n <<< ((n.log2 : Int) - 52).natAbs < significandBound := by
    rw [Nat.shiftLeft_eq, significand_bound_eq, ← bits, Nat.pow_add]
    exact Nat.mul_lt_mul_of_pos_right Nat.lt_log2_self (Nat.two_pow_pos _)
  have inRange : ¬ maxExponent < (n.log2 : Int) - 52 := by
    rw [maxExponent]
    omega
  simp only [ofNat, ofRatio, beq_iff_eq, positive.ne', if_false, exponent_of_nat positive,
    scaled_down n down, rounded_quotient_one, below.ne, inRange]

/-- The value of a natural number below 2^53, in units of the smallest positive number. -/
theorem least_units_of_nat (small : n < 2 ^ 53) :
    (ofNat n).inLeastUnits = n * 2 ^ minExponent.natAbs := by
  rcases Nat.eq_zero_or_pos n with rfl | positive
  · rw [ofNat, of_ratio_zero, zero, inLeastUnits, Nat.zero_shiftLeft]
    simp
  · have few := log_two_of_small positive small
    have units : ((n.log2 : Int) - 52).natAbs + ((n.log2 : Int) - 52 - minExponent).toNat =
        minExponent.natAbs := by
      rw [minExponent]
      omega
    rw [of_nat_of_small positive small, inLeastUnits, Nat.shiftLeft_eq, Nat.shiftLeft_eq,
      Nat.mul_assoc, ← Nat.pow_add, units]
    simp only [Bool.false_eq_true, if_false]
    rw [Nat.cast_mul, Nat.cast_pow]
    rfl

theorem of_nat_finite (small : n < 2 ^ 53) : (ofNat n).isFinite = true := by
  rcases Nat.eq_zero_or_pos n with rfl | positive
  · rw [ofNat, of_ratio_zero, zero, isFinite]
  · rw [of_nat_of_small positive small, isFinite]

/-- What is not nothing becomes infinite, or its significand is the rounded quotient unless that takes
one bit too many. -/
theorem of_ratio_cases (negative : Bool) {numerator denominator top bottom : Nat} {exponent : Int}
    (positive : 0 < numerator) (chosen : exponentOf numerator denominator = exponent)
    (moved : scaled numerator denominator exponent = (top, bottom)) :
    ofRatio negative numerator denominator = infinite negative ∨
      ofRatio negative numerator denominator =
        finite negative (roundedQuotient top bottom) exponent ∨
      ofRatio negative numerator denominator =
        finite negative (significandBound / 2) (exponent + 1) := by
  have something : (numerator == 0) = false := beq_eq_false_iff_ne.mpr positive.ne'
  simp only [ofRatio, something, Bool.false_eq_true, if_false, chosen, moved, beq_iff_eq]
  by_cases full : roundedQuotient top bottom = significandBound
  · rw [if_pos full, full]
    by_cases tooLarge : maxExponent < exponent + 1
    · exact .inl (if_pos tooLarge)
    · exact .inr (.inr (if_neg tooLarge))
  · rw [if_neg full]
    by_cases tooLarge : maxExponent < exponent
    · exact .inl (if_pos tooLarge)
    · exact .inr (.inl (if_neg tooLarge))

theorem quotient_le_rounded (numerator denominator : Nat) :
    numerator / denominator ≤ roundedQuotient numerator denominator := by
  simp only [roundedQuotient]
  split
  · exact Nat.le_succ _
  · split
    · exact Nat.le_succ _
    · exact Nat.le_refl _

theorem of_nat_not_negative (n : Nat) : (ofNat n).isNegative = false := by
  rcases Nat.eq_zero_or_pos n with rfl | positive
  · rw [ofNat, of_ratio_zero, zero, isNegative]
  · rcases of_ratio_cases false positive rfl Prod.mk.eta.symm with infinite | whole | carried
    · rw [ofNat, infinite, isNegative]
    · rw [ofNat, whole, isNegative]
    · rw [ofNat, carried, isNegative]

theorem least_units_of_filled {significand : Nat} {exponent : Int} (filled : 2 ^ 52 ≤ significand)
    (up : 1 ≤ exponent) :
    2 ^ 53 * 2 ^ minExponent.natAbs ≤ (finite false significand exponent).inLeastUnits := by
  have far : minExponent.natAbs + 1 ≤ (exponent - minExponent).toNat := by
    rw [minExponent]
    omega
  have size : 2 ^ 53 * 2 ^ minExponent.natAbs ≤
      significand <<< (exponent - minExponent).toNat := by
    calc
      2 ^ 53 * 2 ^ minExponent.natAbs = 2 ^ 52 * 2 ^ (minExponent.natAbs + 1) := by
        rw [← Nat.pow_add, ← Nat.pow_add, Nat.add_comm _ 1, ← Nat.add_assoc]
      _ ≤ significand * 2 ^ (exponent - minExponent).toNat :=
        Nat.mul_le_mul filled (Nat.pow_le_pow_right Nat.two_pos far)
      _ = significand <<< (exponent - minExponent).toNat := (Nat.shiftLeft_eq _ _).symm
  have whole := Int.ofNat_le.mpr size
  rw [Nat.cast_mul, Nat.cast_pow, Nat.cast_pow, Nat.cast_ofNat] at whole
  exact whole

/-- A natural number from 2^53 on may be rounded, but it does not become smaller than that. -/
theorem of_nat_of_large (large : 2 ^ 53 ≤ n) :
    ofNat n = infinite false ∨
      (ofNat n).isFinite = true ∧ 2 ^ 53 * 2 ^ minExponent.natAbs ≤ (ofNat n).inLeastUnits := by
  have positive : 0 < n := (Nat.two_pow_pos 53).trans_le large
  have many : 53 ≤ n.log2 := (Nat.le_log2 positive.ne').mpr large
  have up : (0 : Int) ≤ (n.log2 : Int) - 52 := by omega
  have bits : 52 + ((n.log2 : Int) - 52).toNat = n.log2 := by omega
  have quotientFilled : 2 ^ 52 ≤ n / 1 <<< ((n.log2 : Int) - 52).toNat := by
    rw [Nat.one_shiftLeft, Nat.le_div_iff_mul_le (Nat.two_pow_pos _), ← Nat.pow_add, bits]
    exact Nat.log2_self_le positive.ne'
  have halfFilled : 2 ^ 52 ≤ significandBound / 2 := by
    rw [significand_bound_eq]
    decide
  -- The quotient has 53 bits already; rounding up can at most carry it to the next power of two.
  rcases of_ratio_cases false positive (exponent_of_nat positive) (scaled_up n 1 up) with
    infinite | whole | carried
  · exact .inl infinite
  · right
    rw [ofNat, whole]
    exact ⟨rfl, least_units_of_filled (quotientFilled.trans (quotient_le_rounded _ _)) (by omega)⟩
  · right
    rw [ofNat, carried]
    exact ⟨rfl, least_units_of_filled halfFilled (by omega)⟩

theorem parts_of_finite {x : Binary64} (isFinite : x.isFinite = true) :
    ∃ negative significand exponent, x = finite negative significand exponent := by
  cases x with
  | nan => cases isFinite
  | infinite => cases isFinite
  | finite negative significand exponent => exact ⟨negative, significand, exponent, rfl⟩

/-! ### Arithmetic -/

variable {a b : Nat}

/-- The sum of finite numbers that are not both negative is their exact sum rounded. -/
theorem add_finite {x y : Binary64} (firstFinite : x.isFinite = true)
    (secondFinite : y.isFinite = true) (positive : x.isNegative = false) :
    add x y = ofLeastUnits (x.inLeastUnits + y.inLeastUnits) := by
  obtain ⟨s, m, e, rfl⟩ := parts_of_finite firstFinite
  obtain ⟨t, n, f, rfl⟩ := parts_of_finite secondFinite
  rw [isNegative] at positive
  rw [add]
  split
  case isTrue none =>
    rw [beq_iff_eq] at none
    rw [none, positive, ofLeastUnits, Int.natAbs_zero, of_ratio_zero]
    rfl
  case isFalse => rfl

theorem add_of_nat (firstSmall : a < 2 ^ 53) (secondSmall : b < 2 ^ 53) :
    add (ofNat a) (ofNat b) = ofNat (a + b) := by
  have sum : (ofNat a).inLeastUnits + (ofNat b).inLeastUnits =
      ((a + b : Nat) : Int) * 2 ^ minExponent.natAbs := by
    rw [least_units_of_nat firstSmall, least_units_of_nat secondSmall, Nat.cast_add, Int.add_mul]
  rw [add_finite (of_nat_finite firstSmall) (of_nat_finite secondSmall) (of_nat_not_negative a), sum,
    of_least_units_whole]
  rfl

theorem is_finite_neg (x : Binary64) : (neg x).isFinite = x.isFinite := by
  cases x <;> rfl

theorem least_units_neg (x : Binary64) : (neg x).inLeastUnits = -x.inLeastUnits := by
  cases x with
  | nan => rfl
  | infinite => rfl
  | finite negative significand exponent => cases negative <;> simp [neg, inLeastUnits]

theorem sub_of_nat (small : a < 2 ^ 53) (le : b ≤ a) :
    sub (ofNat a) (ofNat b) = ofNat (a - b) := by
  have lessSmall : b < 2 ^ 53 := le.trans_lt small
  have difference : (ofNat a).inLeastUnits + (neg (ofNat b)).inLeastUnits =
      ((a - b : Nat) : Int) * 2 ^ minExponent.natAbs := by
    rw [least_units_neg, least_units_of_nat small, least_units_of_nat lessSmall, Nat.cast_sub le,
      Int.sub_mul, Int.sub_eq_add_neg]
  have negFinite : (neg (ofNat b)).isFinite = true := by
    rw [is_finite_neg, of_nat_finite lessSmall]
  rw [sub, add_finite (of_nat_finite small) negFinite (of_nat_not_negative a), difference,
    of_least_units_whole]
  rfl

/-! ### Order -/

theorem is_less_finite {x y : Binary64} (firstFinite : x.isFinite = true)
    (secondFinite : y.isFinite = true) :
    isLess x y = decide (x.inLeastUnits < y.inLeastUnits) := by
  obtain ⟨s, m, e, rfl⟩ := parts_of_finite firstFinite
  obtain ⟨t, n, f, rfl⟩ := parts_of_finite secondFinite
  rw [isLess, compare?, Bool.eq_iff_iff, beq_iff_eq, Option.some.injEq, compare_lt_iff_lt,
    decide_eq_true_eq]

theorem is_less_infinite {x : Binary64} (isFinite : x.isFinite = true) :
    isLess x (infinite false) = true := by
  obtain ⟨s, m, e, rfl⟩ := parts_of_finite isFinite
  rfl

/-- A natural number below 2^53 compares to any other as it should, however that is rounded. -/
theorem is_less_of_nat (small : a < 2 ^ 53) : isLess (ofNat a) (ofNat b) = decide (a < b) := by
  have unit : (0 : Int) < 2 ^ minExponent.natAbs := by positivity
  rcases Nat.lt_or_ge b (2 ^ 53) with otherSmall | large
  · rw [is_less_finite (of_nat_finite small) (of_nat_finite otherSmall), decide_eq_decide,
      least_units_of_nat small, least_units_of_nat otherSmall, mul_lt_mul_iff_left₀ unit,
      Nat.cast_lt]
  · rw [decide_eq_true (small.trans_le large)]
    rcases of_nat_of_large large with infinite | ⟨otherFinite, units⟩
    · rw [infinite, is_less_infinite (of_nat_finite small)]
    · have below : (a : Int) * 2 ^ minExponent.natAbs < 2 ^ 53 * 2 ^ minExponent.natAbs := by
        rw [mul_lt_mul_iff_left₀ unit]
        exact_mod_cast small
      rw [is_less_finite (of_nat_finite small) otherFinite, decide_eq_true_eq,
        least_units_of_nat small]
      exact below.trans_le units

/-! ### Parts -/

theorem not_negative_of_positive {x : Binary64} (isFinite : x.isFinite = true)
    (positive : isLess (zero false) x = true) : x.isNegative = false := by
  have nothing : (zero false).inLeastUnits = 0 := by decide
  rw [is_less_finite rfl isFinite, decide_eq_true_eq, nothing] at positive
  obtain ⟨negative, significand, exponent, rfl⟩ := parts_of_finite isFinite
  cases negative with
  | false => rfl
  | true =>
    rw [inLeastUnits, if_pos rfl, Int.neg_pos] at positive
    exact absurd positive (Int.natCast_nonneg _).not_gt

theorem floor_int_nonneg {x : Binary64} (unsigned : x.isNegative = false) : 0 ≤ x.floorInt := by
  rw [floorInt, unsigned]
  exact Int.fdiv_nonneg (Int.natCast_nonneg _) (Int.natCast_nonneg _)

theorem of_int_of_nonneg {k : Int} (nonneg : 0 ≤ k) : ofInt k = ofNat k.toNat := by
  obtain ⟨n, rfl⟩ := Int.eq_ofNat_of_zero_le nonneg
  rfl

end LineCensus.Numeric.Binary64
