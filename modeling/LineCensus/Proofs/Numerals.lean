import LineCensus.Proofs.Shortest
import LineCensus.Report.Figures
import Mathlib

/-!
Counts in writing. The decimals that are nearer to a natural number below 2^53 than to any other number
include no natural number but itself. So its shortest decimal may leave zeros at the end to the exponent,
but these are put back, and the count is written with its decimal digits.
-/

namespace LineCensus.Numeric

set_option autoImplicit false

open Binary64 (roundedQuotient)

namespace Decimal

/-! ### Decimals of natural numbers -/

def IsNat (decimal : Decimal) (n : Nat) : Prop :=
  ∃ zeros : Nat, decimal.exponent = zeros ∧ decimal.digits * 10 ^ zeros = n

theorem trimmed_is_nat (bound digits zeros : Nat) :
    (trimmed bound digits zeros).IsNat (digits * 10 ^ zeros) := by
  induction bound generalizing digits zeros with
  | zero => exact ⟨zeros, rfl, rfl⟩
  | succ bound ih =>
      rw [trimmed]
      split
      case isTrue endsInZero =>
        simp only [bne_iff_ne, ne_eq, Bool.and_eq_true, beq_iff_eq] at endsInZero
        have moved : digits / 10 * 10 ^ (zeros + 1) = digits * 10 ^ zeros := by
          rw [Nat.pow_succ, Nat.mul_comm (10 ^ zeros), ← Nat.mul_assoc,
            Nat.div_mul_cancel (Nat.dvd_of_mod_eq_zero endsInZero.2)]
        rw [← moved]
        exact ih (digits / 10) (zeros + 1)
      case isFalse => exact ⟨zeros, rfl, rfl⟩

/-- Whether an interval lies around a natural number and holds no other one. -/
structure Interval.IsAround (interval : Interval) (n : Nat) : Prop where
  unit_wide : 4 ≤ interval.denominator
  value_eq : interval.value = n * interval.denominator
  low_lt : interval.low < interval.value
  value_le : interval.value ≤ interval.low + 2
  value_lt : interval.value < interval.high
  high_le : interval.high ≤ interval.value + 2

namespace Interval

variable {interval : Interval}

variable {n : Nat} (around : interval.IsAround n)

include around

theorem contains_iff (digits zeros : Nat) :
    interval.contains digits zeros = true ↔ digits * 10 ^ zeros = n := by
  have inside : interval.contains digits zeros = true ↔
      (if interval.closed then
        interval.low ≤ digits * 10 ^ zeros * interval.denominator ∧
          digits * 10 ^ zeros * interval.denominator ≤ interval.high
      else interval.low < digits * 10 ^ zeros * interval.denominator ∧
          digits * 10 ^ zeros * interval.denominator < interval.high) := by
    rw [contains, if_neg (by omega), Int.toNat_natCast, power_of_ten_eq]
    cases interval.closed <;> simp
  obtain ⟨wide, value, lowLess, lowNear, highMore, highNear⟩ := around
  rw [inside]
  rcases Nat.lt_trichotomy (digits * 10 ^ zeros) n with less | same | more
  · have apart := Nat.mul_le_mul_right interval.denominator (Nat.succ_le_of_lt less)
    rw [Nat.succ_mul] at apart
    split <;> omega
  · rw [same, ← value]
    split <;> omega
  · have apart := Nat.mul_le_mul_right interval.denominator (Nat.succ_le_of_lt more)
    rw [Nat.succ_mul] at apart
    split <;> omega

theorem on_grid_of_units : interval.onGrid (0 : Nat) = some n := by
  have wide := around.unit_wide
  have quotient : roundedQuotient interval.value (interval.denominator * powerOfTen 0) = n := by
    rw [powerOfTen, Nat.mul_one, around.value_eq]
    have scaled := Binary64.rounded_quotient_scale n 1 (Nat.lt_of_lt_of_le (by decide) wide)
    rwa [Nat.one_mul, Binary64.rounded_quotient_one] at scaled
  have isInside : interval.contains n (0 : Nat) = true :=
    (contains_iff around n 0).mpr (Nat.mul_one n)
  simp only [onGrid, Int.natCast_zero, Int.lt_irrefl, if_false, Int.toNat_zero, quotient]
  exact if_pos isInside

end Interval

/-- The first decimal that fits is the number itself, if the digits of the number are reached. -/
theorem shortest_from_is_nat {interval : Interval} {n : Nat} (around : interval.IsAround n)
    (size bound length : Nat) (within : length ≤ size) (reached : size < length + bound) :
    (shortestFrom interval size bound length).IsNat n := by
  induction bound generalizing length with
  | zero => exact absurd reached (by omega)
  | succ bound ih =>
      have exponent : (size : Int) - length = (size - length : Nat) := by omega
      rw [shortestFrom]
      simp only [exponent]
      split
      case h_1 digits found =>
        have value := (Interval.contains_iff around _ _).mp (Interval.contains_of_on_grid found)
        rw [← value]
        exact trimmed_is_nat _ _ _
      case h_2 none =>
        apply ih
        · apply Nat.succ_le_of_lt (Nat.lt_of_le_of_ne within _)
          rintro rfl
          rw [Nat.sub_self, Interval.on_grid_of_units around] at none
          cases none
        · omega

variable {n : Nat}

/-- The interval of a natural number that has been scaled by a power of two. -/
theorem interval_is_around (positive : 0 < n) {exponent : Int} (down : exponent ≤ 0) :
    (Interval.of (n <<< exponent.natAbs) exponent).IsAround n := by
  have scale : (if exponent < 0 then (1, 1 <<< exponent.natAbs) else (1 <<< exponent.toNat, 1)) =
      (1, 2 ^ exponent.natAbs) := by
    split
    case isTrue => rw [Nat.one_shiftLeft]
    case isFalse up =>
      have none : exponent = 0 := by omega
      rw [none]
      rfl
  have unit := Nat.two_pow_pos exponent.natAbs
  have large := Nat.mul_le_mul_right (2 ^ exponent.natAbs) (Nat.succ_le_of_lt positive)
  have value : n * (4 * 2 ^ exponent.natAbs) = 4 * (n * 2 ^ exponent.natAbs) := Nat.mul_left_comm _ _ _
  rw [Interval.of, scale, Nat.shiftLeft_eq]
  dsimp only
  split
  case isTrue narrow => constructor <;> dsimp only <;> omega
  case isFalse wide => constructor <;> dsimp only <;> omega

theorem magnitude_of_multiple (positive : 0 < n) {unit : Nat} (wide : 0 < unit) :
    magnitude (n * unit) unit zeroBound = (text n).length := by
  have large := Nat.mul_le_mul_right unit (Nat.succ_le_of_lt positive)
  rw [Nat.one_mul] at large
  rw [zeroBound, magnitude, if_pos large, Nat.mul_div_cancel _ wide]

theorem length_text_of_small (small : n < 2 ^ 53) : (text n).length ≤ 16 :=
  (Nat.length_toDigits_le_iff (by decide) (by decide)).mpr (small.trans (by decide))

theorem shortest_of_nat (positive : 0 < n) (small : n < 2 ^ 53) :
    (shortest (Binary64.ofNat n)).IsNat n := by
  have few := Binary64.log_two_of_small positive small
  have down : (n.log2 : Int) - 52 ≤ 0 := by omega
  have around := interval_is_around positive down
  have wide := around.unit_wide
  have digits := length_text_of_small small
  have someDigit : 1 ≤ (text n).length := Nat.length_toDigits_pos
  rw [Binary64.of_nat_of_small positive small, shortest,
    if_neg (by simpa using positive.ne')]
  simp only [around.value_eq, magnitude_of_multiple positive (Nat.lt_of_lt_of_le (by decide) wide)]
  apply shortest_from_is_nat around _ _ _ someDigit
  rw [maxDigits]
  omega

/-! ### Digits -/

theorem text_times_ten (positive : 0 < n) : text (n * 10) = text n ++ ['0'] := by
  have appended := Nat.toDigits_append_toDigits (b := 10) (by decide) positive (by decide : 0 < 10)
  rw [Nat.add_zero, Nat.mul_comm] at appended
  exact appended.symm

theorem text_with_zeros (positive : 0 < n) (count : Nat) :
    text (n * 10 ^ count) = text n ++ zeros count := by
  induction count with
  | zero => simp [zeros]
  | succ count ih =>
      rw [Nat.pow_succ, ← Nat.mul_assoc, text_times_ten (Nat.mul_pos positive (Nat.pow_pos (by decide))),
        ih, List.append_assoc, zeros, zeros, List.replicate_succ']

end Decimal

open Decimal (text)

theorem positional_of_zeros {digits : List Char} (filled : 0 < digits.length) (count : Nat) :
    positional digits ((digits.length : Int) + count) = digits ++ zeros count := by
  have whole : ((digits.length : Int) + count).toNat = digits.length + count := by omega
  rw [positional, if_neg (by omega), whole]
  simp

/-- A natural number is written with its decimal digits. -/
theorem render_of_nat {n : Nat} (small : n < 2 ^ 53) : render (Binary64.ofNat n) = toString n := by
  rcases Nat.eq_zero_or_pos n with rfl | positive
  · rfl
  · obtain ⟨count, exponent, value⟩ := Decimal.shortest_of_nat positive small
    rw [Binary64.of_nat_of_small positive small] at exponent value ⊢
    rw [render, if_neg (by simpa using positive.ne')]
    generalize Decimal.shortest _ = decimal at exponent value ⊢
    have someDigits : 0 < decimal.digits := by
      apply Nat.pos_of_ne_zero
      intro none
      rw [none, Nat.zero_mul] at value
      exact positive.ne value
    have digits := Decimal.text_with_zeros someDigits count
    have fits := Decimal.length_text_of_small small
    rw [← value, digits, List.length_append, zeros, List.length_replicate] at fits
    have filled : 0 < (text decimal.digits).length := Nat.length_toDigits_pos
    have inFull : -positionalZeros ≤ (text decimal.digits).length + decimal.exponent ∧
        (text decimal.digits).length + decimal.exponent ≤ positionalDigits := by
      rw [exponent, positionalZeros, positionalDigits]
      omega
    simp only [if_pos inFull]
    rw [exponent, positional_of_zeros filled, ← digits, value, Nat.toString_eq_ofList_toDigits]
    rfl

end LineCensus.Numeric

namespace LineCensus.Report

open Numeric

/-- A count is written with its decimal digits. -/
theorem bare_of_small {n : Nat} (small : n < 2 ^ 53) : bare n = toString n := render_of_nat small

end LineCensus.Report
