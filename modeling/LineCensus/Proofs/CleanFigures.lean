import LineCensus.Proofs.WholeCounts
import Mathlib

/-!
Counts of a file from figures that may be anything: fractions, negative numbers, or no numbers at all.
What is counted of a figure is the natural number next below its value, and nothing if it is not finite
and positive. Where the figures overshoot, blank lines give way to the total and comment lines to what is
left of it; so the counts always add up, and counts that add up already stay as they are.
-/

namespace LineCensus

set_option autoImplicit false

open Numeric (Binary64)

namespace Numeric.Binary64

/-! ### Values -/

def value : Binary64 → ℚ
  | finite negative significand exponent =>
    (if negative then -1 else 1) * (significand * 2 ^ exponent)
  | _ => 0

/-- The natural number next below a number, or zero if it is not finite and positive. -/
def whole (x : Binary64) : Nat := if x.isFinite then ⌊x.value⌋₊ else 0

/-- Whether a number is smaller in size than 2^53, unless it is not finite at all. -/
def IsBounded (x : Binary64) : Prop := x.isFinite = true → |x.value| < 2 ^ 53

theorem magnitude_eq (negative : Bool) (significand : Nat) (exponent : Int) :
    ((finite negative significand exponent).magnitude.1 : ℚ) /
        (finite negative significand exponent).magnitude.2 = significand * 2 ^ exponent := by
  rw [magnitude]
  split
  case isTrue down =>
    have size : exponent = -(exponent.natAbs : Int) := by omega
    conv_rhs => rw [size]
    rw [zpow_neg, zpow_natCast, Nat.one_shiftLeft, Nat.cast_pow, Nat.cast_ofNat, div_eq_mul_inv]
  case isFalse up =>
    have size : exponent = (exponent.toNat : Int) := by omega
    conv_rhs => rw [size]
    rw [zpow_natCast, Nat.shiftLeft_eq, Nat.cast_mul, Nat.cast_pow, Nat.cast_ofNat, Nat.cast_one,
      div_one]

theorem floor_int_eq {x : Binary64} (isFinite : x.isFinite = true) : x.floorInt = ⌊x.value⌋ := by
  obtain ⟨negative, significand, exponent, rfl⟩ := parts_of_finite isFinite
  have divided (top : Int) (bottom : Nat) : top.fdiv bottom = ⌊(top : ℚ) / bottom⌋ := by
    rw [Int.fdiv_eq_ediv_of_nonneg _ (Int.natCast_nonneg bottom), Rat.floor_intCast_div_natCast]
  rw [value, ← magnitude_eq negative, floorInt]
  generalize (finite negative significand exponent).magnitude = parts
  obtain ⟨top, bottom⟩ := parts
  simp only [divided, isNegative]
  cases negative with
  | true => simp [neg_div]
  | false => simp

theorem positive_iff {x : Binary64} (isFinite : x.isFinite = true) :
    isLess (zero false) x = true ↔ 0 < x.value := by
  have nothing : (zero false).inLeastUnits = 0 := by decide
  rw [is_less_finite rfl isFinite, decide_eq_true_eq, nothing]
  obtain ⟨negative, significand, exponent, rfl⟩ := parts_of_finite isFinite
  have unit : (0 : ℚ) < 2 ^ exponent := zpow_pos (by norm_num) _
  rw [value, inLeastUnits, Nat.shiftLeft_eq]
  cases negative with
  | true =>
      have size : 0 ≤ (significand : ℚ) * 2 ^ exponent := by positivity
      have shifted : (0 : Int) ≤ ((significand * 2 ^ (exponent - minExponent).toNat : Nat) : Int) :=
        Int.natCast_nonneg _
      simp only [if_true]
      constructor <;> intro above <;> linarith
  | false =>
      simp only [Bool.false_eq_true, if_false, one_mul]
      rw [mul_pos_iff_of_pos_right unit, Nat.cast_pos, Nat.cast_pos]
      exact Nat.mul_pos_iff_of_pos_right (Nat.two_pow_pos _)

theorem whole_lt {x : Binary64} (bounded : x.IsBounded) : x.whole < 2 ^ 53 := by
  rw [whole]
  split
  case isTrue isFinite =>
    apply (Nat.floor_lt' (by positivity)).mpr
    calc
      x.value ≤ |x.value| := le_abs_self _
      _ < 2 ^ 53 := bounded isFinite
      _ = ((2 ^ 53 : Nat) : ℚ) := by norm_num
  case isFalse => positivity

variable {n : Nat}

theorem value_of_nat (small : n < 2 ^ 53) : (ofNat n).value = n := by
  rcases Nat.eq_zero_or_pos n with rfl | positive
  · rw [ofNat, of_ratio_zero, zero, value, Nat.cast_zero, zero_mul, mul_zero]
  · have few := log_two_of_small positive small
    rw [of_nat_of_small positive small, value, Nat.shiftLeft_eq]
    generalize shifted : ((n.log2 : Int) - 52).natAbs = bits
    have exponent : (n.log2 : Int) - 52 = -(bits : Int) := by omega
    rw [exponent, zpow_neg, zpow_natCast, Nat.cast_mul, Nat.cast_pow, Nat.cast_ofNat,
      mul_inv_cancel_right₀ (by positivity)]
    simp

theorem whole_of_nat (small : n < 2 ^ 53) : (ofNat n).whole = n := by
  rw [whole, of_nat_finite small, if_pos rfl, value_of_nat small, Nat.floor_natCast]

end Numeric.Binary64

namespace Stats

theorem clean_number_eq (x : Binary64) : cleanNumber x = Binary64.ofNat x.whole := by
  rw [cleanNumber, Binary64.whole]
  cases isFinite : x.isFinite with
  | false => rfl
  | true =>
      simp only [Bool.true_and, if_true, Binary64.positive_iff isFinite]
      split
      case isTrue positive =>
        rw [Binary64.floor_int_eq isFinite,
          Binary64.of_int_of_nonneg (Int.floor_nonneg.mpr positive.le)]
        rfl
      case isFalse small =>
        rw [Nat.floor_of_nonpos (not_lt.mp small)]
        rfl

namespace FileStats

/-- Whether the counts of a file are natural numbers that add up, and are those of the given figures
except where there are too many of these. -/
structure Reconciles (file : FileStats Binary64) (total blank comment : Binary64) : Prop where
  natural : ∀ count ∈ [file.total, file.code, file.comment, file.blank],
    ∃ n : Nat, n < 2 ^ 53 ∧ count = Binary64.ofNat n ∧ count.value = n
  add_up : file.code.value + file.comment.value + file.blank.value = file.total.value
  /-- The sum is the total, too, as numbers are added. -/
  sum : file.code + file.comment + file.blank = file.total
  total_is : file.total.value = total.whole
  blank_le : file.blank.value ≤ blank.whole
  comment_le : file.comment.value ≤ comment.whole
  blank_cut : file.blank.value < blank.whole →
    file.blank.value = file.total.value ∧ file.code.value = 0
  comment_cut : file.comment.value < comment.whole →
    file.blank.value + file.comment.value = file.total.value ∧ file.code.value = 0

variable {path language : String} {details : Option (Details Binary64)}

theorem reconciles_of_counts {total blank comment : Binary64} {lines blankLines commentLines : Nat}
    (small : lines < 2 ^ 53) (totalIs : lines = total.whole)
    (blankIs : blankLines = min blank.whole lines)
    (commentIs : commentLines = min comment.whole (lines - blankLines)) :
    Reconciles ⟨path, language, Binary64.ofNat lines,
      Binary64.ofNat (lines - blankLines - commentLines), Binary64.ofNat commentLines,
      Binary64.ofNat blankLines, details⟩ total blank comment := by
  have value {n : Nat} (le : n ≤ lines) : (Binary64.ofNat n).value = n :=
    Binary64.value_of_nat (le.trans_lt small)
  have blankFits : blankLines ≤ lines := by omega
  have commentFits : commentLines ≤ lines := by omega
  have codeFits : lines - blankLines - commentLines ≤ lines := by omega
  have all : lines - blankLines - commentLines + commentLines + blankLines = lines := by omega
  constructor
  case natural =>
    have natural {n : Nat} (le : n ≤ lines) : ∃ m : Nat, m < 2 ^ 53 ∧
        Binary64.ofNat n = Binary64.ofNat m ∧ (Binary64.ofNat n).value = m :=
      ⟨n, le.trans_lt small, rfl, value le⟩
    intro count listed
    simp only [List.mem_cons, List.not_mem_nil, or_false] at listed
    rcases listed with rfl | rfl | rfl | rfl
    · exact natural le_rfl
    · exact natural codeFits
    · exact natural commentFits
    · exact natural blankFits
  case add_up =>
    rw [value codeFits, value commentFits, value blankFits, value le_rfl]
    exact_mod_cast all
  case sum =>
    have first := Binary64.add_of_nat (codeFits.trans_lt small) (commentFits.trans_lt small)
    have second := Binary64.add_of_nat (a := lines - blankLines - commentLines + commentLines)
      (b := blankLines) (by omega) (by omega)
    change Binary64.add (Binary64.add _ _) _ = _
    rw [first, second, all]
  case total_is => rw [value le_rfl, totalIs]
  case blank_le =>
    rw [value blankFits, Nat.cast_le]
    omega
  case comment_le =>
    rw [value commentFits, Nat.cast_le]
    omega
  case blank_cut =>
    rw [value blankFits, value le_rfl, value codeFits]
    norm_cast
    omega
  case comment_cut =>
    rw [value blankFits, value commentFits, value le_rfl, value codeFits]
    norm_cast
    omega

/-- Whatever the figures of a file are, its counts are natural numbers that add up: the total is that of
its figure, and no other count is larger than its figure or smaller for any other reason than that the
lines run out. Counts that fit together are taken over as they are, and so the counts that have been made
are made again of themselves. Of the figures only that for the total has to be below 2^53. -/
theorem figures_reconcile (path language : String) (total blank comment : Binary64)
    (details : Option (Details Binary64)) (bounded : total.IsBounded) :
    let file := ofFigures path language total blank comment details
    file.Reconciles total blank comment ∧
      (∀ lines blankLines commentLines : Nat, lines < 2 ^ 53 → blankLines + commentLines ≤ lines →
        total = Binary64.ofNat lines → blank = Binary64.ofNat blankLines →
        comment = Binary64.ofNat commentLines →
        file.total = total ∧ file.blank = blank ∧ file.comment = comment) ∧
      ofFigures path language file.total file.blank file.comment details = file := by
  have small := Binary64.whole_lt bounded
  have made := of_figures_eq path language details small (clean_number_eq total)
    (clean_number_eq blank) (clean_number_eq comment)
  refine ⟨?reconciled, ?kept, ?again⟩
  case reconciled =>
    rw [made]
    exact reconciles_of_counts small rfl rfl rfl
  case kept =>
    rintro lines blankLines commentLines below fits rfl rfl rfl
    rw [made, Binary64.whole_of_nat below, Binary64.whole_of_nat (by omega),
      Binary64.whole_of_nat (by omega), min_eq_left (by omega), min_eq_left (by omega)]
    exact ⟨rfl, rfl, rfl⟩
  case again =>
    rw [made]
    have clean {n : Nat} (le : n ≤ total.whole) : cleanNumber (Binary64.ofNat n) = Binary64.ofNat n := by
      rw [clean_number_eq, Binary64.whole_of_nat (le.trans_lt small)]
    have blankFits : min blank.whole total.whole ≤ total.whole := min_le_right _ _
    have commentFits : min comment.whole (total.whole - min blank.whole total.whole) ≤
      total.whole - min blank.whole total.whole := min_le_right _ _
    rw [of_figures_eq path language details small (clean le_rfl) (clean blankFits)
      (clean (commentFits.trans (Nat.sub_le _ _))), min_eq_left blankFits, min_eq_left commentFits]

/-- Ten and a half lines of which almost four are blank and twelve are comments, and counts that fit. -/
theorem overshooting_figures_reconciled :
    let total := Binary64.ofRatio false 21 2
    let blank := Binary64.ofRatio false 39 10
    let comment := Binary64.ofNat 12
    let file := ofFigures "a.c" "C" total blank comment none
    let fitting := ofFigures "b.c" "C" (Binary64.ofNat 5) (Binary64.ofNat 2) (Binary64.ofNat 3) none
    total.IsBounded ∧ (Binary64.ofNat 5).IsBounded ∧
      file.Reconciles total blank comment ∧
      file = ⟨"a.c", "C", Binary64.ofNat 10, Binary64.ofNat 0, Binary64.ofNat 7, Binary64.ofNat 3, none⟩ ∧
      ofFigures "a.c" "C" (Binary64.ofNat 10) (Binary64.ofNat 3) (Binary64.ofNat 7) none = file ∧
      fitting.comment = Binary64.ofNat 3 := by
  intro total blank comment file fitting
  have bounded : total.IsBounded := by
    intro _
    rw [show total = .finite false 5910974510923776 (-49) by decide, Binary64.value]
    norm_num
  have fittingBounded : (Binary64.ofNat 5).IsBounded := by
    intro _
    rw [Binary64.value_of_nat (by norm_num)]
    norm_num
  have counts : file = ⟨"a.c", "C", Binary64.ofNat 10, Binary64.ofNat 0, Binary64.ofNat 7,
    Binary64.ofNat 3, none⟩ := by decide +kernel
  obtain ⟨reconciled, -, again⟩ := figures_reconcile "a.c" "C" total blank comment none bounded
  obtain ⟨-, kept, -⟩ := figures_reconcile "b.c" "C" (Binary64.ofNat 5) (Binary64.ofNat 2)
    (Binary64.ofNat 3) none fittingBounded
  have repeated : ofFigures "a.c" "C" file.total file.blank file.comment none = file := again
  refine ⟨bounded, fittingBounded, reconciled, counts, ?_, ?_⟩
  · rw [counts] at repeated ⊢
    exact repeated
  · exact (kept 5 2 3 (by norm_num) (by norm_num) rfl rfl rfl).2.2

end FileStats

end Stats

end LineCensus
