import TradeOS.Numeric.Cents

/-!
# Rounding with a relative error

A rounding is precise if it is off by a small part of the number, however small the number is
(`PreciseRounding`). What is positive then stays positive, and a few operations in a row change a
number by a small part of it.

Doubles are precise where nothing underflows. `doublesUnbounded` keeps 53 binary digits of every
number, with no lowest exponent. Scaled by a power of two, its numbers are the doubles
(`roundDigits_eq`), and so it has their laws.
-/

set_option autoImplicit false

namespace TradeOS.Numeric

/-- A rounding that is off by at most the `2^53`-th part of a number. -/
structure PreciseRounding extends Rounding where
  error : ∀ x, |round x - x| ≤ |x| / 2 ^ 53

namespace PreciseRounding

variable (arith : PreciseRounding)

/-- A rounded number is a little larger at most. -/
theorem le_mul {x : ℚ} (nonneg : 0 ≤ x) : arith.toRounding x ≤ x * (1 + 1 / 2 ^ 53) := by
  have off := (abs_le.mp (arith.error x)).2
  rw [abs_of_nonneg nonneg] at off
  calc arith.toRounding x ≤ x + x / 2 ^ 53 := by linarith
    _ = x * (1 + 1 / 2 ^ 53) := by ring

/-- A rounded number is a little smaller at most. -/
theorem mul_le {x : ℚ} (nonneg : 0 ≤ x) : x * (1 - 1 / 2 ^ 53) ≤ arith.toRounding x := by
  have off := (abs_le.mp (arith.error x)).1
  rw [abs_of_nonneg nonneg] at off
  calc x * (1 - 1 / 2 ^ 53) = x - x / 2 ^ 53 := by ring
    _ ≤ arith.toRounding x := by linarith

theorem pos {x : ℚ} (positive : 0 < x) : 0 < arith.toRounding x := by
  refine lt_of_lt_of_le ?_ (arith.mul_le positive.le)
  exact mul_pos positive (by norm_num)

theorem pos_iff {x : ℚ} : 0 < arith.toRounding x ↔ 0 < x :=
  ⟨arith.toRounding.pos_of_round_pos, arith.pos⟩

/-- Only zero is rounded to zero. -/
theorem eq_zero_iff {x : ℚ} : arith.toRounding x = 0 ↔ x = 0 := by
  constructor
  · intro zero
    have off := arith.error x
    rw [zero, zero_sub, abs_neg] at off
    have least : |x| ≤ 0 := by linarith
    exact abs_nonpos_iff.mp least
  · rintro rfl
    exact arith.toRounding.round_zero

/-- A coarse bound, for a few operations in a row. -/
theorem le_coarse {x : ℚ} (nonneg : 0 ≤ x) : arith.toRounding x ≤ x * (11 / 10) :=
  (arith.le_mul nonneg).trans (mul_le_mul_of_nonneg_left (by norm_num) nonneg)

/-- Half a cent and less is no cent. -/
theorem cents_pos_iff (x : ℚ) : 0 < arith.decimal 2 x ↔ 1 / 200 < x := by
  rw [Rounding.decimal, arith.pos_iff, roundTo_pos_iff]
  norm_num

end PreciseRounding

/-- The arithmetic that rounds nothing. -/
@[reducible]
def exactPrecise : PreciseRounding where
  toRounding := exactRounding
  error x := by
    rw [sub_self, abs_zero]
    positivity

/-! ## 53 binary digits of every number -/

/-- The nearest number of 53 binary digits, half to even. -/
def roundDigits (x : ℚ) : ℚ :=
  roundHalfEven (x / 2 ^ (Int.log 2 |x| - 52)) * 2 ^ (Int.log 2 |x| - 52)

/-- Scaling by a power of two moves the first digit. -/
theorem log_mul_two_zpow {x : ℚ} (nonzero : x ≠ 0) (k : ℤ) :
    Int.log 2 |x * 2 ^ k| = Int.log 2 |x| + k := by
  have positive := abs_pos.mpr nonzero
  have scaled : |x * 2 ^ k| = |x| * 2 ^ k := by rw [abs_mul, abs_of_pos (two_zpow_pos k)]
  have positive' : 0 < |x| * 2 ^ k := mul_pos positive (two_zpow_pos k)
  have low : (2 : ℚ) ^ Int.log 2 |x| ≤ |x| := by
    exact_mod_cast Int.zpow_log_le_self (b := 2) one_lt_two positive
  have high : |x| < (2 : ℚ) ^ (Int.log 2 |x| + 1) := by
    exact_mod_cast Int.lt_zpow_succ_log_self (b := 2) one_lt_two |x|
  rw [scaled]
  apply le_antisymm
  · rw [← Int.lt_add_one_iff, ← Int.lt_zpow_iff_log_lt one_lt_two positive', add_right_comm,
      Nat.cast_ofNat, zpow_add₀ two_ne_zero]
    exact mul_lt_mul_of_pos_right high (two_zpow_pos k)
  · rw [← Int.zpow_le_iff_le_log one_lt_two positive', Nat.cast_ofNat, zpow_add₀ two_ne_zero]
    exact mul_le_mul_of_nonneg_right low (two_zpow_pos k).le

/-- **Where nothing underflows, the numbers of 53 digits are the doubles.** -/
theorem roundDigits_eq {x : ℚ} {k : ℤ} (normal : -1022 ≤ Int.log 2 |x| + k) :
    roundDigits x = roundDouble (x * 2 ^ k) / 2 ^ k := by
  by_cases zero : x = 0
  · rw [zero, zero_mul, roundDouble_zero, zero_div, roundDigits, zero_div, roundHalfEven_zero,
      Int.cast_zero, zero_mul]
  · have place : lastPlace (x * 2 ^ k) = Int.log 2 |x| - 52 + k := by
      rw [lastPlace, log_mul_two_zpow zero]
      omega
    have kept := (two_zpow_pos k).ne'
    rw [roundDouble, place, zpow_add₀ two_ne_zero, mul_div_mul_right _ _ kept, ← mul_assoc,
      mul_div_cancel_right₀ _ kept, roundDigits]

/-- A scale in which two numbers do not underflow. -/
theorem exists_scale (x y : ℚ) : ∃ k, -1022 ≤ Int.log 2 |x| + k ∧ -1022 ≤ Int.log 2 |y| + k :=
  ⟨max (-1022 - Int.log 2 |x|) (-1022 - Int.log 2 |y|), by omega, by omega⟩

theorem roundDigits_mono : Monotone roundDigits := by
  intro x y le
  obtain ⟨k, normal, normal'⟩ := exists_scale x y
  rw [roundDigits_eq normal, roundDigits_eq normal']
  have scaled := roundDouble_mono (mul_le_mul_of_nonneg_right le (two_zpow_pos k).le)
  exact div_le_div_of_nonneg_right scaled (two_zpow_pos k).le

theorem roundDigits_neg (x : ℚ) : roundDigits (-x) = -roundDigits x := by
  rw [roundDigits, roundDigits, abs_neg, neg_div, roundHalfEven_neg, Int.cast_neg, neg_mul]

theorem roundDigits_round (x : ℚ) : roundDigits (roundDigits x) = roundDigits x := by
  obtain ⟨k, normal, normal'⟩ := exists_scale x (roundDigits x)
  rw [roundDigits_eq normal', roundDigits_eq normal, div_mul_cancel₀ _ (two_zpow_pos k).ne',
    roundDouble_round]

theorem roundDigits_one : roundDigits 1 = 1 := by
  have normal : -1022 ≤ Int.log 2 |(1 : ℚ)| + 0 := by norm_num
  rw [roundDigits_eq normal, zpow_zero, mul_one, div_one, roundDouble_one]

theorem abs_roundDigits_sub_le (x : ℚ) : |roundDigits x - x| ≤ |x| / 2 ^ 53 := by
  by_cases zero : x = 0
  · rw [zero, roundDigits, zero_div, roundHalfEven_zero]
    norm_num
  have places := two_zpow_pos (Int.log 2 |x| - 52)
  have scaled : roundDigits x - x = (roundHalfEven (x / 2 ^ (Int.log 2 |x| - 52)) -
      x / 2 ^ (Int.log 2 |x| - 52)) * 2 ^ (Int.log 2 |x| - 52) := by
    rw [sub_mul, div_mul_cancel₀ _ places.ne', roundDigits]
  have first : (2 : ℚ) ^ Int.log 2 |x| ≤ |x| := by
    exact_mod_cast Int.zpow_log_le_self (b := 2) one_lt_two (abs_pos.mpr zero)
  rw [scaled, abs_mul, abs_of_pos places]
  calc _ ≤ 1 / 2 * (2 : ℚ) ^ (Int.log 2 |x| - 52) :=
        mul_le_mul_of_nonneg_right (abs_roundHalfEven_sub_le _) places.le
    _ = 2 ^ Int.log 2 |x| / 2 ^ 53 := by
        rw [zpow_sub₀ two_ne_zero]
        norm_num
        ring
    _ ≤ |x| / 2 ^ 53 := div_le_div_of_nonneg_right first (by norm_num)

/-- Doubles without a range: 53 binary digits of every number. -/
def doublesUnbounded : PreciseRounding where
  round := roundDigits
  monotone := roundDigits_mono
  round_neg := roundDigits_neg
  round_round := roundDigits_round
  round_one := roundDigits_one
  error := abs_roundDigits_sub_le

end TradeOS.Numeric
