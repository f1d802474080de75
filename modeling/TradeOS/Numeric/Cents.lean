import TradeOS.Numeric.Binary64

/-!
# Cents, as doubles

`round(x, 2)` gives the double nearest to a whole number of cents. It rounds what it gave to itself
(`roundDouble_cents`). Below `2^46` a double is off by less than half a cent, so the nearest whole
number of cents is the same again. From there on the doubles are more than a cent apart, and the
double nearest to those cents is the same again.
-/

set_option autoImplicit false

namespace TradeOS.Numeric

theorem roundTo_mono (digits : ℕ) : Monotone (roundTo digits) := by
  intro x y le
  have scaled : x * 10 ^ digits ≤ y * 10 ^ digits :=
    mul_le_mul_of_nonneg_right le (by positivity)
  have rounded : (roundHalfEven (x * 10 ^ digits) : ℚ) ≤ roundHalfEven (y * 10 ^ digits) := by
    exact_mod_cast roundHalfEven_mono scaled
  exact div_le_div_of_nonneg_right rounded (by positivity)

theorem Rounding.decimal_mono (fl : Rounding) (digits : ℕ) : Monotone (fl.decimal digits) :=
  fl.monotone.comp (roundTo_mono digits)

/-- A rounding in which a price that was rounded to cents is rounded to itself. -/
structure CentRounding extends Rounding where
  cents_cents : ∀ x, toRounding.decimal 2 (toRounding.decimal 2 x) = toRounding.decimal 2 x

/-! ## The nearest number -/

theorem roundHalfEven_eq_of_near {q : ℚ} {n : ℤ} (near : |q - n| < 1 / 2) :
    roundHalfEven q = n := by
  obtain ⟨low, high⟩ := abs_lt.mp near
  apply le_antisymm
  · exact (roundHalfEven_le_iff q n).mpr (.inl (by linarith))
  · exact (le_roundHalfEven_iff q n).mpr (.inl (by linarith))

theorem abs_roundDouble_sub_le (x : ℚ) : |roundDouble x - x| ≤ 2 ^ lastPlace x / 2 := by
  have places := two_zpow_pos (lastPlace x)
  have scaled : roundDouble x - x =
      (roundHalfEven (x / 2 ^ lastPlace x) - x / 2 ^ lastPlace x) * 2 ^ lastPlace x := by
    rw [sub_mul, div_mul_cancel₀ _ places.ne', roundDouble]
  rw [scaled, abs_mul, abs_of_pos places]
  calc _ ≤ 1 / 2 * (2 : ℚ) ^ lastPlace x :=
        mul_le_mul_of_nonneg_right (abs_roundHalfEven_sub_le _) places.le
    _ = 2 ^ lastPlace x / 2 := by ring

theorem roundDouble_eq_of_near {x : ℚ} {n : ℤ}
    (near : |x - n * 2 ^ lastPlace x| < 2 ^ lastPlace x / 2) :
    roundDouble x = n * 2 ^ lastPlace x := by
  have places := two_zpow_pos (lastPlace x)
  have scaled : x / 2 ^ lastPlace x - n = (x - n * 2 ^ lastPlace x) / 2 ^ lastPlace x := by
    rw [sub_div, mul_div_cancel_right₀ _ places.ne']
  have close : |x / 2 ^ lastPlace x - n| < 1 / 2 := by
    rw [scaled, abs_div, abs_of_pos places, div_lt_iff₀ places]
    linarith
  rw [roundDouble, roundHalfEven_eq_of_near close]

/-! ## Cents -/

theorem roundTo_neg (digits : ℕ) (x : ℚ) : roundTo digits (-x) = -roundTo digits x := by
  rw [roundTo, roundTo, neg_mul, roundHalfEven_neg, Int.cast_neg, neg_div]

/-- Where a double is off by less than half a cent. -/
theorem roundDouble_cents_of_fine (c : ℤ) (fine : lastPlace (c / 100) ≤ -7) :
    roundTo 2 (roundDouble (c / 100)) = c / 100 := by
  have place : (2 : ℚ) ^ lastPlace (c / 100) ≤ 2 ^ (-7 : ℤ) :=
    zpow_le_zpow_right₀ one_le_two fine
  have small : (2 : ℚ) ^ (-7 : ℤ) = 1 / 128 := by norm_num
  have off := abs_le.mp (abs_roundDouble_sub_le (c / 100))
  have near : |roundDouble (c / 100) * 10 ^ 2 - c| < 1 / 2 := by
    rw [abs_lt]
    constructor <;> linarith [off.1, off.2]
  rw [roundTo, roundHalfEven_eq_of_near near]
  norm_num

/-- The last place of a number from a power of two on. -/
theorem le_lastPlace {x : ℚ} {k : ℤ} (above : 2 ^ (k + 52) ≤ x) : k ≤ lastPlace x := by
  have positive : 0 < x := (two_zpow_pos _).trans_le above
  have log : k + 52 ≤ Int.log 2 |x| := by
    rw [abs_of_pos positive, ← Int.zpow_le_iff_le_log one_lt_two positive]
    exact_mod_cast above
  exact le_max_of_le_left (by omega)

theorem pow_le_of_lastPlace {x : ℚ} (positive : 0 < x) (normal : -1074 < lastPlace x) :
    2 ^ (lastPlace x + 52) ≤ x := by
  have place : lastPlace x + 52 = Int.log 2 x := by
    rw [lastPlace, abs_of_pos positive] at normal ⊢
    omega
  rw [place]
  exact_mod_cast Int.zpow_log_le_self (b := 2) one_lt_two positive

/-- Where the doubles are more than a cent apart, the double nearest to a number close to one of
them is that one. -/
theorem roundDouble_of_close {m k : ℤ} {x : ℚ} (short : m ≤ 2 ^ 53) (coarse : -6 ≤ k)
    (large : 2 ^ (46 : ℤ) ≤ x) (close : |x - m * 2 ^ k| ≤ 1 / 200) :
    roundDouble x = m * 2 ^ k := by
  have place : -6 ≤ lastPlace x := le_lastPlace (by norm_num at large ⊢; exact large)
  have positive : 0 < x := (two_zpow_pos _).trans_le large
  have least (p : ℤ) (above : -6 ≤ p) : (1 : ℚ) / 64 ≤ 2 ^ p := by
    have powers := zpow_le_zpow_right₀ (one_le_two (α := ℚ)) above
    norm_num at powers ⊢
    exact powers
  obtain ⟨n, same⟩ : ∃ n : ℤ, (m * 2 ^ k : ℚ) = n * 2 ^ lastPlace x := by
    rcases le_or_gt (lastPlace x) k with finer | coarser
    · obtain ⟨shift, rfl⟩ : ∃ shift : ℕ, k = lastPlace x + shift :=
        ⟨(k - lastPlace x).toNat, by omega⟩
      refine ⟨m * 2 ^ shift, ?_⟩
      rw [two_zpow_add]
      push_cast
      ring
    · -- The number is the power of two from which on the places are those of `x`.
      obtain ⟨shift, shifted⟩ : ∃ shift : ℕ, lastPlace x + 52 = k + shift :=
        ⟨(lastPlace x + 52 - k).toNat, by omega⟩
      have reached := pow_le_of_lastPlace positive (by omega)
      rw [shifted, two_zpow_add] at reached
      have within : ((2 ^ shift - m : ℤ) : ℚ) * 2 ^ k < 1 * 2 ^ k := by
        push_cast
        linarith [(abs_le.mp close).2, least k coarse]
      have below : 2 ^ shift - m < (1 : ℤ) := by
        exact_mod_cast lt_of_mul_lt_mul_right within (two_zpow_pos k).le
      have past : (2 : ℤ) ^ 53 ≤ 2 ^ shift := pow_le_pow_right₀ one_le_two (by omega)
      have top : m = 2 ^ shift := by omega
      refine ⟨2 ^ 52, ?_⟩
      rw [top, Int.cast_pow, Int.cast_pow, Int.cast_two, ← two_zpow_add, ← shifted]
      exact two_zpow_add (lastPlace x) 52
  have step := least _ place
  rw [same] at close ⊢
  exact roundDouble_eq_of_near (by linarith)

/-- Where the doubles are more than a cent apart, the cents nearest to a double are nearest to no
other one. -/
theorem roundDouble_cents_of_coarse {c : ℤ} (positive : 0 < c) (coarse : -6 ≤ lastPlace (c / 100)) :
    roundDouble (roundTo 2 (roundDouble (c / 100))) = roundDouble (c / 100) := by
  have cents : (0 : ℚ) < c / 100 := div_pos (by exact_mod_cast positive) (by norm_num)
  have above : (2 : ℚ) ^ (46 : ℤ) ≤ c / 100 := by
    refine le_trans (zpow_le_zpow_right₀ one_le_two ?_) (pow_le_of_lastPlace cents (by omega))
    omega
  have large : (2 : ℚ) ^ (46 : ℤ) ≤ roundTo 2 (roundDouble (c / 100)) := by
    have double := roundDouble_mono above
    have whole := roundDouble_eq_self 1 46 (by norm_num) (by norm_num)
    rw [Int.cast_one, one_mul] at whole
    rw [whole] at double
    refine le_trans ?_ (le_roundTo_of_le 2 (2 ^ 46 * 100) (le_trans ?_ double)) <;> norm_num
  have near := abs_roundTo_sub_le 2 (roundDouble (c / 100))
  rw [show roundDouble (c / 100) = roundHalfEven (c / 100 / 2 ^ lastPlace (c / 100 : ℚ)) *
    2 ^ lastPlace (c / 100 : ℚ) from rfl] at near large ⊢
  refine roundDouble_of_close ?_ coarse large (near.trans (by norm_num))
  refine roundHalfEven_le_of_le ?_
  rw [div_le_iff₀ (two_zpow_pos _)]
  have places := (abs_lt_places (c / 100 : ℚ)).le
  rw [abs_of_pos cents, zpow_add₀ two_ne_zero, mul_comm] at places
  exact_mod_cast places

theorem roundDouble_cents_of_nonneg {x : ℚ} (nonneg : 0 ≤ x) :
    roundDouble (roundTo 2 (roundDouble (roundTo 2 x))) = roundDouble (roundTo 2 x) := by
  have hundred : (10 : ℚ) ^ 2 = 100 := by norm_num
  have cents : roundTo 2 x = (roundHalfEven (x * 10 ^ 2) : ℚ) / 100 := by rw [roundTo, hundred]
  have counted : 0 ≤ roundHalfEven (x * 10 ^ 2) := by
    refine le_roundHalfEven_of_le ?_
    rw [Int.cast_zero]
    positivity
  rw [cents]
  generalize roundHalfEven (x * 10 ^ 2) = c at counted
  rcases counted.eq_or_lt with rfl | positive
  · have zero : roundTo 2 0 = 0 := by decide +kernel
    rw [Int.cast_zero, zero_div, roundDouble_zero, zero, roundDouble_zero]
  · rcases le_or_gt (lastPlace (c / 100)) (-7) with fine | coarse
    · rw [roundDouble_cents_of_fine c fine]
    · exact roundDouble_cents_of_coarse positive coarse

/-- **Cents that are rounded to a double and back are the same double.** -/
theorem roundDouble_cents (x : ℚ) :
    roundDouble (roundTo 2 (roundDouble (roundTo 2 x))) = roundDouble (roundTo 2 x) := by
  rcases le_total 0 x with nonneg | nonpos
  · exact roundDouble_cents_of_nonneg nonneg
  · have flipped := roundDouble_cents_of_nonneg (neg_nonneg.mpr nonpos)
    simp only [roundTo_neg, roundDouble_neg, neg_inj] at flipped
    exact flipped

/-- The arithmetic of doubles. -/
def binary64Cents : CentRounding := ⟨binary64, roundDouble_cents⟩

end TradeOS.Numeric
