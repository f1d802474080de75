import Mathlib.Data.Rat.Floor
import Mathlib.Algebra.Order.Field.Basic
import Mathlib.Algebra.Order.Ring.Abs
import Mathlib.Tactic.Linarith
import Mathlib.Tactic.Positivity
import Mathlib.Tactic.FieldSimp
import Mathlib.Tactic.Ring
import Mathlib.Tactic.NormNum

/-!
# Decimal rounding, half to even

Rounding of an exact rational to a number of decimal digits, with ties going to
the even neighbour. This is what the built-in `round` of Python computes when
its argument is read as an exact number.

The one fact the clients need is the distance between a number and its rounding:
at most half a unit of the last kept digit (`abs_roundTo_sub_le`).
-/

set_option autoImplicit false

namespace TradeOS.Numeric

/-- The nearest integer, with ties going to the even neighbour. -/
def roundHalfEven (q : ℚ) : ℤ :=
  let fraction := q - ⌊q⌋
  if fraction < 1 / 2 then ⌊q⌋
  else if 1 / 2 < fraction then ⌊q⌋ + 1
  else if ⌊q⌋ % 2 = 0 then ⌊q⌋
  else ⌊q⌋ + 1

/-- Rounding to `digits` decimal digits, half to even. -/
def roundTo (digits : ℕ) (q : ℚ) : ℚ :=
  (roundHalfEven (q * 10 ^ digits) : ℚ) / 10 ^ digits

/-- The nearest integer is at most one half away. -/
theorem abs_roundHalfEven_sub_le (q : ℚ) : |(roundHalfEven q : ℚ) - q| ≤ 1 / 2 := by
  have lower : (⌊q⌋ : ℚ) ≤ q := Int.floor_le q
  have upper : q < ⌊q⌋ + 1 := Int.lt_floor_add_one q
  rw [abs_le]
  simp only [roundHalfEven]
  split_ifs with below above even <;> push_cast <;> constructor <;> linarith

/-- Rounding does not pass an integer above. -/
theorem roundHalfEven_le_of_le {q : ℚ} {n : ℤ} (below : q ≤ n) : roundHalfEven q ≤ n := by
  have near := (abs_le.mp (abs_roundHalfEven_sub_le q)).2
  have close : (roundHalfEven q : ℚ) < n + 1 := by linarith
  exact Int.lt_add_one_iff.mp (by exact_mod_cast close)

/-- Rounding does not pass an integer below. -/
theorem le_roundHalfEven_of_le {q : ℚ} {n : ℤ} (above : (n : ℚ) ≤ q) : n ≤ roundHalfEven q := by
  have near := (abs_le.mp (abs_roundHalfEven_sub_le q)).1
  have close : (n : ℚ) < roundHalfEven q + 1 := by linarith
  exact Int.lt_add_one_iff.mp (by exact_mod_cast close)

/-- **Rounding moves a number by at most half a unit of the last kept digit.** -/
theorem abs_roundTo_sub_le (digits : ℕ) (q : ℚ) :
    |roundTo digits q - q| ≤ 1 / (2 * 10 ^ digits) := by
  have scale : (0 : ℚ) < 10 ^ digits := by positivity
  have split : roundTo digits q - q =
      ((roundHalfEven (q * 10 ^ digits) : ℚ) - q * 10 ^ digits) / 10 ^ digits := by
    simp only [roundTo]
    field_simp
  rw [split, abs_div, abs_of_pos scale, div_le_iff₀ scale]
  have unit : 1 / (2 * (10 : ℚ) ^ digits) * 10 ^ digits = 1 / 2 := by field_simp
  rw [unit]
  exact abs_roundHalfEven_sub_le _

/-- The upper half of the distance bound. -/
theorem roundTo_le_add (digits : ℕ) (q : ℚ) :
    roundTo digits q ≤ q + 1 / (2 * 10 ^ digits) := by
  have near := (abs_le.mp (abs_roundTo_sub_le digits q)).2
  linarith

theorem roundTo_nonneg (digits : ℕ) {q : ℚ} (nonneg : 0 ≤ q) : 0 ≤ roundTo digits q := by
  have scaled : ((0 : ℤ) : ℚ) ≤ q * 10 ^ digits := by
    rw [Int.cast_zero]
    positivity
  have rounded : (0 : ℚ) ≤ roundHalfEven (q * 10 ^ digits) := by
    exact_mod_cast le_roundHalfEven_of_le scaled
  exact div_nonneg rounded (by positivity)

/-- Rounding does not pass a number of that many digits. -/
theorem roundTo_le_of_le (digits : ℕ) {q : ℚ} (n : ℤ) (below : q ≤ n / 10 ^ digits) :
    roundTo digits q ≤ n / 10 ^ digits := by
  have scale : (0 : ℚ) < 10 ^ digits := by positivity
  have rounded : roundHalfEven (q * 10 ^ digits) ≤ n :=
    roundHalfEven_le_of_le ((le_div_iff₀ scale).mp below)
  exact div_le_div_of_nonneg_right (by exact_mod_cast rounded) scale.le

/-- Rounding does not pass a number of that many digits from above. -/
theorem le_roundTo_of_le (digits : ℕ) {q : ℚ} (n : ℤ) (above : (n : ℚ) / 10 ^ digits ≤ q) :
    (n : ℚ) / 10 ^ digits ≤ roundTo digits q := by
  have scale : (0 : ℚ) < 10 ^ digits := by positivity
  have rounded : n ≤ roundHalfEven (q * 10 ^ digits) :=
    le_roundHalfEven_of_le ((div_le_iff₀ scale).mp above)
  exact div_le_div_of_nonneg_right (by exact_mod_cast rounded) scale.le

/-- A number keeps its value exactly if it has that many digits. -/
theorem roundTo_eq_self_iff (digits : ℕ) (q : ℚ) :
    roundTo digits q = q ↔ ∃ n : ℤ, q = n / 10 ^ digits := by
  constructor
  · intro kept
    exact ⟨roundHalfEven (q * 10 ^ digits), kept.symm⟩
  · rintro ⟨n, rfl⟩
    exact le_antisymm (roundTo_le_of_le digits n le_rfl) (le_roundTo_of_le digits n le_rfl)

/-! ## Where rounding lands

A number reaches a whole number above it from the middle on, and the middle itself
goes to the even side.
-/

/-- Half of the numbers between `n - 1` and `n` go up. -/
theorem roundHalfEven_tie (n : ℤ) :
    roundHalfEven ((n : ℚ) - 1 / 2) = if n % 2 = 0 then n else n - 1 := by
  have floor : ⌊(n : ℚ) - 1 / 2⌋ = n - 1 := by
    rw [Int.floor_eq_iff]
    push_cast
    constructor <;> linarith
  have half : (n : ℚ) - 1 / 2 - ((n - 1 : ℤ) : ℚ) = 1 / 2 := by
    push_cast
    ring
  simp only [roundHalfEven]
  rw [floor, half, if_neg (lt_irrefl _), if_neg (lt_irrefl _)]
  by_cases even : n % 2 = 0
  · rw [if_pos even, if_neg (by omega), sub_add_cancel]
  · rw [if_neg even, if_pos (by omega)]

theorem le_roundHalfEven_iff (q : ℚ) (n : ℤ) :
    n ≤ roundHalfEven q ↔ (n : ℚ) - 1 / 2 < q ∨ (q = n - 1 / 2 ∧ n % 2 = 0) := by
  obtain ⟨lower, upper⟩ := abs_le.mp (abs_roundHalfEven_sub_le q)
  rcases lt_trichotomy ((n : ℚ) - 1 / 2) q with past | tie | before
  · refine iff_of_true ?_ (.inl past)
    have close : (n : ℚ) < roundHalfEven q + 1 := by linarith
    exact Int.lt_add_one_iff.mp (by exact_mod_cast close)
  · rw [← tie, roundHalfEven_tie]
    by_cases even : n % 2 = 0
    · simp [even]
    · simp [even]
  · refine iff_of_false ?_ ?_
    · intro reached
      have whole : (n : ℚ) ≤ roundHalfEven q := by exact_mod_cast reached
      linarith
    · rintro (past | ⟨tie, _⟩) <;> linarith

theorem roundHalfEven_le_iff (q : ℚ) (n : ℤ) :
    roundHalfEven q ≤ n ↔ q < (n : ℚ) + 1 / 2 ∨ (q = n + 1 / 2 ∧ n % 2 = 0) := by
  rw [← not_lt, ← Int.add_one_le_iff, le_roundHalfEven_iff, not_or, not_lt, not_and]
  push_cast
  have shift : (n : ℚ) + 1 - 1 / 2 = n + 1 / 2 := by ring
  rw [shift]
  constructor
  · rintro ⟨within, odd⟩
    rcases within.lt_or_eq with below | tie
    · exact .inl below
    · refine .inr ⟨tie, ?_⟩
      have uneven := odd tie
      omega
  · rintro (below | ⟨tie, even⟩)
    · exact ⟨below.le, fun tie => absurd tie below.ne⟩
    · refine ⟨tie.le, fun _ => ?_⟩
      omega

/-- A number is reached by rounding if the next number of that many digits above it is. -/
theorem le_roundTo_iff (digits : ℕ) (bound q : ℚ) :
    bound ≤ roundTo digits q ↔ ⌈bound * 10 ^ digits⌉ ≤ roundHalfEven (q * 10 ^ digits) := by
  rw [roundTo, Int.ceil_le, le_div_iff₀ (by positivity)]

theorem roundTo_le_iff (digits : ℕ) (bound q : ℚ) :
    roundTo digits q ≤ bound ↔ roundHalfEven (q * 10 ^ digits) ≤ ⌊bound * 10 ^ digits⌋ := by
  rw [roundTo, Int.le_floor, div_le_iff₀ (by positivity)]

/-- One half goes to zero. -/
theorem roundHalfEven_half : roundHalfEven (1 / 2) = 0 := by
  have floor : ⌊(1 / 2 : ℚ)⌋ = 0 := by
    rw [Int.floor_eq_zero_iff]
    norm_num
  norm_num [roundHalfEven, floor]

theorem roundHalfEven_pos_iff (q : ℚ) : 0 < roundHalfEven q ↔ 1 / 2 < q := by
  obtain ⟨lower, upper⟩ := abs_le.mp (abs_roundHalfEven_sub_le q)
  constructor
  · intro positive
    have one : (1 : ℚ) ≤ roundHalfEven q := by exact_mod_cast positive
    have half : 1 / 2 ≤ q := by linarith
    refine half.lt_of_ne fun tie => ?_
    rw [← tie, roundHalfEven_half] at positive
    exact lt_irrefl 0 positive
  · intro above
    have positive : (0 : ℚ) < roundHalfEven q := by linarith
    exact_mod_cast positive

/-- A number rounds to more than zero if it exceeds half a unit of the last kept digit. -/
theorem roundTo_pos_iff (digits : ℕ) (q : ℚ) :
    0 < roundTo digits q ↔ 1 / (2 * 10 ^ digits) < q := by
  have scale : (0 : ℚ) < 10 ^ digits := by positivity
  rw [roundTo, div_pos_iff_of_pos_right scale, Int.cast_pos, roundHalfEven_pos_iff,
    ← div_lt_iff₀ scale, div_div]

/-- Rounding stays in the unit interval. -/
theorem roundTo_mem_unit (digits : ℕ) {q : ℚ} (nonneg : 0 ≤ q) (small : q ≤ 1) :
    0 ≤ roundTo digits q ∧ roundTo digits q ≤ 1 := by
  refine ⟨roundTo_nonneg digits nonneg, ?_⟩
  have unit : ((10 ^ digits : ℤ) : ℚ) / 10 ^ digits = 1 := by
    rw [Int.cast_pow, Int.cast_ofNat, div_self (by positivity)]
  exact (roundTo_le_of_le digits (10 ^ digits) (unit.symm ▸ small)).trans unit.le

end TradeOS.Numeric
