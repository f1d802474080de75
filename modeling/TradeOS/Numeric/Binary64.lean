import TradeOS.Numeric.DecimalContext

/-!
# Rounded arithmetic, and doubles

An arithmetic of limited precision computes each operation exactly and then rounds the result. A
`Rounding` keeps the order and the sign, leaves one alone, and rounds a rounded number to itself.
The exact arithmetic rounds nothing (`exactRounding`). Doubles keep 53 binary digits, half to even,
and fewer below the normal numbers (`binary64`); their range has no upper end here, so that nothing
overflows.

A number of at most 53 binary digits is its own rounding (`roundDouble_eq_self`), and below a
power of two the rounding stays below it (`roundDouble_le_pow`). The laws of a rounding follow from
these two.
-/

set_option autoImplicit false

namespace TradeOS.Numeric

/-- A rounding of exact results. -/
structure Rounding where
  round : ℚ → ℚ
  monotone : Monotone round
  round_neg : ∀ x, round (-x) = -round x
  round_round : ∀ x, round (round x) = round x
  round_one : round 1 = 1

instance : CoeFun Rounding fun _ => ℚ → ℚ := ⟨Rounding.round⟩

namespace Rounding

variable (fl : Rounding)

/-- The sum of a list, from the left. -/
def sum (xs : List ℚ) : ℚ := xs.foldl (fun total x => fl (total + x)) 0

/-- The mean of a list. -/
def mean (xs : List ℚ) : ℚ := fl (fl.sum xs / xs.length)

/-- `round` to a number of decimal digits: the nearest decimal, as a number of the arithmetic. -/
def decimal (digits : ℕ) (x : ℚ) : ℚ := fl (roundTo digits x)

@[simp] theorem round_zero : fl 0 = 0 := by
  have odd := fl.round_neg 0
  rw [neg_zero] at odd
  linarith

theorem nonneg {x : ℚ} (nonneg : 0 ≤ x) : 0 ≤ fl x := by
  have kept := fl.monotone nonneg
  rwa [fl.round_zero] at kept

theorem pos_of_round_pos {x : ℚ} (rounded : 0 < fl x) : 0 < x := by
  by_contra nonpos
  have kept := fl.monotone (not_lt.mp nonpos)
  rw [fl.round_zero] at kept
  exact absurd rounded kept.not_gt

theorem le_one {x : ℚ} (small : x ≤ 1) : fl x ≤ 1 := by
  have kept := fl.monotone small
  rwa [fl.round_one] at kept

theorem mem_unit {x : ℚ} (unit : 0 ≤ x ∧ x ≤ 1) : 0 ≤ fl x ∧ fl x ≤ 1 :=
  ⟨fl.nonneg unit.1, fl.le_one unit.2⟩

theorem decimal_nonneg (digits : ℕ) {x : ℚ} (nonneg : 0 ≤ x) : 0 ≤ fl.decimal digits x :=
  fl.nonneg (roundTo_nonneg digits nonneg)

theorem decimal_mem_unit (digits : ℕ) {x : ℚ} (unit : 0 ≤ x ∧ x ≤ 1) :
    0 ≤ fl.decimal digits x ∧ fl.decimal digits x ≤ 1 :=
  fl.mem_unit (roundTo_mem_unit digits unit.1 unit.2)

end Rounding

/-- The arithmetic that rounds nothing. -/
@[reducible]
def exactRounding : Rounding where
  round x := x
  monotone := monotone_id
  round_neg _ := rfl
  round_round _ := rfl
  round_one := rfl

/-! ## Sums -/

/-- A rounded arithmetic with the sum of a list. In which order a list is added up, and whether
what is lost is made up for, is the library's. -/
structure Summation where
  fl : Rounding
  sum : List ℚ → ℚ

/-- The arithmetic that rounds nothing. -/
@[reducible]
def exactSummation : Summation := ⟨exactRounding, List.sum⟩

/-- The arithmetic that adds up a list from the left. -/
def Rounding.leftToRight (fl : Rounding) : Summation := ⟨fl, fl.sum⟩

/-- An arithmetic in which numbers of the unit interval have a sum of no more than their number. -/
structure UnitSummation extends Summation where
  unit_sum : ∀ xs : List ℚ, (∀ x ∈ xs, 0 ≤ x ∧ x ≤ 1) → 0 ≤ sum xs ∧ sum xs ≤ xs.length

/-- A mean of numbers of the unit interval is in it. -/
theorem UnitSummation.mean_mem_unit (arith : UnitSummation) (xs : List ℚ)
    (unit : ∀ x ∈ xs, 0 ≤ x ∧ x ≤ 1) :
    0 ≤ arith.fl (arith.sum xs / xs.length) ∧ arith.fl (arith.sum xs / xs.length) ≤ 1 := by
  obtain ⟨nonneg, bounded⟩ := arith.unit_sum xs unit
  exact arith.fl.mem_unit
    ⟨div_nonneg nonneg (Nat.cast_nonneg _), div_le_one_of_le₀ bounded (Nat.cast_nonneg _)⟩

theorem sum_unit_exact (xs : List ℚ) (unit : ∀ x ∈ xs, 0 ≤ x ∧ x ≤ 1) :
    0 ≤ xs.sum ∧ xs.sum ≤ xs.length := by
  have below := List.sum_le_card_nsmul xs 1 fun x member => (unit x member).2
  rw [nsmul_eq_mul, mul_one] at below
  exact ⟨List.sum_nonneg fun x member => (unit x member).1, below⟩

@[reducible]
def exactUnitSummation : UnitSummation := ⟨exactSummation, sum_unit_exact⟩

/-! ## The nearest integer -/

theorem roundHalfEven_mono {q r : ℚ} (le : q ≤ r) : roundHalfEven q ≤ roundHalfEven r := by
  rw [le_roundHalfEven_iff]
  rcases (le_roundHalfEven_iff q _).mp (Int.le_refl _) with past | ⟨tie, even⟩
  · exact .inl (past.trans_le le)
  · rw [tie] at le
    rcases lt_or_eq_of_le le with past | same
    · exact .inl past
    · exact .inr ⟨same.symm, even⟩

theorem roundHalfEven_zero : roundHalfEven 0 = 0 := by simpa using roundHalfEven_intCast 0

theorem roundHalfEven_neg (q : ℚ) : roundHalfEven (-q) = -roundHalfEven q := by
  refine eq_of_forall_ge_iff fun n => ?_
  rw [neg_le, roundHalfEven_le_iff, le_roundHalfEven_iff]
  push_cast
  have even : -n % 2 = 0 ↔ n % 2 = 0 := by omega
  refine or_congr ?_ (and_congr ?_ even.symm)
  · constructor <;> intro bound <;> linarith
  · constructor <;> intro tie <;> linarith

/-! ## Doubles -/

/-- The exponent of the last place of a number. -/
def lastPlace (x : ℚ) : ℤ := max (Int.log 2 |x| - 52) (-1074)

/-- The nearest double, half to even. -/
def roundDouble (x : ℚ) : ℚ := roundHalfEven (x / 2 ^ lastPlace x) * 2 ^ lastPlace x

theorem two_zpow_pos (k : ℤ) : (0 : ℚ) < 2 ^ k := zpow_pos two_pos k

theorem two_zpow_add (k : ℤ) (n : ℕ) : (2 : ℚ) ^ (k + n) = 2 ^ n * 2 ^ k := by
  rw [zpow_add₀ two_ne_zero, zpow_natCast, mul_comm]

@[simp] theorem roundDouble_zero : roundDouble 0 = 0 := by
  rw [roundDouble, zero_div, roundHalfEven_zero, Int.cast_zero, zero_mul]

theorem roundDouble_neg (x : ℚ) : roundDouble (-x) = -roundDouble x := by
  have same : lastPlace (-x) = lastPlace x := by rw [lastPlace, abs_neg, lastPlace]
  rw [roundDouble, same, neg_div, roundHalfEven_neg, Int.cast_neg, neg_mul, roundDouble]

/-- A number is less than 53 digits of its last place. -/
theorem abs_lt_places (x : ℚ) : |x| < 2 ^ (lastPlace x + 53) := by
  have below : |x| < (2 : ℚ) ^ (Int.log 2 |x| + 1) := by
    exact_mod_cast Int.lt_zpow_succ_log_self (b := 2) one_lt_two |x|
  refine below.trans_le (zpow_le_zpow_right₀ one_le_two ?_)
  have place := le_max_left (Int.log 2 |x| - 52) (-1074)
  rw [lastPlace]
  omega

/-- **A number of at most 53 binary digits is its own rounding.** -/
theorem roundDouble_eq_self_of_lt (m k : ℤ) (short : |m| < 2 ^ 53) (least : -1074 ≤ k) :
    roundDouble (m * 2 ^ k) = m * 2 ^ k := by
  by_cases zero : m = 0
  · rw [zero, Int.cast_zero, zero_mul, roundDouble_zero]
  have nonzero : (m * 2 ^ k : ℚ) ≠ 0 := mul_ne_zero (by exact_mod_cast zero) (two_zpow_pos k).ne'
  have low : (2 : ℚ) ^ Int.log 2 |(m * 2 ^ k : ℚ)| ≤ |(m * 2 ^ k : ℚ)| := by
    exact_mod_cast Int.zpow_log_le_self (b := 2) one_lt_two (abs_pos.mpr nonzero)
  -- The last place of the number is not above the exponent.
  have bound : Int.log 2 |(m * 2 ^ k : ℚ)| < 53 + k := by
    rw [← zpow_lt_zpow_iff_right₀ (one_lt_two (α := ℚ))]
    calc (2 : ℚ) ^ Int.log 2 |(m * 2 ^ k : ℚ)| ≤ |(m * 2 ^ k : ℚ)| := low
      _ = |(m : ℚ)| * 2 ^ k := by rw [abs_mul, abs_of_pos (two_zpow_pos k)]
      _ < 2 ^ 53 * 2 ^ k := mul_lt_mul_of_pos_right (by exact_mod_cast short) (two_zpow_pos k)
      _ = 2 ^ (53 + k) := by rw [zpow_add₀ two_ne_zero]; norm_num
  obtain ⟨shift, shifted⟩ : ∃ shift : ℕ, k = lastPlace (m * 2 ^ k) + shift := by
    refine ⟨(k - lastPlace (m * 2 ^ k)).toNat, ?_⟩
    have places : lastPlace (m * 2 ^ k) ≤ k := max_le (by omega) least
    omega
  rw [roundDouble]
  generalize lastPlace (m * 2 ^ k) = place at shifted
  have whole : (m * 2 ^ k : ℚ) = ((m * 2 ^ shift : ℤ) : ℚ) * 2 ^ place := by
    rw [shifted, two_zpow_add]
    push_cast
    ring
  rw [whole, mul_div_cancel_right₀ _ (two_zpow_pos place).ne', roundHalfEven_intCast]

theorem roundDouble_eq_self (m k : ℤ) (short : |m| ≤ 2 ^ 53) (least : -1074 ≤ k) :
    roundDouble (m * 2 ^ k) = m * 2 ^ k := by
  rcases short.lt_or_eq with less | full
  · exact roundDouble_eq_self_of_lt m k less least
  · have one : (2 : ℚ) ^ 53 * 2 ^ k = ((1 : ℤ) : ℚ) * 2 ^ (k + 53) := by
      rw [Int.cast_one, one_mul]
      exact (two_zpow_add k 53).symm
    have up : roundDouble (2 ^ 53 * 2 ^ k) = 2 ^ 53 * 2 ^ k := by
      rw [one]
      exact roundDouble_eq_self_of_lt 1 (k + 53) (by norm_num) (by omega)
    rcases (abs_eq (by positivity)).mp full with rfl | rfl
    · exact_mod_cast up
    · rw [Int.cast_neg, neg_mul, roundDouble_neg]
      exact_mod_cast congrArg Neg.neg up

theorem roundDouble_round (x : ℚ) : roundDouble (roundDouble x) = roundDouble x := by
  have bound : |x / 2 ^ lastPlace x| ≤ (2 ^ 53 : ℤ) := by
    rw [abs_div, abs_of_pos (two_zpow_pos _), div_le_iff₀ (two_zpow_pos _)]
    have places := (abs_lt_places x).le
    rwa [zpow_add₀ two_ne_zero, mul_comm] at places
  obtain ⟨low, high⟩ := abs_le.mp bound
  refine roundDouble_eq_self _ _ (abs_le.mpr ⟨?_, roundHalfEven_le_of_le high⟩) (le_max_right _ _)
  exact le_roundHalfEven_of_le (by exact_mod_cast low)

/-- **The rounding does not pass a power of two from its last place on.** -/
theorem roundDouble_le_pow {x : ℚ} {k : ℤ} (place : lastPlace x ≤ k) (below : x ≤ 2 ^ k) :
    roundDouble x ≤ 2 ^ k := by
  obtain ⟨shift, rfl⟩ : ∃ shift : ℕ, k = lastPlace x + shift :=
    ⟨(k - lastPlace x).toNat, by omega⟩
  rw [two_zpow_add] at below ⊢
  have whole : x / 2 ^ lastPlace x ≤ ((2 ^ shift : ℤ) : ℚ) := by
    rw [div_le_iff₀ (two_zpow_pos _)]
    exact_mod_cast below
  have rounded : (roundHalfEven (x / 2 ^ lastPlace x) : ℚ) ≤ 2 ^ shift := by
    exact_mod_cast roundHalfEven_le_of_le whole
  exact mul_le_mul_of_nonneg_right rounded (two_zpow_pos _).le

theorem pow_le_roundDouble {x : ℚ} {k : ℤ} (place : lastPlace x ≤ k) (above : 2 ^ k ≤ x) :
    2 ^ k ≤ roundDouble x := by
  obtain ⟨shift, rfl⟩ : ∃ shift : ℕ, k = lastPlace x + shift :=
    ⟨(k - lastPlace x).toNat, by omega⟩
  rw [two_zpow_add] at above ⊢
  have whole : ((2 ^ shift : ℤ) : ℚ) ≤ x / 2 ^ lastPlace x := by
    rw [le_div_iff₀ (two_zpow_pos _)]
    exact_mod_cast above
  have rounded : (2 ^ shift : ℚ) ≤ roundHalfEven (x / 2 ^ lastPlace x) := by
    exact_mod_cast le_roundHalfEven_of_le whole
  exact mul_le_mul_of_nonneg_right rounded (two_zpow_pos _).le

theorem roundDouble_nonneg {x : ℚ} (nonneg : 0 ≤ x) : 0 ≤ roundDouble x := by
  have whole : ((0 : ℤ) : ℚ) ≤ x / 2 ^ lastPlace x := by
    rw [Int.cast_zero]
    exact div_nonneg nonneg (two_zpow_pos _).le
  have rounded : (0 : ℚ) ≤ roundHalfEven (x / 2 ^ lastPlace x) := by
    exact_mod_cast le_roundHalfEven_of_le whole
  exact mul_nonneg rounded (two_zpow_pos _).le

/-- Numbers of one last place keep their order, and a power of two is between numbers of
different ones. -/
theorem roundDouble_le_of_pos {x y : ℚ} (positive : 0 < x) (le : x ≤ y) :
    roundDouble x ≤ roundDouble y := by
  have positive' := positive.trans_le le
  have logs : Int.log 2 x ≤ Int.log 2 y := Int.log_mono_right positive le
  rcases lt_or_ge (lastPlace x) (lastPlace y) with less | same
  · unfold lastPlace at less
    rw [abs_of_pos positive, abs_of_pos positive'] at less
    have place : lastPlace y = Int.log 2 y - 52 := by
      rw [lastPlace, abs_of_pos positive']
      omega
    have place' : lastPlace x ≤ Int.log 2 y := by
      rw [lastPlace, abs_of_pos positive]
      omega
    have below : x ≤ 2 ^ Int.log 2 y := by
      have upper : x < (2 : ℚ) ^ (Int.log 2 x + 1) := by
        exact_mod_cast Int.lt_zpow_succ_log_self (b := 2) one_lt_two x
      exact upper.le.trans (zpow_le_zpow_right₀ one_le_two (by omega))
    have above : (2 : ℚ) ^ Int.log 2 y ≤ y := by
      exact_mod_cast Int.zpow_log_le_self (b := 2) one_lt_two positive'
    exact (roundDouble_le_pow place' below).trans (pow_le_roundDouble (by omega) above)
  · have places : lastPlace x = lastPlace y := by
      refine le_antisymm ?_ same
      rw [lastPlace, lastPlace, abs_of_pos positive, abs_of_pos positive']
      omega
    rw [roundDouble, roundDouble, places]
    refine mul_le_mul_of_nonneg_right ?_ (two_zpow_pos _).le
    exact_mod_cast roundHalfEven_mono (div_le_div_of_nonneg_right le (two_zpow_pos _).le)

/-- **The rounding to doubles keeps the order.** -/
theorem roundDouble_mono : Monotone roundDouble := by
  intro x y le
  rcases lt_trichotomy 0 x with positive | zero | negative
  · exact roundDouble_le_of_pos positive le
  · rw [← zero] at le ⊢
    rw [roundDouble_zero]
    exact roundDouble_nonneg le
  · rcases lt_or_ge y 0 with below | above
    · have flipped := roundDouble_le_of_pos (neg_pos.mpr below) (neg_le_neg le)
      rw [roundDouble_neg, roundDouble_neg] at flipped
      exact neg_le_neg_iff.mp flipped
    · have flipped := roundDouble_nonneg (neg_nonneg.mpr negative.le)
      rw [roundDouble_neg] at flipped
      exact (neg_nonneg.mp flipped).trans (roundDouble_nonneg above)

theorem roundDouble_one : roundDouble 1 = 1 := by
  simpa using roundDouble_eq_self 1 0 (by norm_num) (by norm_num)

/-- The arithmetic of doubles. -/
def binary64 : Rounding where
  round := roundDouble
  monotone := roundDouble_mono
  round_neg := roundDouble_neg
  round_round := roundDouble_round
  round_one := roundDouble_one

/-- A number up to `2^53` that is added up from ones does not pass it, and there it stays. -/
theorem roundDouble_add_le {total x : ℚ} {n : ℕ} (counted : total ≤ n) (small : total ≤ 2 ^ 53)
    (unit : x ≤ 1) :
    roundDouble (total + x) ≤ (n + 1 : ℕ) ∧ roundDouble (total + x) ≤ 2 ^ 53 := by
  have whole (m : ℕ) (short : m ≤ 2 ^ 53) : roundDouble m = m := by
    have same := roundDouble_eq_self m 0 (by rw [Nat.abs_cast]; exact_mod_cast short) (by norm_num)
    simpa using same
  have next : total + x ≤ (n + 1 : ℕ) := by
    push_cast
    linarith
  rcases le_or_gt (n + 1) (2 ^ 53) with short | long
  · have rounded := roundDouble_mono next
    rw [whole _ short] at rounded
    exact ⟨rounded, rounded.trans (by exact_mod_cast short)⟩
  · have full : roundDouble (2 ^ 53 + 1) = 2 ^ 53 := by decide +kernel
    have rounded := roundDouble_mono (show total + x ≤ 2 ^ 53 + 1 by linarith)
    rw [full] at rounded
    exact ⟨rounded.trans (by exact_mod_cast long.le), rounded⟩

theorem foldl_roundDouble_le (xs : List ℚ) (unit : ∀ x ∈ xs, 0 ≤ x ∧ x ≤ 1) {total : ℚ} {n : ℕ}
    (nonneg : 0 ≤ total) (counted : total ≤ n) (small : total ≤ 2 ^ 53) :
    0 ≤ xs.foldl (fun total x => roundDouble (total + x)) total ∧
      xs.foldl (fun total x => roundDouble (total + x)) total ≤ (n + xs.length : ℕ) := by
  induction xs generalizing total n with
  | nil => exact ⟨nonneg, counted⟩
  | cons x xs ih =>
      obtain ⟨own, others⟩ := List.forall_mem_cons.mp unit
      obtain ⟨counted', small'⟩ := roundDouble_add_le counted small own.2
      have next := ih others (roundDouble_nonneg (add_nonneg nonneg own.1)) counted' small'
      rwa [add_assoc, add_comm 1] at next

theorem sum_unit_binary64 (xs : List ℚ) (unit : ∀ x ∈ xs, 0 ≤ x ∧ x ≤ 1) :
    0 ≤ binary64.sum xs ∧ binary64.sum xs ≤ xs.length := by
  have bounds := foldl_roundDouble_le xs unit (n := 0) le_rfl le_rfl (by norm_num)
  rwa [zero_add] at bounds

/-- Doubles that are added up from the left. -/
def doubles : UnitSummation := ⟨binary64.leftToRight, sum_unit_binary64⟩

end TradeOS.Numeric
