import TradeOS.Numeric.Rounding
import Mathlib.Data.Int.Log
import Mathlib.Data.List.Infix
import Mathlib.Algebra.BigOperators.Ring.Finset
import Mathlib.Algebra.BigOperators.Ring.List
import Mathlib.Algebra.Order.BigOperators.Group.List

/-!
# Arithmetic in a decimal context

A decimal context computes each operation exactly and then rounds the result to a
number of significant digits. `Arithmetic` is that idea with the rounding left
open: `decimalContext` rounds to 28 significant digits, half to even, as Python's
`decimal` does by default, and `exactArithmetic` does not round.

A sum in such an arithmetic is the left fold of its addition. It is the exact sum
whenever the rounding leaves every running total alone
(`Arithmetic.sum_eq_of_exact`), and the context leaves every number of at most 28
digits alone (`roundSignificant_eq_self`), so totals of decimals are exact until they
outgrow it (`decimalContext_exact`).
-/

set_option autoImplicit false

namespace TradeOS.Numeric

/-- An arithmetic on the rationals: the rounding of a result, and the quantisation
to four decimal places, which can fail. -/
structure Arithmetic where
  round : ℚ → ℚ
  quantize : ℚ → Option ℚ

namespace Arithmetic

variable (arith : Arithmetic)

def add (a b : ℚ) : ℚ := arith.round (a + b)

def mul (a b : ℚ) : ℚ := arith.round (a * b)

def div (a b : ℚ) : ℚ := arith.round (a / b)

def neg (a : ℚ) : ℚ := arith.round (-a)

def abs (a : ℚ) : ℚ := arith.round |a|

/-- The sum of a list, from the left. -/
def sum (xs : List ℚ) : ℚ := xs.foldl arith.add 0

/-- Every running total of a list is left alone by the rounding. -/
def Exact (xs : List ℚ) : Prop :=
  ∀ totalled, totalled <+: xs → arith.round totalled.sum = totalled.sum

@[simp] theorem sum_append_singleton (xs : List ℚ) (x : ℚ) :
    arith.sum (xs ++ [x]) = arith.add (arith.sum xs) x := by
  simp [sum]

/-- **The sum is exact when every running total is.** -/
theorem sum_eq_of_exact {xs : List ℚ} (exact : arith.Exact xs) : arith.sum xs = xs.sum := by
  induction xs using List.reverseRecOn with
  | nil => rfl
  | append_singleton xs x ih =>
      have shorter : arith.Exact xs := fun totalled initial =>
        exact totalled (initial.trans (List.prefix_append xs [x]))
      have whole := exact (xs ++ [x]) (List.prefix_refl _)
      rw [List.sum_append, List.sum_singleton] at whole
      rw [sum_append_singleton, ih shorter, add, List.sum_append, List.sum_singleton, whole]

end Arithmetic

/-- The arithmetic without rounding. -/
def exactArithmetic : Arithmetic where
  round := id
  quantize := some

/-! ## The default context -/

/-- Rounding to a number of significant digits, half to even. -/
def roundSignificant (digits : ℕ) (q : ℚ) : ℚ :=
  if q = 0 then 0
  else
    let unit : ℚ := 10 ^ (Int.log 10 |q| + 1 - digits)
    roundHalfEven (q / unit) * unit

/-- The default context of `decimal`: 28 significant digits, half to even. A number
is quantised to four decimal places; this fails when the result has more digits
than the context. -/
def decimalContext : Arithmetic where
  round := roundSignificant 28
  quantize q :=
    let rounded := roundTo 4 q
    if |rounded| * 10 ^ 4 < 10 ^ 28 then some rounded else none

/-- Integers are their own rounding. -/
theorem roundHalfEven_intCast (n : ℤ) : roundHalfEven (n : ℚ) = n :=
  le_antisymm (roundHalfEven_le_of_le (le_refl (n : ℚ))) (le_roundHalfEven_of_le (le_refl (n : ℚ)))

/-- **A number of at most so many digits is its own rounding.** -/
theorem roundSignificant_eq_self {digits : ℕ} {q : ℚ} (m k : ℤ) (value : q = m * 10 ^ k)
    (short : |m| < 10 ^ digits) : roundSignificant digits q = q := by
  unfold roundSignificant
  split
  · rename_i zero
    exact zero.symm
  · rename_i nonzero
    have ten : (1 : ℚ) < 10 := by norm_num
    have scale : (0 : ℚ) < 10 ^ k := zpow_pos (by norm_num) k
    have low : ((10 : ℕ) : ℚ) ^ Int.log 10 |q| ≤ |q| :=
      Int.zpow_log_le_self (by norm_num) (abs_pos.mpr nonzero)
    -- The leading digit of `q` stands below position `digits + k`.
    have bound : Int.log 10 |q| < digits + k := by
      rw [← zpow_lt_zpow_iff_right₀ ten]
      calc (10 : ℚ) ^ Int.log 10 |q| ≤ |q| := by exact_mod_cast low
        _ = |(m : ℚ)| * 10 ^ k := by rw [value, abs_mul, abs_of_pos scale]
        _ < 10 ^ digits * 10 ^ k := by
            refine mul_lt_mul_of_pos_right ?_ scale
            exact_mod_cast short
        _ = (10 : ℚ) ^ ((digits : ℤ) + k) := by rw [zpow_add₀ (by norm_num), zpow_natCast]
    obtain ⟨shift, shifted⟩ : ∃ shift : ℕ, k = Int.log 10 |q| + 1 - digits + shift :=
      ⟨(k - (Int.log 10 |q| + 1 - digits)).toNat, by omega⟩
    dsimp only
    set unit : ℚ := 10 ^ (Int.log 10 |q| + 1 - digits) with unitEq
    have unitPos : 0 < unit := zpow_pos (by norm_num) _
    have multiple : q = ((m * 10 ^ shift : ℤ) : ℚ) * unit := by
      rw [value, shifted, zpow_add₀ (by norm_num), zpow_natCast, ← unitEq]
      push_cast
      ring
    rw [multiple, mul_div_cancel_right₀ _ unitPos.ne', roundHalfEven_intCast]

/-- **Totals of decimals with one last place are exact** as long as the units of that
place add up, in absolute value, to less than 28 digits. -/
theorem decimalContext_exact (units : List ℤ) (k : ℤ)
    (small : (units.map fun n => |n|).sum < 10 ^ 28) :
    decimalContext.Exact (units.map fun n : ℤ => (n : ℚ) * 10 ^ k) := by
  intro totalled initial
  obtain ⟨counted, counts, rfl⟩ := List.prefix_map_iff.mp initial
  have total : (counted.map fun n : ℤ => (n : ℚ) * 10 ^ k).sum = (counted.sum : ℤ) * 10 ^ k := by
    rw [List.sum_map_mul_right, Int.cast_list_sum]
  have short : |counted.sum| < 10 ^ 28 :=
    calc |counted.sum| ≤ (counted.map fun n => |n|).sum :=
          List.le_sum_of_subadditive _ abs_zero.le abs_add_le counted
      _ ≤ (units.map fun n => |n|).sum := by
          refine (counts.map fun n => |n|).sublist.sum_le_sum ?_
          simp
      _ < 10 ^ 28 := small
  exact roundSignificant_eq_self counted.sum k total short

end TradeOS.Numeric
