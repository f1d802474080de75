import Mathlib.Algebra.BigOperators.Group.List.Basic
import Mathlib.Algebra.Order.BigOperators.Group.List
import Mathlib.Algebra.Order.Field.Basic
import Mathlib.Tactic.Linarith
import Mathlib.Tactic.Ring

/-!
# Taking an amount from a list of levels

A level is a price with a size. An amount is taken greedily: all of a level before the next one
is touched. Of an amount the levels give `min (total levels) amount`, and `costOf levels amount`
is what that costs.

If the prices go up from level to level, then a larger amount does not cost less on average:
`average_mono` states it without a division. The steps are the margin, which is at least as dear
as every price below it (`margin_ge`), and the induction on the levels. With prices that go down
the average goes down, which is the same fact about the opposite prices (`average_anti`).
-/

set_option autoImplicit false

namespace TradeOS.GreedyFill

section Definitions

variable {K : Type*} [Ring K]

/-- The sum of the sizes. -/
def total (levels : List (K × K)) : K := (levels.map Prod.snd).sum

/-- The levels with the opposite prices. -/
def opposite (levels : List (K × K)) : List (K × K) := levels.map fun level => (-level.1, level.2)

@[simp] theorem total_nil : total ([] : List (K × K)) = 0 := rfl

@[simp] theorem total_cons (level : K × K) (levels : List (K × K)) :
    total (level :: levels) = level.2 + total levels := by
  simp [total]

@[simp] theorem total_opposite (levels : List (K × K)) :
    total (opposite levels) = total levels := by
  simp [total, opposite, Function.comp_def]

variable [LinearOrder K]

/-- What an amount costs, as far as the levels give it. -/
def costOf : List (K × K) → K → K
  | [], _ => 0
  | (price, size) :: levels, amount =>
      min size amount * price + costOf levels (amount - min size amount)

/-- No size is negative. -/
def Sized (levels : List (K × K)) : Prop := ∀ level ∈ levels, 0 ≤ level.2

theorem costOf_cons (level : K × K) (levels : List (K × K)) (amount : K) :
    costOf (level :: levels) amount =
      min level.2 amount * level.1 + costOf levels (amount - min level.2 amount) :=
  rfl

theorem sized_cons {level : K × K} {levels : List (K × K)} :
    Sized (level :: levels) ↔ 0 ≤ level.2 ∧ Sized levels :=
  List.forall_mem_cons

theorem sized_opposite {levels : List (K × K)} : Sized (opposite levels) ↔ Sized levels :=
  List.forall_mem_map

@[simp] theorem costOf_opposite (levels : List (K × K)) (amount : K) :
    costOf (opposite levels) amount = -costOf levels amount := by
  induction levels generalizing amount with
  | nil => exact neg_zero.symm
  | cons level levels ih =>
      show min level.2 amount * -level.1 + costOf (opposite levels) (amount - min level.2 amount) =
        -costOf (level :: levels) amount
      rw [ih, costOf_cons, neg_add, mul_neg]

end Definitions

variable {K : Type*} [Field K] [LinearOrder K] [IsStrictOrderedRing K] {levels : List (K × K)}
  {x y : K}

/-! ## The amount given -/

theorem total_nonneg (sized : Sized levels) : 0 ≤ total levels := by
  refine List.sum_nonneg ?_
  intro size listed
  obtain ⟨level, member, rfl⟩ := List.mem_map.mp listed
  exact sized level member

/-- What the levels behind the first one give is what that one leaves. -/
theorem given_cons {size rest : K} (nonneg : 0 ≤ rest) (amount : K) :
    min (size + rest) amount = min size amount + min rest (amount - min size amount) := by
  rcases le_total size amount with within | beyond
  · rw [min_eq_left within, ← min_add_add_left, add_sub_cancel]
  · rw [min_eq_right beyond, sub_self, min_eq_right nonneg, add_zero]
    exact min_eq_right (beyond.trans (le_add_of_nonneg_right nonneg))

/-- Less of the first level leaves less to the others. -/
theorem left_mono (size : K) (le : x ≤ y) : x - min size x ≤ y - min size y := by
  rcases le_total size x with within | beyond
  · rw [min_eq_left within, min_eq_left (within.trans le)]
    exact sub_le_sub_right le size
  · rw [min_eq_right beyond, sub_self]
    exact sub_nonneg.mpr (min_le_right size y)

omit [IsStrictOrderedRing K] in
theorem costOf_zero (sized : Sized levels) : costOf levels 0 = 0 := by
  induction levels with
  | nil => rfl
  | cons level levels ih =>
      obtain ⟨own, others⟩ := sized_cons.mp sized
      rw [costOf_cons, min_eq_right own, zero_mul, sub_zero, zero_add, ih others]

/-! ## The average -/

/-- Above a price everything is at least as dear: so is what a larger amount takes in
addition. -/
theorem margin_ge {price : K} (sized : Sized levels) (above : ∀ level ∈ levels, price ≤ level.1)
    (nonneg : 0 ≤ x) (le : x ≤ y) :
    price * (min (total levels) y - min (total levels) x) ≤ costOf levels y - costOf levels x := by
  induction levels generalizing x y with
  | nil =>
      rw [total_nil, min_eq_left nonneg, min_eq_left (nonneg.trans le), sub_self, mul_zero]
      exact (sub_self _).ge
  | cons level levels ih =>
      obtain ⟨own, others⟩ := sized_cons.mp sized
      obtain ⟨here, later⟩ := List.forall_mem_cons.mp above
      have rest := ih others later (sub_nonneg.mpr (min_le_right level.2 x))
        (left_mono level.2 le)
      have first : price * (min level.2 y - min level.2 x) ≤
          (min level.2 y - min level.2 x) * level.1 := by
        rw [mul_comm]
        exact mul_le_mul_of_nonneg_left here (sub_nonneg.mpr (min_le_min_left level.2 le))
      rw [total_cons, given_cons (total_nonneg others), given_cons (total_nonneg others),
        costOf_cons, costOf_cons]
      linarith

/-- The cost of an amount is at least what it costs at a price below all levels. -/
theorem costOf_ge {price : K} (sized : Sized levels) (above : ∀ level ∈ levels, price ≤ level.1)
    (nonneg : 0 ≤ x) : price * min (total levels) x ≤ costOf levels x := by
  have margin := margin_ge sized above le_rfl nonneg
  rwa [costOf_zero sized, min_eq_right (total_nonneg sized), sub_zero, sub_zero] at margin

/-- **With prices that go up the average does not fall with the amount.** -/
theorem average_mono (sized : Sized levels) (ascending : levels.Pairwise fun a b => a.1 ≤ b.1)
    (nonneg : 0 ≤ x) (le : x ≤ y) :
    costOf levels x * min (total levels) y ≤ costOf levels y * min (total levels) x := by
  induction levels generalizing x y with
  | nil => exact (zero_mul _).le.trans (zero_mul _).ge
  | cons level levels ih =>
      obtain ⟨own, others⟩ := sized_cons.mp sized
      obtain ⟨above, ordered⟩ := List.pairwise_cons.mp ascending
      rcases le_total x level.2 with within | beyond
      · -- The smaller amount is taken at the price of the first level.
        have margin := margin_ge sized (List.forall_mem_cons.mpr ⟨le_rfl, above⟩) nonneg le
        have taken : min (total (level :: levels)) x = x := by
          rw [total_cons]
          exact min_eq_right (within.trans (le_add_of_nonneg_right (total_nonneg others)))
        have cost : costOf (level :: levels) x = x * level.1 := by
          rw [costOf_cons, min_eq_right within, sub_self, costOf_zero others, add_zero]
        rw [taken, cost] at margin ⊢
        have scaled := mul_le_mul_of_nonneg_left margin nonneg
        linarith
      · -- Both amounts take all of the first level.
        have rest := ih others ordered (sub_nonneg.mpr beyond) (sub_le_sub_right le level.2)
        have margin := margin_ge others above (sub_nonneg.mpr beyond)
          (sub_le_sub_right le level.2)
        have scaled := mul_le_mul_of_nonneg_left margin own
        rw [total_cons, given_cons (total_nonneg others), given_cons (total_nonneg others),
          costOf_cons, costOf_cons, min_eq_left beyond, min_eq_left (beyond.trans le)]
        linarith

/-- With prices that go down the average does not rise with the amount. -/
theorem average_anti (sized : Sized levels) (descending : levels.Pairwise fun a b => b.1 ≤ a.1)
    (nonneg : 0 ≤ x) (le : x ≤ y) :
    costOf levels y * min (total levels) x ≤ costOf levels x * min (total levels) y := by
  have ascending : (opposite levels).Pairwise fun a b => a.1 ≤ b.1 :=
    List.pairwise_map.mpr (descending.imp fun lower => neg_le_neg lower)
  have average := average_mono (sized_opposite.mpr sized) ascending nonneg le
  rw [costOf_opposite, costOf_opposite, total_opposite, neg_mul, neg_mul] at average
  exact neg_le_neg_iff.mp average

/-- The cost of an amount is at most what it costs at a price above all levels. -/
theorem costOf_le {price : K} (sized : Sized levels) (below : ∀ level ∈ levels, level.1 ≤ price)
    (nonneg : 0 ≤ x) : costOf levels x ≤ price * min (total levels) x := by
  have above : ∀ level ∈ opposite levels, -price ≤ level.1 :=
    List.forall_mem_map.mpr fun level member => neg_le_neg (below level member)
  have cost := costOf_ge (sized_opposite.mpr sized) above nonneg
  rw [costOf_opposite, total_opposite, neg_mul] at cost
  exact neg_le_neg_iff.mp cost

end TradeOS.GreedyFill
