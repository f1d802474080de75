import TradeOS.Data.Ranking
import Mathlib.Algebra.BigOperators.Ring.List
import Mathlib.Algebra.Order.Field.Basic

/-!
# Rank weights

A strategy signal turns alphas into weights by their average ranks: the distance of a rank from the
middle of all places, divided by the sum of all distances. Each distance is the lead of its alpha,
so the weights are the leads divided by their total size (`rankWeights_eq`), and the laws of the
leads are laws of the weights: `rankWeights_neutral`.

The total is at least one for any number of assets, if not all alphas are the same, so that the
branch for a vanishing total is never taken.
-/

set_option autoImplicit false

namespace TradeOS.Research

open Ranking

/-- `_rank_weights`, for alphas that are numbers. -/
def rankWeights (alpha : List ℚ) : List ℚ :=
  if alpha = [] then []
  else
    let ranks := alpha.map (averageRank alpha)
    let n : ℚ := ranks.length
    if n ≤ 1 then alpha.map fun _ => 1 / n
    else
      let spread := ranks.map fun rank => (rank - (n + 1) / 2) / ((n - 1) / 2)
      let absSum := (spread.map abs).sum
      if absSum < 1 / 10 ^ 10 then alpha.map fun _ => 1 / n
      else spread.map fun s => s / absSum

/-- The weight of a value: its lead, divided by the sizes of all leads. -/
def leadShare (alpha : List ℚ) (a : ℚ) : ℚ :=
  lead alpha a / (alpha.map fun b => |lead alpha b|).sum

section Distinct

variable {alpha : List ℚ} {a b : ℚ}

theorem one_lt_length (first : a ∈ alpha) (second : b ∈ alpha) (differ : a ≠ b) :
    1 < alpha.length := by
  match alpha, first, second with
  | [c], first, second =>
      exact absurd ((List.mem_singleton.mp first).trans (List.mem_singleton.mp second).symm) differ
  | _ :: _ :: _, _, _ => simp

/-- The distances of the ranks from the middle are the leads. -/
theorem spread_eq (alpha : List ℚ) (x : ℚ) :
    (averageRank alpha x - (alpha.length + 1) / 2) / ((alpha.length - 1) / 2) =
      lead alpha x / (alpha.length - 1) := by
  rw [averageRank_sub_middle, div_div_div_cancel_right₀ two_ne_zero]

/-- The weights are the leads, divided by their total size. -/
theorem rankWeights_eq (first : a ∈ alpha) (second : b ∈ alpha) (differ : a ≠ b) :
    rankWeights alpha = alpha.map (leadShare alpha) := by
  have several : (1 : ℚ) < alpha.length := by exact_mod_cast one_lt_length first second differ
  have others : (0 : ℚ) < alpha.length - 1 := by linarith
  have bound := le_sum_abs_lead first second differ
  have total : (alpha.map fun x => |lead alpha x / (alpha.length - 1)|).sum =
      (alpha.map fun x => |lead alpha x|).sum / (alpha.length - 1) := by
    rw [div_eq_mul_inv, ← List.sum_map_mul_right]
    refine congrArg List.sum (List.map_congr_left fun x _ => ?_)
    rw [abs_div, abs_of_pos others, div_eq_mul_inv]
  have large : 1 ≤ (alpha.map fun x => |lead alpha x|).sum / (alpha.length - 1) :=
    (one_le_div others).mpr bound
  have nonempty : alpha ≠ [] := List.ne_nil_of_mem first
  simp only [rankWeights, if_neg nonempty, List.length_map, if_neg several.not_ge, List.map_map,
    Function.comp_def, spread_eq, total]
  rw [if_neg (by linarith)]
  refine List.map_congr_left fun x _ => ?_
  rw [leadShare, div_div_div_cancel_right₀ others.ne']

/-- The weights of a portfolio without a net position, of size one in all, that follow the
alphas. -/
structure RankNeutral (alpha weights : List ℚ) : Prop where
  neutral : weights.sum = 0
  unit : (weights.map abs).sum = 1
  ordered : ∃ weight : ℚ → ℚ, weights = alpha.map weight ∧
    ∀ a ∈ alpha, ∀ b ∈ alpha, a ≤ b → weight a ≤ weight b

/-- **Of alphas that are not all the same, the rank weights are a neutral portfolio of size one
that follows the alphas, and those of the negated alphas are the negated ones.** -/
theorem rankWeights_neutral (alpha : List ℚ) (a b : ℚ) (first : a ∈ alpha) (second : b ∈ alpha)
    (differ : a ≠ b) :
    RankNeutral alpha (rankWeights alpha) ∧
      rankWeights (alpha.map fun x => -x) = (rankWeights alpha).map fun w => -w := by
  have weights := rankWeights_eq first second differ
  have several : (1 : ℚ) < alpha.length := by exact_mod_cast one_lt_length first second differ
  have positive : 0 < (alpha.map fun x => |lead alpha x|).sum :=
    lt_of_lt_of_le (by linarith) (le_sum_abs_lead first second differ)
  refine ⟨⟨?_, ?_, leadShare alpha, weights, fun x _ y _ le => ?_⟩, ?_⟩
  · have shares : leadShare alpha = fun x => lead alpha x *
        ((alpha.map fun b => |lead alpha b|).sum)⁻¹ := by
      funext x
      exact div_eq_mul_inv _ _
    rw [weights, shares, List.sum_map_mul_right, sum_lead, zero_mul]
  · have sizes : (fun x => |leadShare alpha x|) = fun x => |lead alpha x| *
        ((alpha.map fun b => |lead alpha b|).sum)⁻¹ := by
      funext x
      rw [leadShare, abs_div, abs_of_pos positive, div_eq_mul_inv]
    rw [weights, List.map_map]
    show (alpha.map fun x => |leadShare alpha x|).sum = 1
    rw [sizes, List.sum_map_mul_right, mul_inv_cancel₀ positive.ne']
  · exact div_le_div_of_nonneg_right (lead_mono alpha le) positive.le
  · have negated (x : ℚ) : lead (alpha.map fun x => -x) (-x) = -lead alpha x :=
      lead_map_antitone (fun _ _ lower => neg_lt_neg lower) alpha x
    have mirrored := rankWeights_eq (List.mem_map_of_mem (f := fun x => -x) first)
      (List.mem_map_of_mem second) (neg_injective.ne differ)
    rw [mirrored, weights, List.map_map, List.map_map]
    refine List.map_congr_left fun x _ => ?_
    simp only [Function.comp_apply, leadShare, List.map_map, Function.comp_def, negated, abs_neg,
      neg_div]

theorem rankWeights_neutral_tied :
    RankNeutral [3, 1, 3, 2] (rankWeights [3, 1, 3, 2]) ∧
      rankWeights ([3, 1, 3, 2].map fun x => -x) = (rankWeights [3, 1, 3, 2]).map fun w => -w :=
  rankWeights_neutral [3, 1, 3, 2] 3 1 (by simp) (by simp) (by norm_num)

end Distinct

end TradeOS.Research
