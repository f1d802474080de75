import Mathlib.Algebra.BigOperators.Group.List.Basic
import Mathlib.Algebra.BigOperators.Ring.List
import Mathlib.Data.Rat.Lemmas
import Mathlib.Tactic.Ring

/-!
# Correlation

The correlation of two series of numbers, read from the list of their pairs. It is undefined where
one of the series is constant.

It does not depend on which series comes first (`pearson_symmetric`), and it changes sign with the
first series (`pearson_odd`). What is proved from these laws holds of every correlation that has
them (`Symmetric`, `Odd`).
-/

set_option autoImplicit false

namespace TradeOS.Numeric.Correlation

/-- A correlation does not depend on which series comes first. -/
def Symmetric (corr : List (ℚ × ℚ) → Option ℚ) : Prop :=
  ∀ pairs, corr (pairs.map Prod.swap) = corr pairs

/-- The pairs with the first series negated. -/
def negated (pairs : List (ℚ × ℚ)) : List (ℚ × ℚ) := pairs.map fun p => (-p.1, p.2)

/-- A correlation changes sign with the first series. -/
def Odd (corr : List (ℚ × ℚ) → Option ℚ) : Prop :=
  ∀ pairs, corr (negated pairs) = (corr pairs).map fun r => -r

/-! ## Pearson's correlation -/

def mean (xs : List ℚ) : ℚ := xs.sum / xs.length

/-- The sum of the products of the distances from the means. -/
def covariation (xs ys : List ℚ) : ℚ :=
  (List.zipWith (fun x y => (x - mean xs) * (y - mean ys)) xs ys).sum

/-- The covariation divided by the root of the product of both variations. -/
def pearson (sqrt : ℚ → ℚ) (pairs : List (ℚ × ℚ)) : Option ℚ :=
  let xs := pairs.map Prod.fst
  let ys := pairs.map Prod.snd
  if covariation xs xs * covariation ys ys = 0 then none
  else some (covariation xs ys / sqrt (covariation xs xs * covariation ys ys))

theorem covariation_comm (xs ys : List ℚ) : covariation xs ys = covariation ys xs := by
  rw [covariation, List.zipWith_comm]
  simp only [covariation, mul_comm]

theorem mean_map_neg (xs : List ℚ) : mean (xs.map fun x => -x) = -mean xs := by
  rw [mean, mean, ← List.sum_neg, List.length_map, neg_div]

theorem covariation_map_neg (xs ys : List ℚ) :
    covariation (xs.map fun x => -x) ys = -covariation xs ys := by
  have product (x y : ℚ) : (-x - -mean xs) * (y - mean ys) =
      -((x - mean xs) * (y - mean ys)) := by ring
  rw [covariation, mean_map_neg, List.zipWith_map_left]
  simp only [product]
  rw [covariation, List.sum_neg, List.map_zipWith]

theorem pearson_symmetric (sqrt : ℚ → ℚ) : Symmetric (pearson sqrt) := by
  intro pairs
  have first : (pairs.map Prod.swap).map Prod.fst = pairs.map Prod.snd := by
    rw [List.map_map]
    rfl
  have second : (pairs.map Prod.swap).map Prod.snd = pairs.map Prod.fst := by
    rw [List.map_map]
    rfl
  rw [pearson, first, second, pearson, mul_comm,
    covariation_comm (pairs.map Prod.snd) (pairs.map Prod.fst)]

theorem pearson_odd (sqrt : ℚ → ℚ) : Odd (pearson sqrt) := by
  intro pairs
  have first : (negated pairs).map Prod.fst = (pairs.map Prod.fst).map fun x => -x := by
    rw [negated, List.map_map, List.map_map]
    rfl
  have second : (negated pairs).map Prod.snd = pairs.map Prod.snd := by
    rw [negated, List.map_map]
    rfl
  have variation (xs : List ℚ) :
      covariation (xs.map fun x => -x) (xs.map fun x => -x) = covariation xs xs := by
    rw [covariation_map_neg, covariation_comm, covariation_map_neg, neg_neg]
  rw [pearson, first, second, pearson, variation, covariation_map_neg]
  split
  · rfl
  · rw [Option.map_some, neg_div]

end TradeOS.Numeric.Correlation
