import TradeOS.Numeric.Binary64
import TradeOS.Schemas
import Mathlib.Algebra.BigOperators.Ring.List
import Mathlib.Algebra.Order.BigOperators.Group.List
import Mathlib.Algebra.Order.Group.MinMax
import Mathlib.Tactic.Linarith
import Mathlib.Tactic.LinearCombination

/-!
# Composing strategies

`MultiStrategyComposer.compose` makes one proposal per strategy from its signal
bundles, and one composite from the proposals. A strategy is weighted in both: its
bundles are averaged with the weight, and its proposal is counted with the weight
again. The composite direction is therefore the sign of the votes with squared
weights (`compose_spec`), which is the sign of the weighted vote in the cases that
`composite_direction_iff` gives.

The ids of proposals and bundles, drawn at random, are left out.
-/

set_option autoImplicit false

namespace TradeOS.Strategy

open Numeric

/-! ## The composer -/

/-- A signal bundle. -/
structure StrategySignalBundle where
  direction : Direction
  strength : UnitRational
  confidence : UnitRational

/-- The proposal of one strategy. -/
structure StrategyProposal where
  strategyId : String
  bundles : List StrategySignalBundle
  aggregateDirection : Direction
  aggregateStrength : UnitRational
  aggregateConfidence : UnitRational
  portfolioWeight : UnitRational

/-- The proposal of a portfolio. -/
structure PortfolioProposal where
  portfolioId : String
  proposals : List StrategyProposal
  compositeDirection : Direction
  compositeStrength : UnitRational
  compositeConfidence : UnitRational
  weightMethod : String

/-- `weighted_strength`. -/
def weightedStrength (weight : ℚ) (bundles : List StrategySignalBundle)
    (arith : Summation := exactSummation) : ℚ :=
  if bundles.isEmpty then 0
  else arith.fl (arith.sum (bundles.map fun bundle => arith.fl (bundle.strength.val * weight)) /
    bundles.length)

/-- The stronger side and its strength. -/
def strongerSide (long short : ℚ) : Direction × ℚ :=
  if short < long then (.long, long)
  else if long < short then (.short, short)
  else (.flat, 0)

/-- The bundles of a direction. -/
def directed (direction : Direction) (bundles : List StrategySignalBundle) :
    List StrategySignalBundle :=
  bundles.filter fun bundle => bundle.direction = direction

/-- `_make_strategy_proposal`. -/
def makeStrategyProposal (strategyId : String) (bundles : List StrategySignalBundle) (weight : ℚ)
    (arith : Summation := exactSummation) : Except RunError StrategyProposal :=
  if bundles.isEmpty then do
    let portfolioWeight ← check "portfolio_weight" weight
    return ⟨strategyId, [], .flat, .zero, .zero, portfolioWeight⟩
  else do
    let side := strongerSide (weightedStrength weight (directed .long bundles) arith)
      (weightedStrength weight (directed .short bundles) arith)
    let aggregateStrength ← check "aggregate_strength" side.2
    let aggregateConfidence ← check "aggregate_confidence"
      (arith.fl (arith.sum (bundles.map fun bundle =>
        arith.fl (bundle.confidence.val * weight)) / bundles.length))
    let portfolioWeight ← check "portfolio_weight" weight
    return ⟨strategyId, bundles, side.1, aggregateStrength, aggregateConfidence, portfolioWeight⟩

/-- The weighted strengths of the proposals of a direction. -/
def sideStrengths (direction : Direction) (proposals : List StrategyProposal)
    (arith : Summation := exactSummation) : List ℚ :=
  (proposals.filter fun proposal => proposal.aggregateDirection = direction).map
    fun proposal => arith.fl (proposal.aggregateStrength.val * proposal.portfolioWeight.val)

/-- The weighted strength of the proposals of a direction. -/
def sideWeight (direction : Direction) (proposals : List StrategyProposal)
    (arith : Summation := exactSummation) : ℚ :=
  arith.sum (sideStrengths direction proposals arith)

/-- The confidence of the composite. -/
def compositeConfidence (proposals : List StrategyProposal) (arith : Summation := exactSummation) :
    ℚ :=
  arith.fl (arith.sum (proposals.map fun proposal =>
    arith.fl (proposal.aggregateConfidence.val * proposal.portfolioWeight.val)) /
    (if proposals.isEmpty then 1 else proposals.length))

/-- `weights.get(strategy_id, 0.0)`. -/
def weightOf (weights : List (String × ℚ)) (strategyId : String) : ℚ :=
  (weights.lookup strategyId).getD 0

/-- `MultiStrategyComposer.compose`, with `_aggregate_proposals`. -/
def compose (weightMethod : String)
    (bundlesByStrategy : List (String × List StrategySignalBundle))
    (weights : List (String × ℚ)) (portfolioId : String) (arith : Summation := exactSummation) :
    Except RunError PortfolioProposal := do
  let proposals ← bundlesByStrategy.mapM fun entry =>
    makeStrategyProposal entry.1 entry.2 (weightOf weights entry.1) arith
  let side := strongerSide (sideWeight .long proposals arith) (sideWeight .short proposals arith)
  let compositeStrength ← check "composite_strength" side.2
  let compositeConfidence ← check "composite_confidence" (compositeConfidence proposals arith)
  return ⟨portfolioId, proposals, side.1, compositeStrength, compositeConfidence, weightMethod⟩

/-! ## The weighted vote -/

/-- The mean strength of bundles, none without bundles. -/
def meanStrength (bundles : List StrategySignalBundle) : ℚ :=
  if bundles.isEmpty then 0
  else (bundles.map fun bundle => bundle.strength.val).sum / bundles.length

/-- A strength with the sign of its direction. -/
def signed (side : Direction × ℚ) : ℚ :=
  match side.1 with
  | .long => side.2
  | .short => -side.2
  | .flat => 0

/-- The signed net strength of a strategy: the larger of its mean long and mean short
strength, with its sign. -/
def netStrength (bundles : List StrategySignalBundle) : ℚ :=
  signed (strongerSide (meanStrength (directed .long bundles))
    (meanStrength (directed .short bundles)))

/-- The direction of a signed number. -/
def directionOf (q : ℚ) : Direction := if 0 < q then .long else if q < 0 then .short else .flat

section Votes

variable (bundlesByStrategy : List (String × List StrategySignalBundle))
  (weights : List (String × ℚ))

/-- The sum over the strategies of a function of the weight and the net strength. -/
def voteSum (f : ℚ → ℚ → ℚ) : ℚ :=
  (bundlesByStrategy.map fun entry => f (weightOf weights entry.1) (netStrength entry.2)).sum

/-- The weighted vote. -/
def weightedVote : ℚ := voteSum bundlesByStrategy weights fun weight net => weight * net

/-- The vote with squared weights. -/
def squaredVote : ℚ := voteSum bundlesByStrategy weights fun weight net => weight ^ 2 * net

/-- The votes for a long position, with squared weights. -/
def squaredLong : ℚ := voteSum bundlesByStrategy weights fun weight net => weight ^ 2 * max net 0

/-- The votes for a short position, with squared weights. -/
def squaredShort : ℚ :=
  voteSum bundlesByStrategy weights fun weight net => weight ^ 2 * max (-net) 0

/-- The direction of a strategy and its strength, as they are computed. -/
def strategySide (weight : ℚ) (bundles : List StrategySignalBundle)
    (arith : Summation := exactSummation) : Direction × ℚ :=
  if bundles.isEmpty then (.flat, 0)
  else strongerSide (weightedStrength weight (directed .long bundles) arith)
    (weightedStrength weight (directed .short bundles) arith)

/-- The votes of the strategies for a direction, as they are computed. -/
def votesFor (direction : Direction) (arith : Summation := exactSummation) : List ℚ :=
  (bundlesByStrategy.filter fun entry =>
    (strategySide (weightOf weights entry.1) entry.2 arith).1 = direction).map fun entry =>
      arith.fl ((strategySide (weightOf weights entry.1) entry.2 arith).2 *
        weightOf weights entry.1)

/-- The votes for a direction, added up as they are computed. -/
def votes (direction : Direction) (arith : Summation := exactSummation) : ℚ :=
  arith.sum (votesFor bundlesByStrategy weights direction arith)

end Votes

/-! ## One strategy -/

/-- The weight is a factor of the weighted strength. -/
theorem weightedStrength_eq (weight : ℚ) (bundles : List StrategySignalBundle) :
    weightedStrength weight bundles = weight * meanStrength bundles := by
  unfold weightedStrength meanStrength
  split
  · exact (mul_zero weight).symm
  · change (bundles.map fun bundle => bundle.strength.val * weight).sum / bundles.length = _
    rw [List.sum_map_mul_right]
    ring

theorem product_mem_unit (fl : Rounding) {a b : ℚ} (unit : 0 ≤ a ∧ a ≤ 1)
    (unit' : 0 ≤ b ∧ b ≤ 1) : 0 ≤ fl (a * b) ∧ fl (a * b) ≤ 1 :=
  fl.mem_unit ⟨mul_nonneg unit.1 unit'.1, mul_le_one₀ unit.2 unit'.1 unit'.2⟩

/-- A weighted strength is in the unit interval, in every arithmetic. -/
theorem weightedStrength_mem_unit (arith : UnitSummation) {weight : ℚ}
    (unit : 0 ≤ weight ∧ weight ≤ 1) (bundles : List StrategySignalBundle) :
    0 ≤ weightedStrength weight bundles arith.toSummation ∧
      weightedStrength weight bundles arith.toSummation ≤ 1 := by
  unfold weightedStrength
  split
  · exact ⟨le_refl 0, zero_le_one⟩
  · have mean := arith.mean_mem_unit
      (bundles.map fun bundle => arith.fl (bundle.strength.val * weight)) fun x member => by
        obtain ⟨bundle, _, rfl⟩ := List.mem_map.mp member
        exact product_mem_unit arith.fl bundle.strength.property unit
    rwa [List.length_map] at mean

theorem strongerSide_snd_mem_unit {long short : ℚ} (longUnit : 0 ≤ long ∧ long ≤ 1)
    (shortUnit : 0 ≤ short ∧ short ≤ 1) :
    0 ≤ (strongerSide long short).2 ∧ (strongerSide long short).2 ≤ 1 := by
  unfold strongerSide
  split
  · exact longUnit
  · split
    · exact shortUnit
    · exact ⟨le_refl 0, zero_le_one⟩

/-- A weight on both sides is a weight on the stronger one. -/
theorem signed_strongerSide_mul {weight : ℚ} (nonneg : 0 ≤ weight) (long short : ℚ) :
    signed (strongerSide (weight * long) (weight * short)) =
      weight * signed (strongerSide long short) := by
  rcases nonneg.eq_or_lt with rfl | positive
  · simp [strongerSide, signed]
  · unfold strongerSide
    rw [if_congr (mul_lt_mul_iff_right₀ positive) rfl rfl,
      if_congr (mul_lt_mul_iff_right₀ positive) rfl rfl]
    split
    · rfl
    · split
      · exact (mul_neg weight short).symm
      · exact (mul_zero weight).symm

theorem strategySide_snd_mem_unit (arith : UnitSummation) {weight : ℚ}
    (unit : 0 ≤ weight ∧ weight ≤ 1) (bundles : List StrategySignalBundle) :
    0 ≤ (strategySide weight bundles arith.toSummation).2 ∧
      (strategySide weight bundles arith.toSummation).2 ≤ 1 := by
  unfold strategySide
  split
  · exact ⟨le_refl 0, zero_le_one⟩
  · exact strongerSide_snd_mem_unit (weightedStrength_mem_unit arith unit _)
      (weightedStrength_mem_unit arith unit _)

/-- Exactly, the signed strength of a strategy is the weighted net strength. -/
theorem signed_strategySide {weight : ℚ} (nonneg : 0 ≤ weight)
    (bundles : List StrategySignalBundle) :
    signed (strategySide weight bundles) = weight * netStrength bundles := by
  unfold strategySide
  split
  · rename_i none
    rw [List.isEmpty_iff.mp none]
    exact (mul_zero weight).symm
  · rw [weightedStrength_eq, weightedStrength_eq]
    exact signed_strongerSide_mul nonneg _ _

/-- **The proposal of a strategy** passes its field checks in every arithmetic, and has the
direction and the strength of the strategy. -/
theorem makeStrategyProposal_spec (arith : UnitSummation) (strategyId : String)
    (bundles : List StrategySignalBundle) {weight : ℚ} (unit : 0 ≤ weight ∧ weight ≤ 1) :
    ∃ proposal, makeStrategyProposal strategyId bundles weight arith.toSummation = .ok proposal ∧
      proposal.portfolioWeight.val = weight ∧
      (proposal.aggregateDirection, proposal.aggregateStrength.val) =
        strategySide weight bundles arith.toSummation := by
  have weighed : check (p := fun q => 0 ≤ q ∧ q ≤ 1) "portfolio_weight" weight =
      .ok ⟨weight, unit⟩ := check_eq_ok_iff.mpr rfl
  have strong := strategySide_snd_mem_unit arith unit bundles
  unfold makeStrategyProposal
  by_cases none : bundles.isEmpty = true
  · rw [if_pos none, weighed]
    refine ⟨_, rfl, rfl, ?_⟩
    rw [strategySide, if_pos none]
    rfl
  · rw [strategySide, if_neg none] at strong ⊢
    rw [if_neg none]
    set side := strongerSide (weightedStrength weight (directed .long bundles) arith.toSummation)
      (weightedStrength weight (directed .short bundles) arith.toSummation)
    have strength : check (p := fun q => 0 ≤ q ∧ q ≤ 1) "aggregate_strength" side.2 =
        .ok ⟨side.2, strong⟩ := check_eq_ok_iff.mpr rfl
    have mean := arith.mean_mem_unit
      (bundles.map fun bundle => arith.fl (bundle.confidence.val * weight)) fun x member => by
        obtain ⟨bundle, _, rfl⟩ := List.mem_map.mp member
        exact product_mem_unit arith.fl bundle.confidence.property unit
    rw [List.length_map] at mean
    have confidence : check (p := fun q => 0 ≤ q ∧ q ≤ 1) "aggregate_confidence"
        (arith.fl (arith.sum (bundles.map fun bundle =>
          arith.fl (bundle.confidence.val * weight)) / bundles.length)) = .ok ⟨_, mean⟩ :=
      check_eq_ok_iff.mpr rfl
    dsimp only
    rw [strength, confidence, weighed]
    exact ⟨_, rfl, rfl, rfl⟩

/-! ## All strategies -/

/-- What a strategy adds to the votes of its side. -/
theorem side_contribution {side : Direction × ℚ} (nonneg : 0 ≤ side.2) (weight : ℚ) :
    (if side.1 = .long then side.2 * weight else 0) = max (signed side) 0 * weight ∧
      (if side.1 = .short then side.2 * weight else 0) = max (-signed side) 0 * weight := by
  obtain ⟨direction, strength⟩ := side
  dsimp only at nonneg
  unfold signed
  cases direction with
  | long => simp [nonneg]
  | short => simp [nonneg]
  | flat => simp

variable {bundlesByStrategy : List (String × List StrategySignalBundle)}
  {weights : List (String × ℚ)}

theorem weightOf_mem_unit (unit : ∀ entry ∈ weights, 0 ≤ entry.2 ∧ entry.2 ≤ 1)
    (strategyId : String) :
    0 ≤ weightOf weights strategyId ∧ weightOf weights strategyId ≤ 1 := by
  unfold weightOf
  cases found : weights.lookup strategyId with
  | none => exact ⟨le_refl 0, zero_le_one⟩
  | some weight =>
      obtain ⟨before, after, split, _⟩ := List.lookup_eq_some_iff.mp found
      exact unit (strategyId, weight) (by rw [split]; simp)

/-- **The proposals of all strategies** pass their checks in every arithmetic, and the strengths
of a side are the votes for it. -/
theorem proposals_spec (arith : UnitSummation)
    (unit : ∀ entry ∈ weights, 0 ≤ entry.2 ∧ entry.2 ≤ 1)
    (bundlesByStrategy : List (String × List StrategySignalBundle)) :
    ∃ proposals, (bundlesByStrategy.mapM fun entry =>
        makeStrategyProposal entry.1 entry.2 (weightOf weights entry.1) arith.toSummation) =
          .ok proposals ∧
      ∀ direction, sideStrengths direction proposals arith.toSummation =
        votesFor bundlesByStrategy weights direction arith.toSummation := by
  induction bundlesByStrategy with
  | nil => exact ⟨[], rfl, fun _ => rfl⟩
  | cons entry rest ih =>
      obtain ⟨proposals, mapped, votes⟩ := ih
      obtain ⟨proposal, made, weight, side⟩ :=
        makeStrategyProposal_spec arith entry.1 entry.2 (weightOf_mem_unit unit entry.1)
      refine ⟨proposal :: proposals, ?_, fun direction => ?_⟩
      · rw [List.mapM_cons, made, mapped]
        rfl
      · have others := votes direction
        unfold sideStrengths votesFor at others ⊢
        rw [List.filter_cons, List.filter_cons, ← side]
        dsimp only
        split
        · rw [List.map_cons, List.map_cons, others, ← side, weight]
        · exact others

/-- A vote is counted for its side. -/
theorem sum_votesFor_cons (direction : Direction)
    (entry : String × List StrategySignalBundle)
    (rest : List (String × List StrategySignalBundle)) :
    (votesFor (entry :: rest) weights direction).sum =
      (if (strategySide (weightOf weights entry.1) entry.2).1 = direction then
        (strategySide (weightOf weights entry.1) entry.2).2 * weightOf weights entry.1 else 0) +
        (votesFor rest weights direction).sum := by
  unfold votesFor
  rw [List.filter_cons]
  by_cases own : (strategySide (weightOf weights entry.1) entry.2).1 = direction
  · rw [if_pos (decide_eq_true own), List.map_cons, List.sum_cons, if_pos own]
  · rw [if_neg (by simpa using own), if_neg own, zero_add]

/-- Exactly, every side has its votes with squared weights. -/
theorem sum_votesFor (unit : ∀ entry ∈ weights, 0 ≤ entry.2 ∧ entry.2 ≤ 1)
    (bundlesByStrategy : List (String × List StrategySignalBundle)) :
    (votesFor bundlesByStrategy weights .long).sum = squaredLong bundlesByStrategy weights ∧
      (votesFor bundlesByStrategy weights .short).sum = squaredShort bundlesByStrategy weights := by
  induction bundlesByStrategy with
  | nil => exact ⟨rfl, rfl⟩
  | cons entry rest ih =>
      have nonneg := (weightOf_mem_unit unit entry.1).1
      have strong := strategySide_snd_mem_unit exactUnitSummation
        (weightOf_mem_unit unit entry.1) entry.2
      obtain ⟨toLong, toShort⟩ := side_contribution strong.1 (weightOf weights entry.1)
      have scaled : ∀ q : ℚ, max (weightOf weights entry.1 * q) 0 =
          weightOf weights entry.1 * max q 0 := by
        intro q
        rw [mul_max_of_nonneg _ _ nonneg, mul_zero]
      constructor
      · rw [sum_votesFor_cons, toLong, ih.1, signed_strategySide nonneg, scaled]
        simp only [squaredLong, voteSum, List.map_cons, List.sum_cons]
        ring
      · rw [sum_votesFor_cons, toShort, ih.2, signed_strategySide nonneg, ← mul_neg, scaled]
        simp only [squaredShort, voteSum, List.map_cons, List.sum_cons]
        ring

theorem compositeConfidence_mem_unit (arith : UnitSummation) (proposals : List StrategyProposal) :
    0 ≤ compositeConfidence proposals arith.toSummation ∧
      compositeConfidence proposals arith.toSummation ≤ 1 := by
  have mean := arith.mean_mem_unit (proposals.map fun proposal =>
      arith.fl (proposal.aggregateConfidence.val * proposal.portfolioWeight.val)) fun x member => by
    obtain ⟨proposal, _, rfl⟩ := List.mem_map.mp member
    exact product_mem_unit arith.fl proposal.aggregateConfidence.property
      proposal.portfolioWeight.property
  unfold compositeConfidence
  split
  · rename_i none
    rw [List.isEmpty_iff.mp none, List.map_nil, Nat.cast_one, div_one]
    have empty := arith.unit_sum [] (List.forall_mem_nil _)
    exact arith.fl.mem_unit ⟨empty.1, empty.2.trans (by norm_num)⟩
  · rwa [List.length_map] at mean

/-- The votes of the two sides make up the vote. -/
theorem squaredLong_sub_squaredShort (bundlesByStrategy : List (String × List StrategySignalBundle))
    (weights : List (String × ℚ)) :
    squaredLong bundlesByStrategy weights - squaredShort bundlesByStrategy weights =
      squaredVote bundlesByStrategy weights := by
  unfold squaredLong squaredShort squaredVote voteSum
  induction bundlesByStrategy with
  | nil => simp
  | cons entry rest ih =>
      simp only [List.map_cons, List.sum_cons]
      rw [← ih]
      have parts := max_zero_sub_max_neg_zero_eq_self (netStrength entry.2)
      linear_combination weightOf weights entry.1 ^ 2 * parts

/-- The stronger side is the direction of the difference. -/
theorem strongerSide_fst (long short : ℚ) : (strongerSide long short).1 = directionOf (long - short) := by
  unfold strongerSide directionOf
  rw [if_congr sub_pos rfl rfl, if_congr sub_neg rfl rfl]
  split
  · rfl
  · split <;> rfl

theorem votes_nonneg (arith : UnitSummation) (unit : ∀ entry ∈ weights, 0 ≤ entry.2 ∧ entry.2 ≤ 1)
    (direction : Direction) : 0 ≤ votes bundlesByStrategy weights direction arith.toSummation := by
  refine (arith.unit_sum _ fun x member => ?_).1
  obtain ⟨entry, _, rfl⟩ := List.mem_map.mp member
  have weight := weightOf_mem_unit unit entry.1
  exact product_mem_unit arith.fl (strategySide_snd_mem_unit arith weight entry.2) weight

/-- **The composite**: it is made exactly if the votes of the winning side do not exceed the bound
on the strength, and has the direction of that side. Every other check passes. -/
theorem compose_iff (arith : UnitSummation) (unit : ∀ entry ∈ weights, 0 ≤ entry.2 ∧ entry.2 ≤ 1)
    (weightMethod portfolioId : String) (direction : Direction) :
    let side := strongerSide (votes bundlesByStrategy weights .long arith.toSummation)
      (votes bundlesByStrategy weights .short arith.toSummation)
    (∃ proposal, compose weightMethod bundlesByStrategy weights portfolioId arith.toSummation =
          .ok proposal ∧
        proposal.compositeDirection = direction) ↔ side.2 ≤ 1 ∧ side.1 = direction := by
  intro side
  obtain ⟨proposals, mapped, strengths⟩ := proposals_spec arith unit bundlesByStrategy
  have confident : check (p := fun q => 0 ≤ q ∧ q ≤ 1) "composite_confidence"
      (compositeConfidence proposals arith.toSummation) =
        .ok ⟨_, compositeConfidence_mem_unit arith proposals⟩ :=
    check_eq_ok_iff.mpr rfl
  have sides : ∀ direction, sideWeight direction proposals arith.toSummation =
      votes bundlesByStrategy weights direction arith.toSummation := fun direction =>
    congrArg arith.sum (strengths direction)
  have nonneg : 0 ≤ side.2 := by
    simp only [side, strongerSide]
    split
    · exact votes_nonneg arith unit _
    · split
      · exact votes_nonneg arith unit _
      · exact le_refl 0
  unfold compose
  simp only [bind_eq_ok_iff, mapped, Except.ok.injEq]
  constructor
  · rintro ⟨proposal, ⟨_, rfl, strength, checked, confidence, _, made⟩, rfl⟩
    rw [sides, sides, check_eq_ok_iff] at checked
    cases made
    rw [sides, sides]
    exact ⟨checked ▸ strength.property.2, rfl⟩
  · rintro ⟨bounded, rfl⟩
    refine ⟨_, ⟨proposals, rfl, ⟨_, nonneg, bounded⟩, ?_, _, confident, rfl⟩, ?_⟩
    · rw [sides, sides]
      exact check_eq_ok_iff.mpr rfl
    · rw [sides, sides]

/-- Exactly, the direction of the composite is the sign of the vote with squared weights. -/
theorem compose_spec (unit : ∀ entry ∈ weights, 0 ≤ entry.2 ∧ entry.2 ≤ 1)
    (weightMethod portfolioId : String) (direction : Direction) :
    (∃ proposal, compose weightMethod bundlesByStrategy weights portfolioId = .ok proposal ∧
        proposal.compositeDirection = direction) ↔
      (strongerSide (squaredLong bundlesByStrategy weights)
          (squaredShort bundlesByStrategy weights)).2 ≤ 1 ∧
        directionOf (squaredVote bundlesByStrategy weights) = direction := by
  obtain ⟨long, short⟩ := sum_votesFor unit bundlesByStrategy
  rw [← squaredLong_sub_squaredShort, ← strongerSide_fst, ← long, ← short]
  exact compose_iff exactUnitSummation unit weightMethod portfolioId direction

/-- The strength of the winning side is in its bound exactly when the votes of that side
are. -/
theorem strongerSide_snd_le_one_iff (long short : ℚ) :
    (strongerSide long short).2 ≤ 1 ↔
      (0 < long - short → long ≤ 1) ∧ (long - short < 0 → short ≤ 1) := by
  unfold strongerSide
  rcases lt_trichotomy short long with longWins | rfl | shortWins
  · rw [if_pos longWins]
    exact ⟨fun bounded => ⟨fun _ => bounded, fun lost => by linarith⟩,
      fun bounds => bounds.1 (sub_pos.mpr longWins)⟩
  · simp
  · rw [if_neg shortWins.not_gt, if_pos shortWins]
    exact ⟨fun bounded => ⟨fun lost => by linarith, fun _ => bounded⟩,
      fun bounds => bounds.2 (sub_neg.mpr shortWins)⟩

/-- **The composite direction is the direction of the weighted vote exactly when squaring
the weights does not change the sign, and the votes of the winning side with squared
weights do not exceed one.** -/
theorem composite_direction_iff (unit : ∀ entry ∈ weights, 0 ≤ entry.2 ∧ entry.2 ≤ 1)
    (weightMethod portfolioId : String) :
    (∃ proposal, compose weightMethod bundlesByStrategy weights portfolioId = .ok proposal ∧
        proposal.compositeDirection = directionOf (weightedVote bundlesByStrategy weights)) ↔
      directionOf (squaredVote bundlesByStrategy weights) =
          directionOf (weightedVote bundlesByStrategy weights) ∧
        (0 < squaredVote bundlesByStrategy weights → squaredLong bundlesByStrategy weights ≤ 1) ∧
        (squaredVote bundlesByStrategy weights < 0 → squaredShort bundlesByStrategy weights ≤ 1) := by
  rw [compose_spec unit, strongerSide_snd_le_one_iff, squaredLong_sub_squaredShort]
  exact and_comm

/-- One bundle of full strength. -/
def fullBundle (direction : Direction) : StrategySignalBundle where
  direction := direction
  strength := .clamp 1
  confidence := .clamp 1

/-- One strategy decides with its weight. -/
theorem composite_direction_sample :
    ∃ proposal, compose "equal" [("trend", [fullBundle .long])] [("trend", 1 / 2)] "p" =
        .ok proposal ∧
      proposal.compositeDirection =
        directionOf (weightedVote [("trend", [fullBundle .long])] [("trend", 1 / 2)]) := by
  have unit : ∀ entry ∈ [("trend", (1 / 2 : ℚ))], 0 ≤ entry.2 ∧ entry.2 ≤ 1 := by
    intro entry member
    rw [List.mem_singleton.mp member]
    norm_num
  refine (composite_direction_iff unit "equal" "p").mpr ⟨?_, ?_, ?_⟩
  · with_unfolding_all decide
  · with_unfolding_all decide
  · with_unfolding_all decide

/-- A long strategy and two short ones, with weights that add up to one. -/
def sampleBundles : List (String × List StrategySignalBundle) :=
  [("a", [fullBundle .long]), ("b", [fullBundle .short]), ("c", [fullBundle .short])]

/-- Their weights. -/
def sampleWeights : List (String × ℚ) := [("a", 9 / 20), ("b", 11 / 40), ("c", 11 / 40)]

/-- The weighted vote is short, and the composite is long. -/
theorem composite_direction_reversed :
    (∀ entry ∈ sampleWeights, 0 ≤ entry.2 ∧ entry.2 ≤ 1) ∧
      directionOf (weightedVote sampleBundles sampleWeights) = .short ∧
      (compose "equal" sampleBundles sampleWeights "p").toOption.map
        PortfolioProposal.compositeDirection = some .long := by
  refine ⟨?_, ?_, ?_⟩
  · with_unfolding_all decide
  · with_unfolding_all decide
  · with_unfolding_all decide

/-! ## When the composer returns -/

/-- A number of the unit interval, as the fields of a proposal are declared. -/
def InUnit (q : ℚ) : Prop := 0 ≤ q ∧ q ≤ 1

/-- The strengths and confidences of a portfolio proposal and of its proposals are in the
unit interval. -/
def PortfolioProposal.Bounded (proposal : PortfolioProposal) : Prop :=
  InUnit proposal.compositeStrength.val ∧ InUnit proposal.compositeConfidence.val ∧
    ∀ part ∈ proposal.proposals,
      InUnit part.aggregateStrength.val ∧ InUnit part.aggregateConfidence.val

/-- A proposal that passed the field checks is bounded. -/
theorem PortfolioProposal.bounded (proposal : PortfolioProposal) : proposal.Bounded := by
  refine ⟨proposal.compositeStrength.property, proposal.compositeConfidence.property, ?_⟩
  intro part _
  exact ⟨part.aggregateStrength.property, part.aggregateConfidence.property⟩

/-- The strength of the stronger side is in its bound exactly when that side is. -/
theorem strongerSide_bounded_iff (long short : ℚ) :
    (strongerSide long short).2 ≤ 1 ↔
      (short < long → long ≤ 1) ∧ (long < short → short ≤ 1) := by
  rw [strongerSide_snd_le_one_iff, sub_pos, sub_neg]

/-- **In every arithmetic the composer returns exactly when the votes of the winning side do not
exceed one, as they are computed.** The strength of the composite is their sum, and not their
mean. -/
theorem compose_returns_iff (arith : UnitSummation)
    (unit : ∀ entry ∈ weights, 0 ≤ entry.2 ∧ entry.2 ≤ 1) (weightMethod portfolioId : String) :
    let long := votes bundlesByStrategy weights .long arith.toSummation
    let short := votes bundlesByStrategy weights .short arith.toSummation
    (∃ proposal, compose weightMethod bundlesByStrategy weights portfolioId arith.toSummation =
        .ok proposal ∧ proposal.Bounded) ↔
      (short < long → long ≤ 1) ∧ (long < short → short ≤ 1) := by
  intro long short
  rw [← strongerSide_bounded_iff]
  constructor
  · rintro ⟨proposal, composed, _⟩
    exact ((compose_iff arith unit weightMethod portfolioId _).mp ⟨proposal, composed, rfl⟩).1
  · intro bounded
    obtain ⟨proposal, composed, _⟩ :=
      (compose_iff arith unit weightMethod portfolioId _).mpr ⟨bounded, rfl⟩
    exact ⟨proposal, composed, proposal.bounded⟩

/-- The three strategies with weights that add up to one. -/
theorem compose_returns_sample :
    ∃ proposal, compose "equal" sampleBundles sampleWeights "p" doubles.toSummation =
        .ok proposal ∧
      proposal.Bounded := by
  refine (compose_returns_iff doubles ?_ "equal" "p").mpr ⟨?_, ?_⟩
  · with_unfolding_all decide
  · decide +kernel
  · decide +kernel

/-- Long strategies of full weight. -/
def agreeingBundles : List (String × List StrategySignalBundle) :=
  [("a", [fullBundle .long]), ("b", [fullBundle .long])]

/-- Two strategies of full weight that agree have a composite strength of two, which the
schema refuses. -/
theorem compose_raises_on_agreement :
    (∀ entry ∈ [("a", (1 : ℚ)), ("b", 1)], 0 ≤ entry.2 ∧ entry.2 ≤ 1) ∧
      ¬ ∃ proposal, compose "equal" agreeingBundles [("a", 1), ("b", 1)] "p"
        doubles.toSummation = .ok proposal := by
  refine ⟨by with_unfolding_all decide, ?_⟩
  rintro ⟨proposal, composed⟩
  have raised : (compose "equal" agreeingBundles [("a", 1), ("b", 1)] "p"
      doubles.toSummation).toOption.isSome = false := by decide +kernel
  rw [composed] at raised
  exact absurd raised (by simp [Except.toOption])

end TradeOS.Strategy
