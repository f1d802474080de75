import TradeOS.Numeric.Precision
import TradeOS.Risk.Engine

/-!
# The sizing chain in closed form

With a positive price and equity, in an arithmetic that is exact or precise, the chain has
four outcomes. A positive
volatility selects volatility targeting, else a positive Kelly quantity is taken,
else a positive confidence selects the conviction weight, and else the fixed
fraction is positive. The drawdown-adjusted and the regime-based calculator are
never reached (`runSizingChain_qty`).

An order that reaches the filters has this quantity, cut to the existing position
for an exit or a reduction (`sizeOrder_quantity`).
-/

set_option autoImplicit false

namespace TradeOS.Risk

open TradeOS.Numeric

/-- The half-Kelly quantity, zero without its three inputs. -/
def kellyQuantity (inputs : SizingInputs) (fl : Rounding := exactRounding) : ℚ :=
  match inputs.kellyWinRate, inputs.kellyAvgWin, inputs.kellyAvgLoss with
  | some p, some avgWin, some avgLoss =>
      if avgLoss ≤ 0 then 0
      else
        let b := fl (avgWin / avgLoss)
        let kelly := fl (fl (fl (b * p) - fl (1 - p)) / b)
        fl (fl (inputs.portfolioEquity * fl (max kelly 0 / 2)) / inputs.marketContext.currentPrice)
  | _, _, _ => 0

/-- The risk of one share that the fixed fraction divides by. -/
def riskPerShare (inputs : SizingInputs) (fl : Rounding := exactRounding) : ℚ :=
  fl (inputs.marketContext.currentPrice *
    if 0 < inputs.marketContext.atr14 then
      fl (inputs.marketContext.atr14 / inputs.marketContext.currentPrice)
    else max inputs.stopDistancePct (fl (1 / 100)))

/-- The quantity of the sizing chain. -/
def sizedQuantity (inputs : SizingInputs) (fl : Rounding := exactRounding) : ℚ :=
  if 0 < inputs.marketContext.realizedVol20d then
    fl (fl (inputs.portfolioEquity * inputs.targetAnnualVol) /
      fl (inputs.marketContext.currentPrice * inputs.marketContext.realizedVol20d))
  else if 0 < kellyQuantity inputs fl then kellyQuantity inputs fl
  else if 0 < inputs.directionConfidence then fl (baseQty inputs fl * inputs.directionConfidence)
  else fl (fl (inputs.portfolioEquity * fl (1 / 100)) / riskPerShare inputs fl)

section Chain

variable (arith : PreciseRounding) {inputs : SizingInputs}
  (price : 0 < inputs.marketContext.currentPrice)

include price

theorem volatilityTargeting_qty (equity : 0 < inputs.portfolioEquity)
    (target : 0 < inputs.targetAnnualVol) :
    (volatilityTargeting inputs arith.toRounding).qty =
      if 0 < inputs.marketContext.realizedVol20d then
        arith.toRounding (arith.toRounding (inputs.portfolioEquity * inputs.targetAnnualVol) /
          arith.toRounding
            (inputs.marketContext.currentPrice * inputs.marketContext.realizedVol20d))
      else 0 := by
  simp only [volatilityTargeting]
  rw [if_neg (not_le.mpr price)]
  by_cases volatile : 0 < inputs.marketContext.realizedVol20d
  · rw [if_neg (not_le.mpr volatile), if_pos volatile]
    refine max_eq_left (arith.nonneg (div_nonneg ?_ ?_))
    · exact arith.nonneg (mul_nonneg equity.le target.le)
    · exact arith.nonneg (mul_pos price volatile).le
  · rw [if_pos (not_lt.mp volatile), if_neg volatile]
    rfl

theorem kellyFraction_qty (equity : 0 < inputs.portfolioEquity) {sizing : SizingResult}
    (sized : kellyFraction inputs arith.toRounding = .ok sizing) :
    sizing.qty = kellyQuantity inputs arith.toRounding := by
  unfold kellyFraction at sized
  split at sized
  · rename_i p avgWin avgLoss rate win loss
    simp only [kellyQuantity, rate, win, loss]
    rw [if_neg (not_le.mpr price)] at sized
    split at sized
    · rename_i noLoss
      cases sized
      rw [if_pos noLoss]
      rfl
    · rename_i someLoss
      dsimp only at sized
      split at sized
      · cases sized
      · cases sized
        rw [if_neg someLoss]
        refine max_eq_left (arith.nonneg (div_nonneg (arith.nonneg ?_) price.le))
        exact mul_nonneg equity.le (arith.nonneg (div_nonneg (le_max_right _ _) zero_le_two))
  · rename_i missing
    cases sized
    unfold kellyQuantity
    split
    · rename_i rate win loss
      exact absurd loss (missing _ _ _ rate win)
    · rfl

theorem convictionWeighted_qty :
    (convictionWeighted inputs arith.toRounding).qty =
      max (arith.toRounding (baseQty inputs arith.toRounding * inputs.directionConfidence)) 0 := by
  rw [convictionWeighted, if_neg (not_le.mpr price)]

theorem riskPerShare_pos : 0 < riskPerShare inputs arith.toRounding := by
  refine arith.pos (mul_pos price ?_)
  split
  · rename_i range
    exact arith.pos (div_pos range price)
  · exact lt_max_of_lt_right (arith.pos (by norm_num))

theorem fixedFraction_qty (equity : 0 < inputs.portfolioEquity) :
    (fixedFraction inputs arith.toRounding).qty =
      arith.toRounding
        (arith.toRounding (inputs.portfolioEquity * arith.toRounding (1 / 100)) /
          riskPerShare inputs arith.toRounding) := by
  have risk : 0 < riskPerShare inputs arith.toRounding := riskPerShare_pos arith price
  simp only [fixedFraction]
  rw [if_neg (not_le.mpr price)]
  simp only [riskPerShare] at risk ⊢
  rw [if_neg (not_le.mpr risk)]
  refine max_eq_left (arith.nonneg (div_nonneg (arith.nonneg ?_) risk.le))
  exact mul_nonneg equity.le (arith.nonneg (by norm_num))

theorem baseQty_pos (equity : 0 < inputs.portfolioEquity) :
    0 < baseQty inputs arith.toRounding := by
  have share : 0 < arith.toRounding baseFraction := arith.pos (by norm_num [baseFraction])
  exact arith.pos (div_pos (arith.pos (mul_pos equity share)) price)

theorem targetedQuantity_pos (equity : 0 < inputs.portfolioEquity)
    (target : 0 < inputs.targetAnnualVol) (volatile : 0 < inputs.marketContext.realizedVol20d) :
    0 < arith.toRounding (arith.toRounding (inputs.portfolioEquity * inputs.targetAnnualVol) /
      arith.toRounding
        (inputs.marketContext.currentPrice * inputs.marketContext.realizedVol20d)) :=
  arith.pos (div_pos (arith.pos (mul_pos equity target)) (arith.pos (mul_pos price volatile)))

theorem fixedQuantity_pos (equity : 0 < inputs.portfolioEquity) :
    0 < arith.toRounding (arith.toRounding (inputs.portfolioEquity * arith.toRounding (1 / 100)) /
      riskPerShare inputs arith.toRounding) := by
  have share : 0 < arith.toRounding (1 / 100) := arith.pos (by norm_num)
  exact arith.pos (div_pos (arith.pos (mul_pos equity share)) (riskPerShare_pos arith price))

end Chain

/-- The first positive result of a list. -/
def firstPositive (results : List SizingResult) : SizingResult :=
  (results.find? fun r => 0 < r.qty).getD (zeroSizing "none" "all sizing methods returned 0")

/-- Past volatility targeting, the loop computes every calculator and takes the
first positive result. -/
theorem sizingLoop_eq_ok {inputs : SizingInputs} {calculators : List SizingCalculator}
    (others : ∀ c ∈ calculators, c.name ≠ "volatility_targeting") {results : List SizingResult}
    {sizing : SizingResult} (ran : sizingLoop inputs calculators results = .ok sizing) :
    ∃ later, List.Forall₂ (fun c r => c.calculate inputs = .ok r) calculators later ∧
      sizing = firstPositive (results ++ later) := by
  induction calculators generalizing results with
  | nil =>
      cases ran
      exact ⟨[], .nil, by rw [List.append_nil]; rfl⟩
  | cons c calculators ih =>
      obtain ⟨first, calculated, rest⟩ := bind_eq_ok_iff.mp ran
      have skips : ¬(c.name = "volatility_targeting" ∧ 0 < first.qty) :=
        fun targeted => others c List.mem_cons_self targeted.1
      rw [if_neg skips] at rest
      obtain ⟨later, computed, found⟩ :=
        ih (fun d member => others d (List.mem_cons_of_mem c member)) rest
      refine ⟨first :: later, .cons calculated computed, ?_⟩
      rw [found, List.append_assoc]
      rfl

/-- The chain returns the result of volatility targeting, or the first positive
result of all calculators. -/
theorem runSizingChain_cases {inputs : SizingInputs} {fl : Rounding} {sizing : SizingResult}
    (ran : runSizingChain inputs fl = .ok sizing) :
    (0 < (volatilityTargeting inputs fl).qty ∧ sizing = volatilityTargeting inputs fl) ∨
      (¬ 0 < (volatilityTargeting inputs fl).qty ∧ ∃ kelly, kellyFraction inputs fl = .ok kelly ∧
        sizing = firstPositive [volatilityTargeting inputs fl, kelly, convictionWeighted inputs fl,
          fixedFraction inputs fl, drawdownAdjusted inputs fl,
          regimeBased inputs "unknown" fl]) := by
  obtain ⟨first, calculated, rest⟩ := bind_eq_ok_iff.mp ran
  cases calculated
  by_cases targeted : 0 < (volatilityTargeting inputs fl).qty
  · rw [if_pos ⟨rfl, targeted⟩] at rest
    cases rest
    exact .inl ⟨targeted, rfl⟩
  · rw [if_neg fun both => targeted both.2] at rest
    have others : ∀ c ∈ (sizingCalculators fl).tail, c.name ≠ "volatility_targeting" := by
      simp [sizingCalculators]
    obtain ⟨later, computed, found⟩ := sizingLoop_eq_ok others rest
    cases computed with
    | cons kellied computed =>
      cases computed with
      | cons convicted computed =>
        cases convicted
        cases computed with
        | cons fixed computed =>
          cases fixed
          cases computed with
          | cons drawn computed =>
            cases drawn
            cases computed with
            | cons based computed =>
              cases based
              cases computed
              exact .inr ⟨targeted, _, kellied, found⟩

/-- **The quantity of the sizing chain, for a positive price and equity.** -/
theorem runSizingChain_qty (arith : PreciseRounding) {inputs : SizingInputs}
    (price : 0 < inputs.marketContext.currentPrice) (equity : 0 < inputs.portfolioEquity)
    (target : 0 < inputs.targetAnnualVol) {sizing : SizingResult}
    (ran : runSizingChain inputs arith.toRounding = .ok sizing) :
    sizing.qty = sizedQuantity inputs arith.toRounding := by
  have volQty := volatilityTargeting_qty arith price equity target
  unfold sizedQuantity
  rcases runSizingChain_cases ran with ⟨targeted, rfl⟩ | ⟨untargeted, kelly, kellied, rfl⟩
  · have volatile : 0 < inputs.marketContext.realizedVol20d := by
      by_contra calm
      rw [volQty, if_neg calm] at targeted
      exact lt_irrefl 0 targeted
    rw [volQty, if_pos volatile, if_pos volatile]
  · have calm : ¬ 0 < inputs.marketContext.realizedVol20d := by
      intro volatile
      rw [volQty, if_pos volatile] at untargeted
      exact untargeted (targetedQuantity_pos arith price equity target volatile)
    have kellyQty := kellyFraction_qty arith price equity kellied
    have convictionQty := convictionWeighted_qty arith price
    have fixedQty := fixedFraction_qty arith price equity
    have fixedPos : 0 < (fixedFraction inputs arith.toRounding).qty := by
      rw [fixedQty]
      exact fixedQuantity_pos arith price equity
    rw [if_neg calm, firstPositive, List.find?_cons_of_neg (by simpa using untargeted)]
    by_cases kellyPos : 0 < kellyQuantity inputs arith.toRounding
    · rw [if_pos kellyPos, List.find?_cons_of_pos (by simpa [kellyQty] using kellyPos)]
      exact kellyQty
    · rw [if_neg kellyPos, List.find?_cons_of_neg (by simpa [kellyQty] using kellyPos)]
      by_cases confident : 0 < inputs.directionConfidence
      · have positive : 0 <
            arith.toRounding (baseQty inputs arith.toRounding * inputs.directionConfidence) :=
          arith.pos (mul_pos (baseQty_pos arith price equity) confident)
        rw [if_pos confident, List.find?_cons_of_pos (by simpa [convictionQty] using positive)]
        exact convictionQty.trans (max_eq_left positive.le)
      · have empty : ¬ 0 < (convictionWeighted inputs arith.toRounding).qty := by
          rw [convictionQty, lt_max_iff, arith.pos_iff]
          rintro (positive | none)
          · exact confident ((mul_pos_iff_of_pos_left (baseQty_pos arith price equity)).mp positive)
          · exact lt_irrefl 0 none
        rw [if_neg confident, List.find?_cons_of_neg (by simpa using empty),
          List.find?_cons_of_pos (by simpa using fixedPos)]
        exact fixedQty

theorem sizedQuantity_pos (arith : PreciseRounding) {inputs : SizingInputs}
    (price : 0 < inputs.marketContext.currentPrice) (equity : 0 < inputs.portfolioEquity)
    (target : 0 < inputs.targetAnnualVol) : 0 < sizedQuantity inputs arith.toRounding := by
  unfold sizedQuantity
  split
  · rename_i volatile
    exact targetedQuantity_pos arith price equity target volatile
  · split
    · assumption
    · split
      · rename_i confident
        exact arith.pos (mul_pos (baseQty_pos arith price equity) confident)
      · exact fixedQuantity_pos arith price equity

/-! ## The order that reaches the filters -/

section Order

variable (env : RiskEnv) (decision : ArbitrationDecision) (portfolio : Portfolio)
  (marketContext : Option MarketContext) (args : CallArgs)

/-- The quantity of an order: the sizing chain's, cut to the existing position for
an exit or a reduction. -/
def orderQuantity (fl : Rounding := exactRounding) : ℚ :=
  let size := sizedQuantity (sizingInputs env decision portfolio marketContext args fl) fl
  let bias := canonicalBias decision
  if (bias = .exitBias ∨ bias = .reduceRisk) ∧ 0 < args.existingPositionQty then
    min size args.existingPositionQty
  else size

/-- The sign of the direction that a decision trades in. -/
def orderSign : ℤ :=
  match route (canonicalBias decision) args.existingDirection with
  | .ok taken => taken.directionSign
  | .error _ => 0

variable {env decision portfolio marketContext args}

theorem clampSizing_qty (bias : Bias) (existing : ℚ) (sizing : SizingResult) :
    (clampSizing bias existing sizing).qty =
      if (bias = .exitBias ∨ bias = .reduceRisk) ∧ 0 < existing then min sizing.qty existing
      else sizing.qty := by
  unfold clampSizing
  by_cases reducing : (bias = .exitBias ∨ bias = .reduceRisk) ∧ 0 < existing
  · rw [if_pos reducing]
    split
    · rename_i exceeding
      exact (min_eq_right exceeding.2.2.le).symm
    · rename_i within
      have fits : sizing.qty ≤ existing :=
        not_lt.mp fun exceeding => within ⟨reducing.1, reducing.2, exceeding⟩
      exact (min_eq_left fits).symm
  · rw [if_neg reducing, if_neg fun exceeding => reducing ⟨exceeding.1, exceeding.2.1⟩]

/-- An order has the quantity and the sign that the inputs give it. -/
theorem sizeOrder_quantity (arith : PreciseRounding)
    (price : 0 < (callContext env decision marketContext args arith.toRounding).currentPrice)
    {order : SizedOrder}
    (reached : sizeOrder env decision portfolio marketContext args arith.toRounding =
      .ok (.inr order)) :
    order.sizing.qty = orderQuantity env decision portfolio marketContext args arith.toRounding ∧
      order.route.directionSign = orderSign decision args := by
  obtain ⟨taken, sizing, routed, sized, _, rfl⟩ := sizeOrder_eq_inr reached
  have target : (0 : ℚ) < 15 / 100 := by norm_num
  have size := runSizingChain_qty arith price portfolio.totalEquity.property (arith.pos target)
    sized
  refine ⟨?_, ?_⟩
  · rw [clampSizing_qty, size]
    rfl
  · rw [orderSign, routed]

/-- With a positive price the sizing chain stops no order that has a route. -/
theorem sizeOrder_reaches (arith : PreciseRounding)
    (price : 0 < (callContext env decision marketContext args arith.toRounding).currentPrice)
    (trades : canonicalBias decision ≠ .noTrade ∧ canonicalBias decision ≠ .holdBias)
    {taken : Route} (routed : route (canonicalBias decision) args.existingDirection = .ok taken)
    {stage : PositionPlan ⊕ SizedOrder}
    (ran : sizeOrder env decision portfolio marketContext args arith.toRounding = .ok stage) :
    ∃ order, stage = .inr order := by
  have target : (0 : ℚ) < 15 / 100 := by norm_num
  unfold sizeOrder at ran
  dsimp only at ran
  rw [if_neg (not_or.mpr trades), routed] at ran
  obtain ⟨sizing, sized, rest⟩ := bind_eq_ok_iff.mp ran
  have positive : 0 < sizing.qty := by
    rw [runSizingChain_qty arith price portfolio.totalEquity.property (arith.pos target) sized]
    exact sizedQuantity_pos arith price portfolio.totalEquity.property (arith.pos target)
  rw [if_neg (not_le.mpr positive)] at rest
  cases rest
  exact ⟨_, rfl⟩

end Order

end TradeOS.Risk
