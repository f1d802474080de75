import TradeOS.Risk.PlanChecks
import TradeOS.Risk.Holding

/-!
# Which calls return a plan

For a valid decision, portfolio and market a call of the risk engine can fail in two places. The
Kelly calculator divides by the ratio of the average win to the average loss, which is zero for an
average win of zero; the chain reaches it without a volatility to target. And the execution plan of
an order that opens a position checks prices and slices that are rounded to two digits.

The arithmetic is precise (`PreciseRounding`): exact, or that of doubles which neither overflow nor
underflow. Whether a slice is rounded to nothing can depend on the last place of a double, so the
condition is about the numbers of the arithmetic.

The filters never fail: each of them turns a quantity that is not negative into such a quantity. An
exit or a reduction is a market order, and has nothing to round. `calculate_total_iff` gives the
exact condition on the inputs.
-/

set_option autoImplicit false

namespace TradeOS.Risk

open TradeOS.Chain TradeOS.Numeric Programs

/-! ## Sizing -/

/-- All three Kelly statistics are given, with an average loss and an average win of zero. -/
def KellyUndefined (inputs : SizingInputs) : Prop :=
  inputs.kellyWinRate ≠ none ∧ inputs.kellyAvgWin = some 0 ∧ ∃ loss ∈ inputs.kellyAvgLoss, 0 < loss

section Sizing

variable {inputs : SizingInputs}

theorem returns_kellyFraction_iff (arith : PreciseRounding)
    (price : 0 < inputs.marketContext.currentPrice) :
    (Returns (kellyFraction inputs arith.toRounding) fun _ => True) ↔ ¬ KellyUndefined inputs := by
  unfold kellyFraction
  split
  · rename_i p avgWin avgLoss rate win loss
    rw [if_neg (not_le.mpr price)]
    by_cases lossless : avgLoss ≤ 0
    · rw [if_pos lossless, returns_ok_iff]
      refine iff_of_true trivial ?_
      rintro ⟨-, -, other, listed, positive⟩
      rw [loss, Option.mem_some_iff] at listed
      exact absurd positive (not_lt.mpr (listed ▸ lossless))
    · have losing : 0 < avgLoss := not_le.mp lossless
      rw [if_neg lossless]
      dsimp only
      by_cases winless : avgWin = 0
      · rw [if_pos (by rw [winless, zero_div, arith.toRounding.round_zero])]
        have undefined : KellyUndefined inputs :=
          ⟨by simp [rate], by rw [win, winless], avgLoss, by rw [loss, Option.mem_some_iff], losing⟩
        exact iff_of_false not_returns_error (not_not.mpr undefined)
      · rw [if_neg (arith.eq_zero_iff.not.mpr (div_ne_zero winless losing.ne')), returns_ok_iff]
        refine iff_of_true trivial ?_
        rintro ⟨-, zero, -⟩
        rw [win, Option.some.injEq] at zero
        exact winless zero
  · rename_i missing
    rw [returns_ok_iff]
    refine iff_of_true trivial ?_
    rintro ⟨rate, win, avgLoss, loss, -⟩
    obtain ⟨p, given⟩ := Option.ne_none_iff_exists'.mp rate
    exact missing p 0 avgLoss given win loss

/-- Past volatility targeting, the loop computes every calculator. -/
theorem returns_sizingLoop_iff {calculators : List SizingCalculator}
    (others : ∀ c ∈ calculators, c.name ≠ "volatility_targeting") (results : List SizingResult) :
    (Returns (sizingLoop inputs calculators results) fun _ => True) ↔
      ∀ c ∈ calculators, Returns (c.calculate inputs) fun _ => True := by
  induction calculators generalizing results with
  | nil =>
      refine iff_of_true ?_ nofun
      exact returns_ok_iff.mpr trivial
  | cons c calculators ih =>
      obtain ⟨other, rest⟩ := List.forall_mem_cons.mp others
      have next : ∀ result : SizingResult,
          (Returns (if c.name = "volatility_targeting" ∧ 0 < result.qty then return result
              else sizingLoop inputs calculators (results ++ [result])) fun _ => True) ↔
            ∀ d ∈ calculators, Returns (d.calculate inputs) fun _ => True := by
        intro result
        rw [if_neg fun targeted => other targeted.1, ih rest]
      rw [sizingLoop, returns_bind_iff, List.forall_mem_cons]
      simp only [next]
      rw [returns_const_iff, ← returns_true_iff]

/-- The chain fails in the Kelly calculator alone, which it reaches without a volatility. -/
theorem returns_runSizingChain_iff (arith : PreciseRounding)
    (price : 0 < inputs.marketContext.currentPrice) (equity : 0 < inputs.portfolioEquity)
    (target : 0 < inputs.targetAnnualVol) :
    (Returns (runSizingChain inputs arith.toRounding) fun _ => True) ↔
      0 < inputs.marketContext.realizedVol20d ∨ ¬ KellyUndefined inputs := by
  have others : ∀ c ∈ (sizingCalculators arith.toRounding).tail,
      c.name ≠ "volatility_targeting" := by
    simp [sizingCalculators]
  have targeted : 0 < (volatilityTargeting inputs arith.toRounding).qty ↔
      0 < inputs.marketContext.realizedVol20d := by
    rw [volatilityTargeting_qty arith price equity target]
    split
    · rename_i volatile
      exact iff_of_true (targetedQuantity_pos arith price equity target volatile) volatile
    · rename_i calm
      exact iff_of_false (lt_irrefl 0) calm
  have rest : (Returns (sizingLoop inputs (sizingCalculators arith.toRounding).tail
      [volatilityTargeting inputs arith.toRounding]) fun _ => True) ↔ ¬ KellyUndefined inputs := by
    rw [returns_sizingLoop_iff others, ← returns_kellyFraction_iff arith price]
    simp [sizingCalculators]
  rw [← targeted, ← rest]
  show (Returns (if _ ∧ 0 < (volatilityTargeting inputs arith.toRounding).qty then _ else _) _) ↔ _
  rw [returns_ite_iff]
  by_cases volatile : 0 < (volatilityTargeting inputs arith.toRounding).qty
  · rw [if_pos ⟨rfl, volatile⟩]
    exact iff_of_true (returns_pure_iff.mpr trivial) (.inl volatile)
  · rw [if_neg fun both => volatile both.2, or_iff_right volatile]
    rfl

end Sizing

/-! ## The order -/

section Order

variable {env : RiskEnv} {decision : ArbitrationDecision} {portfolio : Portfolio}
  {marketContext : Option MarketContext} {args : CallArgs}

/-- The call reaches the sizing chain: its bias trades and has a route. -/
def Routed (decision : ArbitrationDecision) (args : CallArgs) : Prop :=
  ¬(canonicalBias decision = .noTrade ∨ canonicalBias decision = .holdBias) ∧
    ∃ taken, route (canonicalBias decision) args.existingDirection = .ok taken

theorem returns_sizeOrder_iff (arith : PreciseRounding)
    (price : 0 < (callContext env decision marketContext args arith.toRounding).currentPrice) :
    (Returns (sizeOrder env decision portfolio marketContext args arith.toRounding)
        fun _ => True) ↔
      (Routed decision args →
        0 < (callContext env decision marketContext args arith.toRounding).realizedVol20d ∨
          ¬ KellyUndefined
            (sizingInputs env decision portfolio marketContext args arith.toRounding)) := by
  unfold sizeOrder
  dsimp only
  by_cases idle : canonicalBias decision = .noTrade ∨ canonicalBias decision = .holdBias
  · rw [if_pos idle, returns_ok_iff]
    exact iff_of_true trivial fun routed => absurd idle routed.1
  rw [if_neg idle]
  cases routing : route (canonicalBias decision) args.existingDirection with
  | error reason =>
      rw [returns_ok_iff]
      refine iff_of_true trivial ?_
      rintro ⟨-, taken, routed⟩
      rw [routing] at routed
      cases routed
  | ok taken =>
      have routed : Routed decision args := ⟨idle, taken, routing⟩
      have target : 0 < arith.toRounding (15 / 100) := arith.pos (by norm_num)
      have chain : (Returns
          (runSizingChain
            (sizingInputs env decision portfolio marketContext args arith.toRounding)
            arith.toRounding) fun _ => True) ↔
          0 < (callContext env decision marketContext args arith.toRounding).realizedVol20d ∨
            ¬ KellyUndefined
              (sizingInputs env decision portfolio marketContext args arith.toRounding) :=
        returns_runSizingChain_iff arith price portfolio.totalEquity.property target
      rw [forall_prop_of_true routed, ← chain]
      simp only [returns_bind_iff, returns_ite_iff, returns_pure_iff, ite_self]

/-- Only a routed call reaches the filters. -/
theorem Routed.of_order {fl : Rounding} {order : SizedOrder}
    (reached : sizeOrder env decision portfolio marketContext args fl = .ok (.inr order)) :
    Routed decision args := by
  obtain ⟨taken, _, routed, -⟩ := sizeOrder_eq_inr reached
  refine ⟨fun idle => ?_, taken, routed⟩
  unfold sizeOrder at reached
  rw [if_pos idle] at reached
  cases reached

end Order

/-! ## The filters -/

section Filters

variable (arith : PreciseRounding) (limits : RiskLimits) {args : FilterArgs}
  (equity : 0 < args.equity) (price : 0 < args.marketContext.currentPrice)
  (dollars : 0 ≤ args.marketContext.adv20dUsd)

theorem produced_correlationLimit_nonneg {fl : Rounding} {qty : ℚ} (positive : 0 < qty) :
    0 ≤ produced (args.context limits) (correlationLimitFilter fl) qty := by
  rw [produced, apply_of_pos _ _ positive]
  simp only [correlationLimitFilter, FilterArgs.context]
  split
  · exact positive.le
  · split
    · exact positive.le
    · split
      · exact positive.le
      · split
        · exact positive.le
        · split
          · exact le_refl 0
          · rename_i left
            exact (not_le.mp left).le

/-- The liquidity share is a quarter at most. -/
theorem liquidityShare_mem :
    0 ≤ liquidityShare (some limits) arith.toRounding ∧
      liquidityShare (some limits) arith.toRounding ≤ 22 / 100 := by
  have fifth : (0 : ℚ) ≤ liquidityMaxParticipation := by norm_num [liquidityMaxParticipation]
  constructor
  · refine le_min (arith.nonneg (mul_nonneg ?_ (by norm_num))) (arith.nonneg fifth)
    exact arith.nonneg limits.maxOrderSizePct.property.1.le
  · refine (min_le_right _ _).trans ((arith.le_coarse fifth).trans ?_)
    norm_num [liquidityMaxParticipation]

/-- A filter that keeps the quantity or rejects it does not make it negative. -/
theorem adjustedQty_nonneg {broken : Prop} [Decidable broken] {qty : ℚ} {no yes : String}
    (nonneg : 0 ≤ qty) :
    0 ≤ (if broken then FilterResult.rejected no else FilterResult.kept qty yes).adjustedQty := by
  split
  · exact le_refl 0
  · exact nonneg

/-- What the participation filter leaves of a quantity: all of it, or its share of the daily dollar
volume, at the limit of the medium urgency. -/
theorem produced_participationRate_cases {fl : Rounding} {qty : ℚ} (positive : 0 < qty) :
    produced (args.context limits) (participationRateFilter fl) qty = qty ∨
      (0 < args.marketContext.currentPrice ∧
        fl (maxParticipation "medium") <
          fl (fl (qty * args.marketContext.currentPrice) /
            max args.marketContext.adv20dUsd (fl (qty * args.marketContext.currentPrice))) ∧
        produced (args.context limits) (participationRateFilter fl) qty =
          fl (fl (args.marketContext.adv20dUsd * fl (maxParticipation "medium")) /
            args.marketContext.currentPrice)) := by
  rw [produced, apply_of_pos _ _ positive]
  simp only [participationRateFilter, FilterArgs.context]
  split
  · exact .inl rfl
  · rename_i known
    split
    · exact .inl rfl
    · rename_i exceeds
      exact .inr ⟨not_le.mp (not_or.mp known).2, not_le.mp exceeds, rfl⟩

/-- The participation filter does not raise a quantity, but for the rounding. -/
theorem produced_participationRate_le (dollars : 0 ≤ args.marketContext.adv20dUsd) {qty : ℚ}
    (positive : 0 < qty) :
    produced (args.context limits) (participationRateFilter arith.toRounding) qty ≤ 2 * qty := by
  set fl := arith.toRounding
  rcases @produced_participationRate_cases limits args fl qty positive with
    kept | ⟨price, exceeds, cut⟩
  · rw [kept]
    linarith
  rw [cut]
  set price' := args.marketContext.currentPrice
  set volume := args.marketContext.adv20dUsd
  set share := fl (maxParticipation "medium")
  have shared : 0 < share := arith.pos (by norm_num [maxParticipation_medium])
  have sold : 0 < qty * price' := mul_pos positive price
  have notional : 0 < fl (qty * price') := arith.pos sold
  have larger : 0 < max volume (fl (qty * price')) := lt_max_of_lt_right notional
  -- Every operation adds a tenth at most.
  have rate := arith.le_coarse (div_pos notional larger).le
  have above : share * max volume (fl (qty * price')) ≤ fl (qty * price') * (11 / 10) := by
    rw [← le_div_iff₀ larger]
    calc share ≤ fl (qty * price') / max volume (fl (qty * price')) * (11 / 10) :=
          exceeds.le.trans rate
      _ = fl (qty * price') * (11 / 10) / max volume (fl (qty * price')) := by ring
  have least : volume * share ≤ share * max volume (fl (qty * price')) := by
    rw [mul_comm]
    exact mul_le_mul_of_nonneg_left (le_max_left _ _) shared.le
  have traded := arith.le_coarse sold.le
  have dollarCut := arith.le_coarse (mul_nonneg dollars shared.le)
  have nonneg : 0 ≤ fl (volume * share) := fl.nonneg (mul_nonneg dollars shared.le)
  have bound : fl (volume * share) / price' ≤ qty * (1331 / 1000) := by
    rw [div_le_iff₀ price]
    linarith
  have last := arith.le_coarse (div_nonneg nonneg price.le)
  linarith

include equity price dollars

/-- No filter makes a quantity negative. -/
theorem produced_nonneg {f : RiskFilter} (listed : f ∈ riskFilters arith.toRounding) (qty : ℚ) :
    0 ≤ produced (args.context limits) f qty := by
  by_cases positive : 0 < qty
  · simp only [riskFilters, List.mem_cons, List.not_mem_nil, or_false] at listed
    rcases listed with rfl | rfl | rfl | rfl | rfl | rfl | rfl
    · rw [produced_positionLimit limits args positive]
      exact le_min positive.le ((positionCap_pos limits arith _ equity).le)
    · rw [produced, apply_of_pos _ _ positive]
      exact adjustedQty_nonneg positive.le
    · rw [produced, apply_of_pos _ _ positive]
      exact adjustedQty_nonneg positive.le
    · exact produced_correlationLimit_nonneg limits positive
    · rw [produced_liquidityCap limits args positive]
      split
      · rename_i liquid
        have share := liquidityShare_mem arith limits
        exact le_min positive.le (arith.nonneg (mul_nonneg liquid.le share.1))
      · exact positive.le
    · rcases @produced_participationRate_cases limits args arith.toRounding _ positive with
        kept | ⟨-, -, cut⟩
      · rw [kept]
        exact positive.le
      · have share : 0 < arith.toRounding (maxParticipation "medium") :=
          arith.pos (by norm_num [maxParticipation_medium])
        rw [cut]
        exact arith.nonneg (div_nonneg (arith.nonneg (mul_nonneg dollars share.le)) price.le)
    · rw [produced_slippageLimit limits args positive]
      exact positive.le
  · exact (produced_of_nonpos f _ positive).ge

theorem returns_filterLoop (originalQty : ℚ) {filters : List RiskFilter}
    (listed : ∀ f ∈ filters, f ∈ riskFilters arith.toRounding) {state : FilterState}
    (nonneg : 0 ≤ state.currentQty) :
    Returns (filterLoop limits (args.context limits) originalQty filters state)
      fun last => 0 ≤ last.currentQty := by
  induction filters generalizing state with
  | nil => exact returns_ok_iff.mpr nonneg
  | cons f filters ih =>
      obtain ⟨here, rest⟩ := List.forall_mem_cons.mp listed
      have kept : 0 ≤ produced (args.context limits) f state.currentQty :=
        produced_nonneg arith limits equity price dollars here state.currentQty
      have step : Returns (filterStep limits (args.context limits) originalQty state f)
          fun next => 0 ≤ next.currentQty := by
        unfold filterStep adjustmentOf
        rw [returns_bind_iff, returns_ite_iff]
        split
        · simp only [returns_bind_iff, returns_check_iff, returns_pure_iff]
          exact ⟨nonneg, kept, kept⟩
        · exact returns_ok_iff.mpr (returns_pure_iff.mpr kept)
      exact step.bind fun next below => ih rest below

/-- The filters return, for every quantity. -/
theorem returns_runFilters {engine : RiskEngine} (qty : ℚ) :
    Returns (runFilters engine args qty arith.toRounding) fun _ => True := by
  unfold runFilters
  rw [returns_ite_iff]
  split
  · exact returns_ok_iff.mpr trivial
  · rename_i positive
    refine (returns_filterLoop arith engine.riskLimits equity price dollars qty
      (fun f listed => listed) (not_le.mp positive).le).bind fun state _ => ?_
    exact returns_pure_iff.mpr trivial

end Filters

/-! ## The call -/

/-- A market that the engine can work with: a positive price, and no negative volume, in shares or
in dollars. -/
structure ValidMarket (context : MarketContext) : Prop where
  price : 0 < context.currentPrice
  volume : 0 ≤ context.avgDailyVolume20d
  dollars : 0 ≤ context.adv20dUsd

/-- A context that is built from the keyword arguments is valid. -/
theorem validMarket_build (arith : PreciseRounding) (symbol : String) (timestamp : Timestamp)
    (currentPrice avgDailyVolume20d realizedVol20d atr14 marketCap : ℚ) :
    ValidMarket (buildMarketContext symbol timestamp currentPrice avgDailyVolume20d realizedVol20d
      atr14 marketCap arith.toRounding) where
  price := lt_max_of_lt_right (arith.pos (by norm_num [minPrice]))
  volume := le_max_right _ _
  dollars := le_max_right _ _

/-- A call without a context works with a valid one. -/
theorem validMarket_callContext (arith : PreciseRounding) (env : RiskEnv)
    (decision : ArbitrationDecision) (args : CallArgs) :
    ValidMarket (callContext env decision none args arith.toRounding) :=
  validMarket_build arith _ _ _ _ _ _ _

/-- An order of a size that opens a position keeps its checked fields positive. -/
def OpeningHolds (sqrt : ℚ → ℚ) (direction : Direction) (context : MarketContext)
    (urgency : String) (size : ℚ) (fl : Rounding := exactRounding) : Prop :=
  OrderHolds direction context.currentPrice size (impactBpsOf sqrt size context fl)
    (openingAlgorithm (impactBpsOf sqrt size context fl) context.realizedVol20d urgency fl) fl

section Call

variable (engine : RiskEngine) (env : RiskEnv) (decision : ArbitrationDecision)
  (portfolio : Portfolio) (marketContext : Option MarketContext) (args : CallArgs)

/-- The direction that a decision trades in. -/
def orderDirection : Direction :=
  match route (canonicalBias decision) args.existingDirection with
  | .ok taken => taken.direction
  | .error _ => .flat

/-- The bias exits or reduces a position. -/
def closes (bias : Bias) : Bool := bias = .exitBias ∨ bias = .reduceRisk

/-- The size that the filters leave of the order of a call. -/
def sizeLeft (fl : Rounding := exactRounding) : ℚ :=
  filteredSize engine.riskLimits
    (filterArgs env decision portfolio marketContext args (orderSign decision args) fl)
    (orderQuantity env decision portfolio marketContext args fl) fl

/-- What the inputs of a call that is routed must satisfy. The sizing must not divide by zero. An
order that opens a position, that the loss rules accept and the filters leave something of, must
keep its prices and slices positive. -/
structure CallHolds (fl : Rounding := exactRounding) : Prop where
  sizing : 0 < (callContext env decision marketContext args fl).realizedVol20d ∨
    ¬ KellyUndefined (sizingInputs env decision portfolio marketContext args fl)
  order : closes (canonicalBias decision) = false →
    ¬ CallRejected engine env decision portfolio marketContext args fl →
    0 < sizeLeft engine env decision portfolio marketContext args fl →
    OpeningHolds env.planning.sqrt (orderDirection decision args)
      (callContext env decision marketContext args fl) args.urgency
      (sizeLeft engine env decision portfolio marketContext args fl) fl

variable {engine env decision portfolio marketContext args}

/-- What the filters leave is within the daily volume. -/
theorem filteredSize_le_volume (arith : PreciseRounding) (limits : RiskLimits) {args : FilterArgs}
    (dollars : 0 ≤ args.marketContext.adv20dUsd)
    (liquid : 0 < args.marketContext.avgDailyVolume20d) (qty : ℚ) :
    filteredSize limits args qty arith.toRounding ≤ args.marketContext.avgDailyVolume20d := by
  have share := liquidityShare_mem arith limits
  have capped : cappedSize limits args qty arith.toRounding ≤
      args.marketContext.avgDailyVolume20d / 4 := by
    unfold cappedSize
    dsimp only
    rw [if_pos liquid]
    refine (min_le_right _ _).trans ?_
    calc arith.toRounding (args.marketContext.avgDailyVolume20d *
            liquidityShare (some limits) arith.toRounding)
        ≤ args.marketContext.avgDailyVolume20d *
            liquidityShare (some limits) arith.toRounding * (11 / 10) :=
          arith.le_coarse (mul_nonneg liquid.le share.1)
      _ ≤ args.marketContext.avgDailyVolume20d * (22 / 100) * (11 / 10) :=
          mul_le_mul_of_nonneg_right (mul_le_mul_of_nonneg_left share.2 liquid.le) (by norm_num)
      _ ≤ args.marketContext.avgDailyVolume20d / 4 := by linarith
  by_cases positive : 0 < cappedSize limits args qty arith.toRounding
  · have filtered := produced_participationRate_le arith limits dollars positive
    rw [produced_cappedSize positive] at filtered
    linarith
  · exact (not_lt.mp fun left => positive (cappedSize_pos left)).trans liquid.le

theorem returns_positionPlanOf (confident : 0 ≤ decision.confidence ∧ decision.confidence ≤ 1)
    {fl : Rounding} (price : 0 < (callContext env decision marketContext args fl).currentPrice)
    {order : SizedOrder} {filtered : FilterState} (sized : 0 ≤ order.sizing.qty)
    (left : 0 ≤ if filtered.veto then 0 else filtered.currentQty) :
    Returns (positionPlanOf env decision portfolio marketContext args order filtered fl) fun made =>
      made.finalQuantity.val = (if filtered.veto then 0 else filtered.currentQty) ∧
        made.direction = order.route.direction ∧ made.bias = order.bias := by
  simp only [positionPlanOf, returns_bind_iff, returns_check_iff, returns_pure_iff]
  exact ⟨confident, sized, left, fl.nonneg (mul_nonneg left price.le), price, trivial, trivial,
    trivial⟩

/-- A market order has nothing to round. -/
theorem orderHolds_market (direction : Direction) (price size impactBps : ℚ) (fl : Rounding) :
    OrderHolds direction price size impactBps .market fl where
  prices := fun other => absurd rfl other
  slices := fun slicing => absurd rfl slicing.1

section Plan

variable (arith : PreciseRounding)
  (valid : ValidMarket (callContext env decision marketContext args arith.toRounding))

include valid

/-- The filters veto an order that the loss rules reject or that nothing is left of, and leave the
size of the call otherwise. -/
theorem runFilters_call (engine : RiskEngine) {order : SizedOrder}
    (reached : sizeOrder env decision portfolio marketContext args arith.toRounding =
      .ok (.inr order)) :
    ∃ filtered, runFilters engine
        (filterArgs env decision portfolio marketContext args order.route.directionSign
          arith.toRounding) order.sizing.qty arith.toRounding = .ok filtered ∧
      (filtered.veto = true ↔
        CallRejected engine env decision portfolio marketContext args arith.toRounding ∨
          sizeLeft engine env decision portfolio marketContext args arith.toRounding ≤ 0) ∧
      (filtered.veto = false → filtered.currentQty =
        sizeLeft engine env decision portfolio marketContext args arith.toRounding) := by
  have positive := sizeOrder_positive reached
  obtain ⟨quantity, sign⟩ := sizeOrder_quantity arith valid.price reached
  rw [quantity] at positive
  rw [quantity, sign]
  have returns : Returns (runFilters engine
      (filterArgs env decision portfolio marketContext args (orderSign decision args)
        arith.toRounding)
      (orderQuantity env decision portfolio marketContext args arith.toRounding)
      arith.toRounding) fun _ => True := by
    refine returns_runFilters arith ?_ ?_ ?_ _
    · exact portfolio.totalEquity.property
    · exact valid.price
    · exact valid.dollars
  obtain ⟨filtered, ran, -⟩ := returns
  exact ⟨filtered, ran, runFilters_rejects_iff arith positive ran,
    runFilters_filteredSize positive ran⟩

variable (rooted : ∀ q, 0 ≤ q → 0 ≤ env.planning.sqrt q)

include rooted

/-- An exit or a reduction is planned, and so is an order with nothing left of it. -/
theorem returns_executionPlanOf_iff {positionPlan : PositionPlan}
    (cut : 0 < (callContext env decision marketContext args arith.toRounding).avgDailyVolume20d →
      positionPlan.finalQuantity.val ≤
        (callContext env decision marketContext args arith.toRounding).avgDailyVolume20d) :
    (Returns (executionPlanOf env decision marketContext args positionPlan arith.toRounding)
        fun _ => True) ↔
      (positionPlan.isReducing = false → 0 < positionPlan.finalQuantity.val →
        OpeningHolds env.planning.sqrt positionPlan.direction
          (callContext env decision marketContext args arith.toRounding) args.urgency
          positionPlan.finalQuantity.val arith.toRounding) := by
  unfold executionPlanOf
  dsimp only
  by_cases positive : 0 < positionPlan.finalQuantity.val
  · rw [if_pos positive, forall_prop_of_true positive]
    simp only [returns_bind_iff, returns_pure_iff]
    rw [returns_plan_holds_iff arith rooted valid.price cut rfl]
    cases reducing : positionPlan.isReducing with
    | true =>
        rw [selectAlgorithm_of_reducing _ _ _ _ reducing]
        exact iff_of_true (orderHolds_market _ _ _ _ _)
          fun opens => absurd opens Bool.true_eq_false.mp
    | false =>
        rw [selectAlgorithm_of_opening _ _ _ _ reducing]
        exact ⟨fun holds _ => holds, fun holds => holds rfl⟩
  · rw [if_neg positive, returns_ok_iff]
    exact iff_of_true trivial fun _ some => absurd some positive

/-- From the filters on, a call fails in the execution plan alone. -/
theorem returns_finishOrder_iff (confident : 0 ≤ decision.confidence ∧ decision.confidence ≤ 1)
    {order : SizedOrder}
    (reached : sizeOrder env decision portfolio marketContext args arith.toRounding =
      .ok (.inr order)) :
    (Returns (finishOrder engine env decision portfolio marketContext args order
        arith.toRounding) fun _ => True) ↔
      (closes (canonicalBias decision) = false →
        ¬ CallRejected engine env decision portfolio marketContext args arith.toRounding →
        0 < sizeLeft engine env decision portfolio marketContext args arith.toRounding →
        OpeningHolds env.planning.sqrt (orderDirection decision args)
          (callContext env decision marketContext args arith.toRounding) args.urgency
          (sizeLeft engine env decision portfolio marketContext args arith.toRounding)
          arith.toRounding) := by
  have positive := sizeOrder_positive reached
  obtain ⟨filtered, ran, vetoed, passed⟩ := runFilters_call arith valid engine reached
  obtain ⟨taken, sizing, routed, -, -, rfl⟩ := sizeOrder_eq_inr reached
  have direction : orderDirection decision args = taken.direction := by
    rw [orderDirection, routed]
  have left : 0 ≤ if filtered.veto then 0 else filtered.currentQty := by
    cases veto : filtered.veto with
    | true => exact le_refl 0
    | false => exact ((runFilters_veto ran).2 veto).le
  have planned : Returns (positionPlanOf env decision portfolio marketContext args _ filtered
      arith.toRounding) _ :=
    returns_positionPlanOf confident valid.price positive.le left
  obtain ⟨made, built, size, towards, kept⟩ := planned
  have reducing : made.isReducing = closes (canonicalBias decision) := by
    rw [PositionPlan.isReducing, kept, closes]
  simp only [finishOrder, ran, built, returns_bind_iff, returns_ok_iff, returns_pure_iff]
  cases veto : filtered.veto with
  | true =>
      rw [veto, if_pos rfl] at size
      have cut : made.finalQuantity.val ≤
          (callContext env decision marketContext args arith.toRounding).avgDailyVolume20d :=
        size.trans_le valid.volume
      rw [returns_executionPlanOf_iff arith valid rooted fun _ => cut, size]
      refine iff_of_true (fun _ some => absurd some (lt_irrefl 0)) fun _ accepted some => ?_
      rcases vetoed.mp veto with rejected | empty
      · exact absurd rejected accepted
      · exact absurd some (not_lt.mpr empty)
  | false =>
      obtain ⟨accepted, -⟩ := not_or.mp (vetoed.not.mp (veto ▸ Bool.false_ne_true))
      rw [veto, if_neg Bool.false_ne_true, passed veto] at size
      have cut (liquid : 0 <
          (callContext env decision marketContext args arith.toRounding).avgDailyVolume20d) :
          made.finalQuantity.val ≤
            (callContext env decision marketContext args arith.toRounding).avgDailyVolume20d := by
        rw [size]
        exact filteredSize_le_volume arith engine.riskLimits valid.dollars liquid _
      rw [returns_executionPlanOf_iff arith valid rooted cut, size, reducing, towards, direction,
        forall_prop_of_true accepted]

end Plan

/-- **A call returns a plan exactly if its route holds.** The decision has a confidence in the unit
interval, the market is valid, and a square root is not negative. A call that is routed must not
divide by zero in the sizing, and an order that it opens must keep its prices and slices
positive. -/
theorem calculate_total_iff (arith : PreciseRounding)
    (confident : 0 ≤ decision.confidence ∧ decision.confidence ≤ 1)
    (valid : ValidMarket (callContext env decision marketContext args arith.toRounding))
    (rooted : ∀ q, 0 ≤ q → 0 ≤ env.planning.sqrt q) :
    (∃ returned, calculate engine env decision portfolio marketContext args arith.toRounding =
        .ok returned) ↔
      (Routed decision args →
        CallHolds engine env decision portfolio marketContext args arith.toRounding) := by
  constructor
  · rintro ⟨returned, ran⟩ routed
    obtain ⟨stage, sized, rest⟩ := bind_eq_ok_iff.mp ran
    have sizing := (returns_sizeOrder_iff arith valid.price).mp ⟨stage, sized, trivial⟩ routed
    obtain ⟨order, rfl⟩ :=
      sizeOrder_reaches arith valid.price (not_or.mp routed.1) routed.2.choose_spec sized
    have finished : Returns (finishOrder engine env decision portfolio marketContext args order
        arith.toRounding) fun _ => True := ⟨returned, rest, trivial⟩
    exact ⟨sizing, (returns_finishOrder_iff arith valid rooted confident sized).mp finished⟩
  · intro holds
    have sizing : Returns (sizeOrder env decision portfolio marketContext args arith.toRounding)
        fun _ => True :=
      (returns_sizeOrder_iff arith valid.price).mpr fun routed => (holds routed).sizing
    obtain ⟨stage, sized, -⟩ := sizing
    unfold calculate
    rw [sized]
    cases stage with
    | inl zero => exact ⟨zero, rfl⟩
    | inr order =>
        have order := (holds (.of_order sized)).order
        exact returns_true_iff.mp
          ((returns_finishOrder_iff arith valid rooted confident sized).mpr order)

end Call

theorem twelveDigitRoot_nonneg (q : ℚ) : 0 ≤ twelveDigitRoot q :=
  binary64.nonneg (div_nonneg (Nat.cast_nonneg _) (by norm_num))

/-- The call of a long decision in doubles, for an account. -/
abbrev doubleCall (equity : PositiveRational) (args : CallArgs) : Except RunError PositionPlan :=
  calculate {} doubleEnv sampleDecision { totalEquity := equity } none args
    doublesUnbounded.toRounding

/-- A stock at 300 with a volatility of 200 percent. -/
def edgeArgs : CallArgs := { sampleArgs with currentPrice := 300, realizedVol20d := 2 }

/-- An account of 400 buys a tenth of a share. The double is above it, so that its twentieth part is
rounded up to a slice of 0.01. -/
theorem calculate_total_sample :
    ∃ returned, doubleCall ⟨400, by decide +kernel⟩ edgeArgs = .ok returned := by
  refine (calculate_total_iff doublesUnbounded
    ⟨by decide +kernel, by decide +kernel⟩
    (validMarket_callContext _ _ _ _) fun q _ => twelveDigitRoot_nonneg q).mpr
      fun _ => ⟨.inl (by decide +kernel), fun _ _ _ => ⟨fun _ => ⟨?_, ?_⟩, fun _ => ?_⟩⟩
  · decide +kernel
  · decide +kernel
  · decide +kernel

/-- A stock without a volatility, and a strategy that never wins. -/
def winlessArgs : CallArgs :=
  { sampleArgs with
    realizedVol20d := 0
    kellyWinRate := some 0
    kellyAvgWin := some 0
    kellyAvgLoss := some 1 }

/-- A volatile stock, of which an account of 90 buys less than a tenth of a share. -/
def sliverArgs : CallArgs :=
  { sampleArgs with currentPrice := 1000, realizedVol20d := doublesUnbounded.toRounding (2 / 5) }

/-- An average win of zero divides by zero, and the slices of a small order are empty. -/
theorem calculate_fails_on_valid_inputs :
    ValidMarket (callContext doubleEnv sampleDecision none winlessArgs
        doublesUnbounded.toRounding) ∧
      doubleCall ⟨100000, by decide +kernel⟩ winlessArgs = .error .zeroDivision ∧
      ValidMarket (callContext doubleEnv sampleDecision none sliverArgs
        doublesUnbounded.toRounding) ∧
      doubleCall ⟨90, by decide +kernel⟩ sliverArgs =
        .error (.validation "ExecutionSlice.quantity") := by
  refine ⟨validMarket_callContext _ _ _ _, eq_error_of_failure ?_, validMarket_callContext _ _ _ _,
    eq_error_of_failure ?_⟩
  · decide +kernel
  · decide +kernel

end TradeOS.Risk
