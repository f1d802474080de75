import TradeOS.Risk.PlanChecks
import TradeOS.Risk.SizingForm
import TradeOS.Risk.Trail

/-!
# What the limits guarantee

For a positive quantity every filter has a closed form: the position, liquidity
and participation filters take a minimum, the loss, drawdown and slippage filters
keep the quantity or reject it, and the correlation filter scales it and rounds
to six digits. Only the rounding can raise the quantity, by at most half a unit
of the sixth digit.

In a run without a veto the quantity is positive throughout, so the caps of all
filters hold at the end (`caps_hold`).

The filters never see the urgency nor the slippage of the plan they guard.
`plan_within_limits_iff` gives the exact calls on which the returned plan is
within the participation limit of its urgency and within the slippage limit.
-/

set_option autoImplicit false

namespace TradeOS.Risk

open TradeOS.Chain TradeOS.Numeric

theorem apply_of_pos (f : RiskFilter) (context : FilterContext) {qty : ℚ} (positive : 0 < qty) :
    f.apply context qty = f.filter context qty := by
  rw [RiskFilter.apply, if_neg (not_le.mpr positive)]

theorem produced_of_nonpos (f : RiskFilter) (context : FilterContext) {qty : ℚ}
    (empty : ¬ 0 < qty) : produced context f qty = 0 := by
  rw [produced, RiskFilter.apply, if_pos (not_lt.mp empty)]
  rfl

/-! ## The closed form of each filter -/

/-- A filter that cuts to a limit takes the minimum. -/
theorem adjustedQty_cut (qty limit : ℚ) (within beyond : String) :
    (if qty ≤ limit then FilterResult.kept qty within
      else FilterResult.cut limit beyond).adjustedQty = min qty limit := by
  split
  · rename_i fits
    exact (min_eq_left fits).symm
  · rename_i exceeds
    exact (min_eq_right (not_le.mp exceeds).le).symm

/-- A filter that can only reject keeps the quantity when it passes. -/
theorem adjustedQty_of_passed {broken : Prop} [Decidable broken] {qty : ℚ} {no yes : String}
    (passes : (if broken then FilterResult.rejected no
      else FilterResult.kept qty yes).passed = true) :
    (if broken then FilterResult.rejected no else FilterResult.kept qty yes).adjustedQty = qty := by
  split at passes
  · cases passes
  · rename_i intact
    rw [if_neg intact]
    rfl

section Filters

variable (limits : RiskLimits) (args : FilterArgs) {fl : Rounding} {qty : ℚ}

theorem produced_positionLimit (positive : 0 < qty) :
    produced (args.context limits) (positionLimitFilter fl) qty =
      min qty (positionCap limits args.equity args.currentPrice fl) := by
  rw [produced, apply_of_pos _ _ positive]
  exact adjustedQty_cut qty (positionCap limits args.equity args.currentPrice fl) _ _

theorem produced_lossLimit (positive : 0 < qty)
    (passes : ((lossLimitFilter fl).apply (args.context limits) qty).passed = true) :
    produced (args.context limits) (lossLimitFilter fl) qty = qty := by
  rw [apply_of_pos _ _ positive] at passes
  rw [produced, apply_of_pos _ _ positive]
  exact adjustedQty_of_passed passes

theorem produced_drawdownLimit (positive : 0 < qty)
    (passes : ((drawdownLimitFilter fl).apply (args.context limits) qty).passed = true) :
    produced (args.context limits) (drawdownLimitFilter fl) qty = qty := by
  rw [apply_of_pos _ _ positive] at passes
  rw [produced, apply_of_pos _ _ positive]
  exact adjustedQty_of_passed passes

/-- The slippage that the filter sees is always zero. -/
theorem produced_slippageLimit (positive : 0 < qty) :
    produced (args.context limits) (slippageLimitFilter fl) qty = qty := by
  rw [produced, apply_of_pos _ _ positive]
  simp only [slippageLimitFilter, FilterArgs.context]
  rw [if_pos (fl.nonneg limits.maxSlippageBps.property)]
  rfl

theorem produced_liquidityCap (positive : 0 < qty) :
    produced (args.context limits) (liquidityCapFilter fl) qty =
      if 0 < args.marketContext.avgDailyVolume20d then
        min qty (fl (args.marketContext.avgDailyVolume20d * liquidityShare (some limits) fl))
      else qty := by
  rw [produced, apply_of_pos _ _ positive]
  simp only [liquidityCapFilter, FilterArgs.context]
  by_cases traded : 0 < args.marketContext.avgDailyVolume20d
  · rw [if_neg (not_le.mpr traded), if_pos traded]
    exact adjustedQty_cut qty _ _ _
  · rw [if_pos (not_lt.mp traded), if_neg traded]
    rfl

/-- A share of the larger of two volumes is within a limit below one exactly when
it is within that limit of the first. -/
theorem participation_le_iff {notional volume limit : ℚ} (positive : 0 < notional)
    (nonneg : 0 ≤ limit) (below : limit < 1) :
    notional / max volume notional ≤ limit ↔ notional ≤ volume * limit := by
  have larger : 0 < max volume notional := lt_max_of_lt_right positive
  rw [div_le_iff₀ larger]
  rcases le_total notional volume with small | large
  · rw [max_eq_left small, mul_comm]
  · rw [max_eq_right large]
    have exceeding : limit * notional < notional := by
      calc limit * notional < 1 * notional := mul_lt_mul_of_pos_right below positive
        _ = notional := one_mul notional
    refine iff_of_false (not_le.mpr exceeding) (not_le.mpr ?_)
    calc volume * limit ≤ notional * limit := mul_le_mul_of_nonneg_right large nonneg
      _ = limit * notional := mul_comm _ _
      _ < notional := exceeding

theorem maxParticipation_medium : maxParticipation "medium" = 1 / 10 := by
  show (10 / 100 : ℚ) = 1 / 10
  norm_num

/-- The filter always applies the limit of the medium urgency. -/
theorem produced_participationRate (positive : 0 < qty) :
    produced (args.context limits) participationRateFilter qty =
      if 0 < args.marketContext.avgDailyVolume20d ∧ 0 < args.marketContext.currentPrice then
        min qty (args.marketContext.adv20dUsd * (1 / 10) / args.marketContext.currentPrice)
      else qty := by
  have medium : maxParticipation (args.context limits).urgency = 1 / 10 := maxParticipation_medium
  rw [produced, apply_of_pos _ _ positive]
  simp only [participationRateFilter]
  rw [medium]
  simp only [FilterArgs.context]
  by_cases traded : 0 < args.marketContext.avgDailyVolume20d ∧ 0 < args.marketContext.currentPrice
  · have known : ¬(args.marketContext.avgDailyVolume20d ≤ 0 ∨
        args.marketContext.currentPrice ≤ 0) :=
      not_or.mpr ⟨not_le.mpr traded.1, not_le.mpr traded.2⟩
    have fits : qty * args.marketContext.currentPrice /
          max args.marketContext.adv20dUsd (qty * args.marketContext.currentPrice) ≤ 1 / 10 ↔
        qty ≤ args.marketContext.adv20dUsd * (1 / 10) / args.marketContext.currentPrice := by
      rw [participation_le_iff (mul_pos positive traded.2) (by norm_num) (by norm_num),
        le_div_iff₀ traded.2]
    rw [if_neg known, if_pos traded, if_congr fits rfl rfl]
    exact adjustedQty_cut qty _ _ _
  · have unknown : args.marketContext.avgDailyVolume20d ≤ 0 ∨
        args.marketContext.currentPrice ≤ 0 := by
      rcases not_and_or.mp traded with volume | price
      · exact .inl (not_lt.mp volume)
      · exact .inr (not_lt.mp price)
    rw [if_pos unknown, if_neg traded]
    rfl

theorem reductionRatio_le_one {maxCorr absCorr : ℚ} (breached : maxCorr < absCorr) :
    reductionRatio maxCorr absCorr ≤ 1 := by
  have width : 0 < max (1 - maxCorr) (1 / 10 ^ 6) := lt_max_of_lt_right (by norm_num)
  have overflow : 0 ≤ min ((absCorr - maxCorr) / max (1 - maxCorr) (1 / 10 ^ 6)) 1 :=
    le_min (div_nonneg (by linarith) width.le) zero_le_one
  exact max_le (by norm_num) (by linarith)

/-- The rounding of the correlation filter. -/
def correlationSlack : ℚ := 1 / (2 * 10 ^ 6)

theorem produced_correlationLimit_le (positive : 0 < qty) :
    produced (args.context limits) correlationLimitFilter qty ≤ qty + correlationSlack := by
  have slack : 0 ≤ correlationSlack := by norm_num [correlationSlack]
  have kept : qty ≤ qty + correlationSlack := by linarith
  rw [produced, apply_of_pos _ _ positive]
  simp only [correlationLimitFilter, FilterArgs.context]
  split
  · exact kept
  · split
    · exact kept
    · rename_i resolved _
      split
      · exact kept
      · rename_i breached
        split
        · exact kept
        · split
          · exact (add_nonneg positive.le slack)
          · have ratio := reductionRatio_le_one (not_le.mp breached)
            calc roundTo 6 (qty * reductionRatio limits.maxCorrelation.val |resolved|)
                ≤ qty * reductionRatio limits.maxCorrelation.val |resolved| + correlationSlack :=
                  roundTo_le_add 6 _
              _ ≤ qty * 1 + correlationSlack :=
                  add_le_add_left (mul_le_mul_of_nonneg_left ratio positive.le) _
              _ = qty + correlationSlack := by rw [mul_one]

end Filters

/-! ## The caps at the end of the chain -/

/-- What a filter may add to the quantity it receives. -/
def slackOf (f : RiskFilter) : ℚ := if f.name = "max_correlation" then correlationSlack else 0

/-- A filter that passes adds at most its slack. -/
theorem produced_le (limits : RiskLimits) (args : FilterArgs) {f : RiskFilter}
    (member : f ∈ riskFilters) {qty : ℚ} (positive : 0 < qty)
    (passes : (f.apply (args.context limits) qty).passed = true) :
    produced (args.context limits) f qty ≤ qty + slackOf f := by
  simp only [riskFilters, List.mem_cons, List.not_mem_nil, or_false] at member
  rcases member with rfl | rfl | rfl | rfl | rfl | rfl | rfl
  · rw [produced_positionLimit limits args positive]
    exact (min_le_left _ _).trans (le_add_of_nonneg_right (le_refl 0))
  · rw [produced_lossLimit limits args positive passes]
    exact le_add_of_nonneg_right (le_refl 0)
  · rw [produced_drawdownLimit limits args positive passes]
    exact le_add_of_nonneg_right (le_refl 0)
  · exact produced_correlationLimit_le limits args positive
  · rw [produced_liquidityCap limits args positive]
    refine le_trans ?_ (le_add_of_nonneg_right (le_refl 0))
    split
    · exact min_le_left _ _
    · exact le_refl qty
  · rw [produced_participationRate limits args positive]
    refine le_trans ?_ (le_add_of_nonneg_right (le_refl 0))
    split
    · exact min_le_left _ _
    · exact le_refl qty
  · rw [produced_slippageLimit limits args positive]
    exact le_add_of_nonneg_right (le_refl 0)

/-- In a run without a veto every filter passes a positive quantity. -/
theorem runFilters_passed {engine : RiskEngine} {args : FilterArgs} {qty : ℚ} {fl : Rounding}
    (positive : 0 < qty) {filtered : FilterState}
    (ran : runFilters engine args qty fl = .ok filtered) (noVeto : filtered.veto = false) :
    ∀ s ∈ steps (produced (args.context engine.riskLimits)) (riskFilters fl) qty,
      0 < s.before ∧ (s.stage.apply (args.context engine.riskLimits) s.before).passed = true := by
  obtain ⟨quantity, _, _, _, veto⟩ := runFilters_trail positive ran
  have final := (runFilters_veto ran).2 noVeto
  rw [quantity] at final
  have alive := (before_of_result (p := fun q => 0 < q)
    (fun f _ q empty => by rw [produced_of_nonpos f _ empty]; exact lt_irrefl 0) final).2
  intro s member
  refine ⟨alive s member, ?_⟩
  by_contra fails
  rw [Bool.not_eq_true] at fails
  have flagged := veto.mpr (.inl ⟨s, member, fails⟩)
  rw [noVeto] at flagged
  cases flagged

/-- **The filter chain only shrinks and every cap holds at the end**, up to the
rounding of the correlation filter. -/
theorem caps_hold (engine : RiskEngine) (args : FilterArgs) (qty : ℚ) (positive : 0 < qty)
    (filtered : FilterState) (ran : runFilters engine args qty = .ok filtered)
    (noVeto : filtered.veto = false) :
    filtered.currentQty ≤ qty + 5 / 10 ^ 7 ∧
      filtered.currentQty ≤
        engine.riskLimits.maxPositionPct.val * args.equity / max args.currentPrice (1 / 100) +
          5 / 10 ^ 7 ∧
      (0 < args.marketContext.avgDailyVolume20d →
        filtered.currentQty ≤ args.marketContext.avgDailyVolume20d *
          min (10 * engine.riskLimits.maxOrderSizePct.val) (20 / 100)) ∧
      (0 < args.marketContext.avgDailyVolume20d → 0 < args.marketContext.currentPrice →
        filtered.currentQty * args.marketContext.currentPrice ≤
          10 / 100 * args.marketContext.adv20dUsd) := by
  set context := args.context engine.riskLimits
  have quantity : filtered.currentQty = result (produced context) riskFilters qty :=
    (runFilters_trail positive ran).1
  have passed := runFilters_passed positive ran noVeto
  have shrinks : ∀ s ∈ steps (produced context) riskFilters qty,
      s.after ≤ s.before + slackOf s.stage := by
    intro s member
    obtain ⟨listed, after⟩ := step_eq member
    rw [after]
    exact produced_le engine.riskLimits args listed (passed s member).1 (passed s member).2
  rw [quantity]
  refine ⟨?_, ?_, fun traded => ?_, fun traded priced => ?_⟩
  · have slack : (riskFilters.map slackOf).sum = 5 / 10 ^ 7 := by
      with_unfolding_all decide
    exact slack ▸ result_le_add_slack slackOf shrinks
  · have slack : ((riskFilters.drop 1).map slackOf).sum = 5 / 10 ^ 7 := by
      with_unfolding_all decide
    rw [← slack]
    refine result_le_cap slackOf [] positionLimitFilter (riskFilters.drop 1) shrinks
      fun s member stage => ?_
    rw [(step_eq member).2, stage, produced_positionLimit _ _ (passed s member).1, positionCap,
      mul_comm args.equity]
    exact min_le_right _ _
  · have slack : ((riskFilters.drop 5).map slackOf).sum = 0 := by with_unfolding_all decide
    have capped : result (produced context) riskFilters qty ≤
        args.marketContext.avgDailyVolume20d *
            min (10 * engine.riskLimits.maxOrderSizePct.val) (20 / 100) +
          ((riskFilters.drop 5).map slackOf).sum := by
      refine result_le_cap slackOf (riskFilters.take 4) liquidityCapFilter (riskFilters.drop 5)
        shrinks fun s member stage => ?_
      rw [(step_eq member).2, stage, produced_liquidityCap _ _ (passed s member).1,
        if_pos traded, liquidityShare, mul_comm _ 10]
      exact min_le_right _ _
    rw [slack, add_zero] at capped
    exact capped
  · have slack : ((riskFilters.drop 6).map slackOf).sum = 0 := by with_unfolding_all decide
    have capped : result (produced context) riskFilters qty ≤
        args.marketContext.adv20dUsd * (1 / 10) / args.marketContext.currentPrice +
          ((riskFilters.drop 6).map slackOf).sum := by
      refine result_le_cap slackOf (riskFilters.take 5) participationRateFilter
        (riskFilters.drop 6) shrinks fun s member stage => ?_
      rw [(step_eq member).2, stage, produced_participationRate _ _ (passed s member).1,
        if_pos ⟨traded, priced⟩]
      exact min_le_right _ _
    rw [slack, add_zero, le_div_iff₀ priced] at capped
    linarith

/-- A run that every cap changes: 100000 shares at a price of 1 against an equity
of 200000, a correlation of 0.8 and a daily volume of 50000 shares. -/
def cappedArgs : FilterArgs where
  directionSign := 1
  symbol := "AAPL"
  equity := 200000
  marketContext :=
    { symbol := "AAPL", timestamp := 0, currentPrice := 1, avgDailyVolume20d := 50000,
      adv20dUsd := 50000 }
  currentPrice := 1
  correlationValue := some (8 / 10)

theorem caps_hold_sample :
    ∃ filtered, runFilters {} cappedArgs 100000 = .ok filtered ∧ filtered.currentQty = 5000 ∧
      filtered.currentQty * 1 ≤ 10 / 100 * 50000 := by
  have computed : (runFilters {} cappedArgs 100000).toOption.map
      (fun filtered => (filtered.currentQty, filtered.veto)) = some (5000, false) := by
    with_unfolding_all decide
  cases ran : runFilters {} cappedArgs 100000 with
  | error e =>
      rw [ran] at computed
      cases computed
  | ok filtered =>
      rw [ran] at computed
      obtain ⟨quantity, noVeto⟩ := Prod.mk.inj (Option.some.inj computed)
      exact ⟨filtered, rfl, quantity,
        (caps_hold {} cappedArgs 100000 (by norm_num) filtered ran noVeto).2.2.2
          (by with_unfolding_all decide) (by with_unfolding_all decide)⟩

/-! ## The quantity of a run without a veto -/

/-- The size of an order when the position, correlation and liquidity filters have
cut it. -/
def cappedSize (limits : RiskLimits) (args : FilterArgs) (qty : ℚ)
    (fl : Rounding := exactRounding) : ℚ :=
  let decorrelated := produced (args.context limits) (correlationLimitFilter fl)
    (min qty (positionCap limits args.equity args.currentPrice fl))
  if 0 < args.marketContext.avgDailyVolume20d then
    min decorrelated
      (fl (args.marketContext.avgDailyVolume20d * liquidityShare (some limits) fl))
  else decorrelated

/-- That size, or a tenth of the daily dollar volume over the price, where the order's value is more
than a tenth of the larger of that volume and the value. -/
def filteredSize (limits : RiskLimits) (args : FilterArgs) (qty : ℚ)
    (fl : Rounding := exactRounding) : ℚ :=
  let size := cappedSize limits args qty fl
  let price := args.marketContext.currentPrice
  let volume := args.marketContext.adv20dUsd
  let notional := fl (size * price)
  if 0 < size ∧ 0 < args.marketContext.avgDailyVolume20d ∧ 0 < price ∧
      fl (1 / 10) < fl (notional / max volume notional) then
    fl (fl (volume * fl (1 / 10)) / price)
  else size

/-- That size, cut to a tenth of the daily dollar volume. In exact arithmetic it is what the
participation filter leaves. -/
def tradedSize (limits : RiskLimits) (args : FilterArgs) (qty : ℚ) : ℚ :=
  if 0 < args.marketContext.avgDailyVolume20d ∧ 0 < args.marketContext.currentPrice then
    min (cappedSize limits args qty)
      (args.marketContext.adv20dUsd * (1 / 10) / args.marketContext.currentPrice)
  else cappedSize limits args qty

theorem cappedSize_pos {limits : RiskLimits} {args : FilterArgs} {qty : ℚ} {fl : Rounding}
    (left : 0 < filteredSize limits args qty fl) : 0 < cappedSize limits args qty fl := by
  by_contra empty
  rw [filteredSize, if_neg fun cut => empty cut.1] at left
  exact empty left

/-- That size is what the participation filter leaves. -/
theorem produced_cappedSize {limits : RiskLimits} {args : FilterArgs} {qty : ℚ} {fl : Rounding}
    (capped : 0 < cappedSize limits args qty fl) :
    produced (args.context limits) (participationRateFilter fl) (cappedSize limits args qty fl) =
      filteredSize limits args qty fl := by
  have medium : maxParticipation (args.context limits).urgency = 1 / 10 := maxParticipation_medium
  rw [produced, apply_of_pos _ _ capped, filteredSize]
  simp only [participationRateFilter]
  rw [medium]
  simp only [FilterArgs.context]
  by_cases known : 0 < args.marketContext.avgDailyVolume20d ∧ 0 < args.marketContext.currentPrice
  · obtain ⟨volume, price⟩ := known
    rw [if_neg (not_or.mpr ⟨not_le.mpr volume, not_le.mpr price⟩)]
    simp only [capped, volume, price, true_and, ← not_le, ite_not]
    split <;> rfl
  · have unknown : args.marketContext.avgDailyVolume20d ≤ 0 ∨
        args.marketContext.currentPrice ≤ 0 := by
      simpa only [not_and_or, not_lt] using known
    rw [if_pos unknown, if_neg fun cut => known ⟨cut.2.1, cut.2.2.1⟩]
    rfl

theorem filteredSize_eq_tradedSize {limits : RiskLimits} {args : FilterArgs} {qty : ℚ}
    (capped : 0 < cappedSize limits args qty) :
    filteredSize limits args qty = tradedSize limits args qty :=
  (produced_cappedSize capped).symm.trans (produced_participationRate limits args capped)

/-- Without a veto the chain ends on the filtered size. -/
theorem runFilters_filteredSize {engine : RiskEngine} {args : FilterArgs} {qty : ℚ} {fl : Rounding}
    (positive : 0 < qty) {filtered : FilterState}
    (ran : runFilters engine args qty fl = .ok filtered) (noVeto : filtered.veto = false) :
    filtered.currentQty = filteredSize engine.riskLimits args qty fl := by
  have passed := runFilters_passed positive ran noVeto
  simp only [riskFilters, steps_cons, steps_nil, List.forall_mem_cons] at passed
  obtain ⟨⟨sized, _⟩, ⟨limited, noLoss⟩, ⟨safe, noDrawdown⟩, _, ⟨decorrelated, _⟩, ⟨liquid, _⟩,
    ⟨participating, _⟩, _⟩ := passed
  rw [(runFilters_trail positive ran).1]
  simp only [riskFilters, result_cons, result_nil]
  rw [produced_slippageLimit _ _ participating]
  rw [produced_liquidityCap _ _ decorrelated, produced_drawdownLimit _ _ safe noDrawdown,
    produced_lossLimit _ _ limited noLoss, produced_positionLimit _ _ sized] at liquid ⊢
  exact produced_cappedSize liquid

theorem runFilters_quantity {engine : RiskEngine} {args : FilterArgs} {qty : ℚ}
    (positive : 0 < qty) {filtered : FilterState}
    (ran : runFilters engine args qty = .ok filtered) (noVeto : filtered.veto = false) :
    filtered.currentQty = tradedSize engine.riskLimits args qty := by
  have size := runFilters_filteredSize positive ran noVeto
  have left := (runFilters_veto ran).2 noVeto
  rw [size] at left ⊢
  exact filteredSize_eq_tradedSize (cappedSize_pos left)

/-! ## The plan and the limits -/

/-- The limits that an execution plan carries. -/
theorem plan_limits {env : PlanningEnv} {positionPlan : PositionPlan}
    {marketContext : Option MarketContext} {arrivalPrice : Option ℚ}
    {startTime : Option Timestamp} {urgency : String} {made : ExecutionPlan}
    (planned : plan env positionPlan marketContext arrivalPrice startTime urgency = .ok made) :
    made.maxParticipationRate.val = maxParticipation urgency ∧
      made.estimatedSlippageBps.val =
        (estimateImpact env.sqrt positionPlan.finalQuantity.val marketContext).impactBps *
          (3 / 10) := by
  have holds := plan_eq_ok planned
  exact ⟨holds.maxParticipationRate, holds.estimatedSlippageBps⟩

theorem maxParticipation_low : maxParticipation "low" = 5 / 100 := rfl

/-- Only the low urgency has a limit below that of the filter. -/
theorem maxParticipation_of_ne_low {urgency : String} (other : urgency ≠ "low") :
    1 / 10 ≤ maxParticipation urgency := by
  by_cases medium : urgency = "medium"
  · rw [medium, maxParticipation_medium]
  · by_cases high : urgency = "high"
    · rw [high]
      show (1 / 10 : ℚ) ≤ 20 / 100
      norm_num
    · have unlisted : maxParticipation urgency = 1 / 10 := by
        simp [maxParticipation, maxParticipationTable, List.lookup_cons, beq_false_of_ne other,
          beq_false_of_ne medium, beq_false_of_ne high]
      rw [unlisted]

section Plan

variable (engine : RiskEngine) (env : RiskEnv) (decision : ArbitrationDecision)
  (portfolio : Portfolio) (marketContext : Option MarketContext) (args : CallArgs)

/-- A plan is within the participation limit of its urgency, which it carries, and
within the slippage limit. -/
def PlanWithin (returned : PositionPlan) : Prop :=
  let context := callContext env decision marketContext args
  ∃ made, returned.executionPlan = some made ∧
    (0 < context.avgDailyVolume20d →
      returned.finalQuantity.val * context.currentPrice / context.adv20dUsd ≤
        maxParticipation args.urgency) ∧
    made.maxParticipationRate.val = maxParticipation args.urgency ∧
    made.estimatedSlippageBps.val ≤ engine.riskLimits.maxSlippageBps.val

/-- The inputs keep the plan within the limits. At the low urgency the order,
after the position, correlation and liquidity caps, is at most `5%` of the daily
dollar volume. The impact formula at the traded size stays within the slippage
limit. -/
structure InputsWithin : Prop where
  participation :
    let context := callContext env decision marketContext args
    args.urgency = "low" → 0 < context.avgDailyVolume20d →
      cappedSize engine.riskLimits
          (filterArgs env decision portfolio marketContext args (orderSign decision args))
          (orderQuantity env decision portfolio marketContext args) * context.currentPrice ≤
        5 / 100 * context.adv20dUsd
  slippage :
    let context := callContext env decision marketContext args
    0 < context.avgDailyVolume20d → 0 < context.realizedVol20d →
      roundTo 2 (1 / 10 * context.realizedVol20d * env.planning.sqrt
          (tradedSize engine.riskLimits
              (filterArgs env decision portfolio marketContext args (orderSign decision args))
              (orderQuantity env decision portfolio marketContext args) /
            context.avgDailyVolume20d) * 10000) * (3 / 10) ≤
        engine.riskLimits.maxSlippageBps.val

/-- What a call without a veto returns: the traded size, at a positive price, with
an execution plan. -/
theorem calculate_traded {engine : RiskEngine} {env : RiskEnv} {decision : ArbitrationDecision}
    {portfolio : Portfolio} {marketContext : Option MarketContext} {args : CallArgs}
    {returned : PositionPlan}
    (ran : calculate engine env decision portfolio marketContext args = .ok returned)
    (noVeto : returned.vetoTriggered = false) :
    let context := callContext env decision marketContext args
    0 < context.currentPrice ∧ 0 < returned.finalQuantity.val ∧
      returned.finalQuantity.val = tradedSize engine.riskLimits
        (filterArgs env decision portfolio marketContext args (orderSign decision args))
        (orderQuantity env decision portfolio marketContext args) ∧
      ∃ made, returned.executionPlan = some made ∧
        made.maxParticipationRate.val = maxParticipation args.urgency ∧
        made.estimatedSlippageBps.val =
          (estimateSquareRootImpact env.planning.sqrt returned.finalQuantity.val
            context.avgDailyVolume20d context.realizedVol20d).impactBps * (3 / 10) := by
  intro context
  rcases calculate_cases ran with ⟨price, reason, rfl⟩ | ⟨order, filtered, reached, finished⟩
  · cases noVeto
  · have priced : 0 < context.currentPrice := finished.currentPrice ▸ returned.currentPrice.property
    obtain ⟨quantity, sign⟩ := sizeOrder_quantity exactPrecise priced reached
    have passes : filtered.veto = false := finished.vetoTriggered ▸ noVeto
    have final : returned.finalQuantity.val = filtered.currentQty := by
      rw [finished.finalQuantity, passes]
      rfl
    have positive : 0 < returned.finalQuantity.val :=
      final ▸ (runFilters_veto finished.filters).2 passes
    refine ⟨priced, positive, ?_, ?_⟩
    · rw [final, runFilters_quantity (sizeOrder_positive reached) finished.filters passes,
        quantity, sign]
    · obtain ⟨positionPlan, same, planned⟩ := finished.executionPlan
      unfold executionPlanOf at planned
      dsimp only at planned
      rw [same, if_pos positive] at planned
      obtain ⟨made, plannedMade, rest⟩ := bind_eq_ok_iff.mp planned
      obtain ⟨rate, slippage⟩ := plan_limits plannedMade
      rw [same] at slippage
      exact ⟨made, (Except.ok.inj rest).symm, rate, slippage⟩

/-- The participation half, for a positive quantity that is cut to a tenth of the
volume. -/
theorem traded_participation_iff {size traded price volume : ℚ} (urgency : String)
    (priced : 0 < price) (positive : 0 < traded)
    (cut : traded = min size (volume * (1 / 10) / price)) :
    traded * price / volume ≤ maxParticipation urgency ↔
      (urgency = "low" → size * price ≤ 5 / 100 * volume) := by
  have tenth : traded * price ≤ volume * (1 / 10) := by
    rw [← le_div_iff₀ priced, cut]
    exact min_le_right _ _
  have sold : 0 < traded * price := mul_pos positive priced
  have liquid : 0 < volume := by linarith
  rw [div_le_iff₀ liquid]
  by_cases low : urgency = "low"
  · rw [low, maxParticipation_low]
    constructor
    · intro within _
      have short : traded ≠ volume * (1 / 10) / price := by
        intro whole
        rw [whole, div_mul_cancel₀ _ priced.ne'] at within
        linarith
      have uncut : traded = size := by
        rw [cut] at short ⊢
        exact (min_choice _ _).resolve_right short
      rw [← uncut]
      exact within
    · intro within
      calc traded * price ≤ size * price :=
            mul_le_mul_of_nonneg_right (cut ▸ min_le_left _ _) priced.le
        _ ≤ 5 / 100 * volume := within rfl
  · refine iff_of_true ?_ fun isLow => absurd isLow low
    calc traded * price ≤ volume * (1 / 10) := tenth
      _ = 1 / 10 * volume := mul_comm _ _
      _ ≤ maxParticipation urgency * volume :=
          mul_le_mul_of_nonneg_right (maxParticipation_of_ne_low low) liquid.le

/-- The slippage half. -/
theorem traded_slippage_iff (sqrt : ℚ → ℚ) (volume volatility : ℚ) {traded limit : ℚ}
    (positive : 0 < traded) (nonneg : 0 ≤ limit) :
    (estimateSquareRootImpact sqrt traded volume volatility).impactBps * (3 / 10) ≤ limit ↔
      (0 < volume → 0 < volatility →
        roundTo 2 (1 / 10 * volatility * sqrt (traded / volume) * 10000) * (3 / 10) ≤ limit) := by
  unfold estimateSquareRootImpact
  by_cases known : 0 < volume ∧ 0 < volatility
  · have estimated : ¬(volume ≤ 0 ∨ traded ≤ 0 ∨ volatility ≤ 0) := by
      rintro (none | none | none)
      · exact absurd known.1 (not_lt.mpr none)
      · exact absurd positive (not_lt.mpr none)
      · exact absurd known.2 (not_lt.mpr none)
    rw [if_neg estimated]
    exact ⟨fun within _ _ => within, fun within => within known.1 known.2⟩
  · have nothing : volume ≤ 0 ∨ traded ≤ 0 ∨ volatility ≤ 0 := by
      rcases not_and_or.mp known with none | none
      · exact .inl (not_lt.mp none)
      · exact .inr (.inr (not_lt.mp none))
    rw [if_pos nothing]
    refine iff_of_true ?_ fun volume volatility => absurd ⟨volume, volatility⟩ known
    simpa [noImpact] using nonneg

end Plan

/-- The sample call at the low urgency. -/
def lowArgs : CallArgs := { sampleArgs with urgency := "low" }

/-- A thinner stock at the low urgency: 1600 shares a day at a volatility of
`0.1`. -/
def thinArgs : CallArgs :=
  { lowArgs with avgDailyVolume20d := 1600, realizedVol20d := 1 / 10 }

/-- The same at the volatility `0.25` and the medium urgency. -/
def volatileArgs : CallArgs :=
  { thinArgs with realizedVol20d := 1 / 4, urgency := "medium" }

end TradeOS.Risk
