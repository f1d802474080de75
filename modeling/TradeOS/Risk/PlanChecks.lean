import TradeOS.Numeric.Precision
import TradeOS.Risk.Planner

/-!
# The checks of an execution plan

Planning builds a plan, its slices and a report, and each of them checks its fields. Most of the
checks never fail: the costs are not negative, the scores and the rates are in the unit interval.
What is left depends on the order: its limit price and its worst price are rounded to two digits and
must stay positive, and so must the quantity of a slice. `returns_plan_iff` says when a plan is
made.
-/

set_option autoImplicit false

namespace TradeOS.Risk

open TradeOS.Numeric Programs

/-! ## What a plan holds -/

/-- The arrival price of a plan: the given one, else the price of the market. -/
def planArrival (marketContext : Option MarketContext) (arrivalPrice : Option ℚ) : ℚ :=
  arrivalPrice.getD ((marketContext.map MarketContext.currentPrice).getD 0)

/-- The impact that a plan expects. -/
def planImpact (env : PlanningEnv) (positionPlan : PositionPlan)
    (marketContext : Option MarketContext) (fl : Rounding := exactRounding) : ℚ :=
  (estimateImpact env.sqrt positionPlan.finalQuantity.val marketContext fl).impactBps

/-- The algorithm of a plan, with its parameters. -/
def planAlgorithm (env : PlanningEnv) (positionPlan : PositionPlan)
    (marketContext : Option MarketContext) (urgency : String) (fl : Rounding := exactRounding) :
    OrderType × Params :=
  selectAlgorithm positionPlan (planImpact env positionPlan marketContext fl) marketContext urgency
    fl

/-- The limit price of a plan. -/
def planLimit (env : PlanningEnv) (positionPlan : PositionPlan)
    (marketContext : Option MarketContext) (arrivalPrice : Option ℚ) (urgency : String)
    (fl : Rounding := exactRounding) : Option ℚ :=
  computeLimitPrice positionPlan.direction (planArrival marketContext arrivalPrice)
    (planImpact env positionPlan marketContext fl)
    (planAlgorithm env positionPlan marketContext urgency fl).1 fl

/-- The fields of a plan that is made, by what it is made from. -/
structure Planned (env : PlanningEnv) (positionPlan : PositionPlan)
    (marketContext : Option MarketContext) (arrivalPrice : Option ℚ)
    (startTime : Option Timestamp) (urgency : String) (made : ExecutionPlan)
    (fl : Rounding := exactRounding) : Prop where
  direction : made.direction = positionPlan.direction
  targetQuantity : made.targetQuantity.val = positionPlan.finalQuantity.val
  slices : buildSlices positionPlan.finalQuantity.val
    (planAlgorithm env positionPlan marketContext urgency fl).1
    (planAlgorithm env positionPlan marketContext urgency fl).2
    (planLimit env positionPlan marketContext arrivalPrice urgency fl) (startTime.getD env.utcnow)
    timeLimitSeconds fl = .ok made.slices
  limitPrice : made.limitPrice.map Subtype.val =
    planLimit env positionPlan marketContext arrivalPrice urgency fl
  worstPrice : made.worstPrice.map Subtype.val =
    worstPrice positionPlan.direction
      (planLimit env positionPlan marketContext arrivalPrice urgency fl)
      (planImpact env positionPlan marketContext fl) fl
  arrivalPrice : made.arrivalPrice.map Subtype.val = some (planArrival marketContext arrivalPrice)
  maxParticipationRate : made.maxParticipationRate.val = fl (maxParticipation urgency)
  estimatedImpactBps : made.estimatedImpactBps.val = planImpact env positionPlan marketContext fl
  estimatedSlippageBps : made.estimatedSlippageBps.val =
    fl (planImpact env positionPlan marketContext fl * fl (3 / 10))
  endTime : made.endTime = some (startTime.getD env.utcnow + timeLimitSeconds * second)
  startTime : made.startTime = some (startTime.getD env.utcnow)

theorem plan_eq_ok {env : PlanningEnv} {positionPlan : PositionPlan}
    {marketContext : Option MarketContext} {arrivalPrice : Option ℚ}
    {startTime : Option Timestamp} {urgency : String} {made : ExecutionPlan} {fl : Rounding}
    (planned : plan env positionPlan marketContext arrivalPrice startTime urgency fl = .ok made) :
    Planned env positionPlan marketContext arrivalPrice startTime urgency made fl := by
  unfold plan at planned
  dsimp only at planned
  obtain ⟨_, slices, planned⟩ := bind_eq_ok_iff.mp planned
  obtain ⟨_, _, planned⟩ := bind_eq_ok_iff.mp planned
  obtain ⟨_, target, planned⟩ := bind_eq_ok_iff.mp planned
  obtain ⟨_, _, planned⟩ := bind_eq_ok_iff.mp planned
  obtain ⟨_, limit, planned⟩ := bind_eq_ok_iff.mp planned
  obtain ⟨_, worst, planned⟩ := bind_eq_ok_iff.mp planned
  obtain ⟨_, arrival, planned⟩ := bind_eq_ok_iff.mp planned
  obtain ⟨_, participation, planned⟩ := bind_eq_ok_iff.mp planned
  obtain ⟨_, _, planned⟩ := bind_eq_ok_iff.mp planned
  obtain ⟨_, impact, planned⟩ := bind_eq_ok_iff.mp planned
  obtain ⟨_, slippage, planned⟩ := bind_eq_ok_iff.mp planned
  obtain ⟨_, _, planned⟩ := bind_eq_ok_iff.mp planned
  cases planned
  exact {
    direction := rfl
    targetQuantity := check_eq_ok_iff.mp target
    slices := slices
    limitPrice := checkOption_eq_ok limit
    worstPrice := checkOption_eq_ok worst
    arrivalPrice := congrArg some (check_eq_ok_iff.mp arrival)
    maxParticipationRate := check_eq_ok_iff.mp participation
    estimatedImpactBps := check_eq_ok_iff.mp impact
    estimatedSlippageBps := check_eq_ok_iff.mp slippage
    endTime := rfl
    startTime := rfl }

/-! ## What is always within its bounds -/

theorem costScore_mem_unit (fl : Rounding) {cost ceiling : ℚ} (cheap : 0 ≤ cost)
    (positive : 0 < ceiling) : 0 ≤ costScore cost ceiling fl ∧ costScore cost ceiling fl ≤ 1 := by
  have share : 0 ≤ fl (cost / ceiling) := fl.nonneg (div_nonneg cheap positive.le)
  refine fl.decimal_mem_unit 3 ⟨le_max_left 0 _, max_le zero_le_one (fl.le_one ?_)⟩
  linarith

theorem slipScore_mem_unit (fl : Rounding) {cost : ℚ} (ceiling : ℚ) (cheap : 0 ≤ cost) :
    0 ≤ slipScore cost ceiling fl ∧ slipScore cost ceiling fl ≤ 1 :=
  costScore_mem_unit fl cheap (lt_max_of_lt_right (by norm_num))

theorem impactScore_mem_unit (fl : Rounding) {cost : ℚ} (ceiling : ℚ) (cheap : 0 ≤ cost) :
    0 ≤ impactScore cost ceiling fl ∧ impactScore cost ceiling fl ≤ 1 :=
  costScore_mem_unit fl cheap (lt_max_of_lt_right (by norm_num))

theorem maxParticipation_mem_unit (urgency : String) :
    0 < maxParticipation urgency ∧ maxParticipation urgency ≤ 1 := by
  unfold maxParticipation maxParticipationTable
  simp only [List.lookup_cons, List.lookup_nil]
  split
  · norm_num
  · split
    · norm_num
    · split <;> norm_num

/-- A part of the score of a plan: one minus a share, at least zero. -/
theorem remainder_mem_unit (fl : Rounding) {share : ℚ} (nonneg : 0 ≤ share) :
    0 ≤ max 0 (fl (1 - share)) ∧ max 0 (fl (1 - share)) ≤ 1 :=
  ⟨le_max_left 0 _, max_le zero_le_one (fl.le_one (by linarith))⟩

/-- A weighted part of a score is not negative, and at most its weight. -/
theorem weighted_mem (fl : Rounding) {weight part : ℚ} (nonneg : 0 ≤ weight)
    (unit : 0 ≤ part ∧ part ≤ 1) :
    0 ≤ fl (fl weight * part) ∧ fl (fl weight * part) ≤ fl weight := by
  have rounded : 0 ≤ fl weight := fl.nonneg nonneg
  refine ⟨fl.nonneg (mul_nonneg rounded unit.1), ?_⟩
  calc fl (fl weight * part) ≤ fl (fl weight) :=
        fl.monotone (mul_le_of_le_one_right rounded unit.2)
    _ = fl weight := fl.round_round weight

/-- A score that is hardly above one is rounded to one. -/
theorem score_mem_unit (fl : Rounding) {score : ℚ} (nonneg : 0 ≤ score)
    (small : score < 10005 / 10000) :
    0 ≤ fl.decimal 3 score ∧ fl.decimal 3 score ≤ 1 := by
  refine fl.mem_unit ⟨roundTo_nonneg 3 nonneg, ?_⟩
  rw [roundTo_le_iff, roundHalfEven_le_iff]
  left
  norm_num
  linarith

theorem computeExecScore_mem_unit (arith : PreciseRounding)
    {impactBps slippageBps participation : ℚ} (maxPr : ℚ) (impact : 0 ≤ impactBps)
    (slippage : 0 ≤ slippageBps) (rate : 0 ≤ participation) :
    0 ≤ computeExecScore impactBps slippageBps maxPr participation arith.toRounding ∧
      computeExecScore impactBps slippageBps maxPr participation arith.toRounding ≤ 1 := by
  set fl := arith.toRounding
  have impactPart := weighted_mem fl (show (0 : ℚ) ≤ 4 / 10 by norm_num) (remainder_mem_unit fl
    (le_min (fl.nonneg (div_nonneg impact (show (0 : ℚ) ≤ 100 by norm_num))) zero_le_one))
  have slipPart := weighted_mem fl (show (0 : ℚ) ≤ 3 / 10 by norm_num) (remainder_mem_unit fl
    (le_min (fl.nonneg (div_nonneg slippage (show (0 : ℚ) ≤ 50 by norm_num))) zero_le_one))
  have cent : 0 < fl (1 / 100) := arith.pos (by norm_num)
  have ratePart := weighted_mem fl (show (0 : ℚ) ≤ 3 / 10 by norm_num) (remainder_mem_unit fl
    (fl.nonneg (div_nonneg rate (lt_max_of_lt_right cent : 0 < max maxPr (fl (1 / 100))).le)))
  have most := arith.le_mul (show (0 : ℚ) ≤ 4 / 10 by norm_num)
  have least := arith.le_mul (show (0 : ℚ) ≤ 3 / 10 by norm_num)
  have costs := add_nonneg impactPart.1 slipPart.1
  have costsBelow := arith.le_mul costs
  have total := add_nonneg (fl.nonneg costs) ratePart.1
  have totalBelow := arith.le_mul total
  refine score_mem_unit fl (fl.nonneg total) ?_
  linarith [impactPart.2, slipPart.2, ratePart.2]

/-! ## The impact -/

section Impact

variable {sqrt : ℚ → ℚ} (rooted : ∀ q, 0 ≤ q → 0 ≤ sqrt q)

include rooted

theorem impactBps_nonneg (fl : Rounding) {quantity volume volatility : ℚ} :
    0 ≤ (estimateSquareRootImpact sqrt quantity volume volatility (1 / 10) fl).impactBps := by
  unfold estimateSquareRootImpact
  split
  · exact le_refl 0
  · rename_i known
    obtain ⟨liquid, _, volatile⟩ : ¬ volume ≤ 0 ∧ ¬ quantity ≤ 0 ∧ ¬ volatility ≤ 0 := by
      simpa only [not_or] using known
    have share : 0 ≤ fl (quantity / volume) := by
      refine fl.nonneg (div_nonneg ?_ ?_) <;> linarith
    have root := rooted _ share
    have positive : 0 ≤ volatility := by linarith
    have scale : 0 ≤ fl (1 / 10) := fl.nonneg (by norm_num)
    have impact := fl.nonneg (mul_nonneg (fl.nonneg (mul_nonneg scale positive)) root)
    exact fl.decimal_nonneg 2 (fl.nonneg (mul_nonneg impact (by norm_num)))

end Impact

/-- The participation of an order that the liquidity cap has cut. -/
theorem participationRate_mem_unit (fl : Rounding) {sqrt : ℚ → ℚ} {quantity volume volatility : ℚ}
    (cut : 0 < volume → quantity ≤ volume) :
    0 ≤ (estimateSquareRootImpact sqrt quantity volume volatility (1 / 10) fl).participationRate ∧
      (estimateSquareRootImpact sqrt quantity volume volatility (1 / 10) fl).participationRate ≤
        1 := by
  unfold estimateSquareRootImpact
  split
  · exact ⟨le_refl 0, zero_le_one⟩
  · rename_i known
    obtain ⟨liquid, sized, _⟩ : ¬ volume ≤ 0 ∧ ¬ quantity ≤ 0 ∧ ¬ volatility ≤ 0 := by
      simpa only [not_or] using known
    have positive : 0 < volume := not_le.mp liquid
    refine fl.decimal_mem_unit 4 (fl.mem_unit ⟨div_nonneg (not_le.mp sized).le positive.le, ?_⟩)
    rw [div_le_one₀ positive]
    exact cut positive

/-! ## The report -/

/-- The reduced plan carries the quantity, and no limit price. -/
theorem returns_mockPlan {positionPlan : PositionPlan} {planId : String} {ts : Timestamp}
    {qty notional impactBps slippageBps arrivalPrice : ℚ} {algorithm : OrderType}
    (sized : 0 ≤ qty) (valued : 0 ≤ notional) (impact : 0 ≤ impactBps)
    (slippage : 0 ≤ slippageBps) (arrived : 0 ≤ arrivalPrice) :
    Returns (mockPlan positionPlan planId ts qty notional impactBps slippageBps arrivalPrice
      algorithm) fun made => made.targetQuantity.val = qty ∧ made.limitPrice = none := by
  simp only [mockPlan, returns_bind_iff, returns_check_iff, returns_pure_iff]
  exact ⟨sized, valued, arrived, impact, slippage, trivial, trivial⟩

theorem estimatedSlippage_of_unlimited {plan : ExecutionPlan} (unlimited : plan.limitPrice = none)
    (impactBps : ℚ) (fl : Rounding) :
    estimatedSlippage plan impactBps fl = fl (impactBps * fl (3 / 10)) := by
  simp only [estimatedSlippage, unlimited]

theorem returns_estimate (arith : PreciseRounding) {env : PlanningEnv}
    (rooted : ∀ q, 0 ≤ q → 0 ≤ env.sqrt q) {plan : ExecutionPlan}
    (unlimited : plan.limitPrice = none) {volume volatility : ℚ}
    (cut : 0 < volume → plan.targetQuantity.val ≤ volume) :
    Returns (estimate env plan volume volatility (1 / 10) arith.toRounding) fun _ => True := by
  set fl := arith.toRounding
  set impact := estimateSquareRootImpact env.sqrt plan.targetQuantity.val volume volatility (1 / 10)
    fl
  have impactNonneg : 0 ≤ impact.impactBps := impactBps_nonneg rooted fl
  have participation : 0 ≤ impact.participationRate ∧ impact.participationRate ≤ 1 :=
    participationRate_mem_unit fl cut
  have slippageNonneg : 0 ≤ fl (impact.impactBps * fl (3 / 10)) :=
    fl.nonneg (mul_nonneg impactNonneg (fl.nonneg (by norm_num)))
  have slip := slipScore_mem_unit fl (fl (fl (impact.impactBps * fl (3 / 10)) * 2)) slippageNonneg
  have impacted := impactScore_mem_unit fl (fl (impact.impactBps * 2)) impactNonneg
  have slipPart := weighted_mem fl (show (0 : ℚ) ≤ 4 / 10 by norm_num) slip
  have impactPart := weighted_mem fl (show (0 : ℚ) ≤ 6 / 10 by norm_num) impacted
  have total := add_nonneg slipPart.1 impactPart.1
  simp only [estimate, returns_bind_iff, returns_check_iff, returns_pure_iff,
    estimatedSlippage_of_unlimited unlimited]
  refine ⟨slippageNonneg, impactNonneg, participation, ?_, slip, impacted, trivial⟩
  refine score_mem_unit fl (fl.nonneg total) ?_
  have small := arith.le_mul (show (0 : ℚ) ≤ 4 / 10 by norm_num)
  have large := arith.le_mul (show (0 : ℚ) ≤ 6 / 10 by norm_num)
  have totalBelow := arith.le_mul total
  linarith [slipPart.2, impactPart.2]

theorem returns_preTradeReport (arith : PreciseRounding) {env : PlanningEnv}
    (rooted : ∀ q, 0 ≤ q → 0 ≤ env.sqrt q) {positionPlan : PositionPlan} {market : MarketContext}
    {planId : String} {ts : Timestamp}
    {qty notional impactBps slippageBps arrivalPrice : ℚ} {algorithm : OrderType}
    (sized : 0 ≤ qty) (valued : 0 ≤ notional) (impact : 0 ≤ impactBps)
    (slippage : 0 ≤ slippageBps) (arrived : 0 ≤ arrivalPrice)
    (cut : 0 < market.avgDailyVolume20d → qty ≤ market.avgDailyVolume20d) :
    Returns (preTradeReport env positionPlan (some market) planId ts qty notional impactBps
      slippageBps arrivalPrice algorithm arith.toRounding) fun _ => True := by
  unfold preTradeReport
  dsimp only
  split
  · refine (returns_mockPlan sized valued impact slippage arrived).bind fun mock made => ?_
    refine (returns_estimate arith rooted made.2 fun liquid => made.1 ▸ cut liquid).bind
      fun report _ => ?_
    simp
  · simp

/-! ## The slices -/

/-- A slice is made if its quantity and its target price stay positive. -/
theorem returns_buildSlice_iff (fl : Rounding) {qty : ℚ} {limitPrice : Option ℚ}
    {startTime : Timestamp} {timeLimit count i : ℕ} :
    (Returns (buildSlice qty limitPrice startTime timeLimit count i fl) fun _ => True) ↔
      0 < fl.decimal 2 (fl (qty / count)) ∧ ∀ q ∈ limitPrice, 0 < q := by
  simp only [buildSlice, returns_bind_iff, returns_check_iff, returns_pure_iff,
    returns_checkOption_iff, exists_prop]

/-- The algorithms that cut an order into slices. -/
def Slicing (algorithm : OrderType) : Prop :=
  algorithm ≠ .market ∧ algorithm ≠ .limit ∧ algorithm ≠ .iceberg

theorem returns_buildSlices_iff (fl : Rounding) {qty : ℚ} {algorithm : OrderType}
    {params : Params} {limitPrice : Option ℚ} {startTime : Timestamp} {timeLimit : ℕ}
    (some : 0 < sliceCount params) :
    (Returns (buildSlices qty algorithm params limitPrice startTime timeLimit fl)
        fun _ => True) ↔
      (Slicing algorithm →
        0 < fl.decimal 2 (fl (qty / sliceCount params)) ∧ ∀ q ∈ limitPrice, 0 < q) := by
  unfold buildSlices
  by_cases whole : algorithm = .market ∨ algorithm = .limit ∨ algorithm = .iceberg
  · rw [if_pos whole, returns_ok_iff]
    refine iff_of_true trivial fun slicing => ?_
    exact absurd whole (by simpa [Slicing, not_or] using slicing)
  · rw [if_neg whole]
    have slicing : Slicing algorithm := by simpa [Slicing, not_or] using whole
    dsimp only
    rw [returns_mapM_total_iff]
    simp only [returns_buildSlice_iff]
    constructor
    · exact fun all _ => all 0 (List.mem_range.mpr some)
    · exact fun one _ _ => one slicing

/-! ## The plan -/

/-- The impact that a planner expects of an order. -/
def impactBpsOf (sqrt : ℚ → ℚ) (qty : ℚ) (market : MarketContext)
    (fl : Rounding := exactRounding) : ℚ :=
  (estimateSquareRootImpact sqrt qty market.avgDailyVolume20d market.realizedVol20d (1 / 10)
    fl).impactBps

/-- A plan is made exactly if its limit price, its worst price and the quantity of its slices stay
positive. -/
theorem returns_plan_iff (arith : PreciseRounding) {env : PlanningEnv}
    (rooted : ∀ q, 0 ≤ q → 0 ≤ env.sqrt q) {positionPlan : PositionPlan} {market : MarketContext}
    {arrivalPrice : ℚ} {urgency : String} (arrived : 0 ≤ arrivalPrice)
    (cut : 0 < market.avgDailyVolume20d →
      positionPlan.finalQuantity.val ≤ market.avgDailyVolume20d)
    {impactBps : ℚ}
    (impact : impactBpsOf env.sqrt positionPlan.finalQuantity.val market arith.toRounding =
      impactBps)
    {algorithm : OrderType} {params : Params}
    (chosen : selectAlgorithm positionPlan impactBps (some market) urgency arith.toRounding =
      (algorithm, params))
    (slices : 0 < sliceCount params) {limitPrice : Option ℚ}
    (limit : computeLimitPrice positionPlan.direction arrivalPrice impactBps algorithm
      arith.toRounding = limitPrice) :
    (Returns (plan env positionPlan (some market) (some arrivalPrice) none urgency
        arith.toRounding) fun _ => True) ↔
      (Slicing algorithm → 0 < arith.decimal 2
        (arith.toRounding (positionPlan.finalQuantity.val / sliceCount params))) ∧
      (∀ q ∈ limitPrice, 0 < q) ∧
      ∀ q ∈ worstPrice positionPlan.direction limitPrice impactBps arith.toRounding, 0 < q := by
  set fl := arith.toRounding with arithmetic
  have sized := positionPlan.finalQuantity.property
  have impactNonneg : 0 ≤ impactBps := impact ▸ impactBps_nonneg rooted fl
  have slippageNonneg : 0 ≤ fl (impactBps * fl (3 / 10)) :=
    fl.nonneg (mul_nonneg impactNonneg (fl.nonneg (by norm_num)))
  have valued : 0 ≤ if 0 < arrivalPrice then
      fl (positionPlan.finalQuantity.val * arrivalPrice) else 0 := by
    split
    · exact fl.nonneg (mul_nonneg sized arrived)
    · exact le_refl 0
  have limited := maxParticipation_mem_unit urgency
  have rate := fl.mem_unit ⟨limited.1.le, limited.2⟩
  have report : ∃ made, preTradeReport env positionPlan (some market) ("ep-" ++ env.planUuid)
      env.utcnow positionPlan.finalQuantity.val
      (if 0 < arrivalPrice then fl (positionPlan.finalQuantity.val * arrivalPrice) else 0)
      impactBps (fl (impactBps * fl (3 / 10))) arrivalPrice algorithm fl = .ok made :=
    returns_true_iff.mp (returns_preTradeReport arith rooted sized valued impactNonneg
      slippageNonneg arrived cut)
  unfold impactBpsOf at impact
  simp only [plan, estimateImpact, Option.getD_some, Option.getD_none, impact, chosen, limit,
    returns_bind_iff, returns_check_iff, returns_pure_iff]
  set estimated := estimateSquareRootImpact env.sqrt positionPlan.finalQuantity.val
    market.avgDailyVolume20d market.realizedVol20d (1 / 10) fl
  have participation : 0 ≤ estimated.participationRate ∧ estimated.participationRate ≤ 1 :=
    participationRate_mem_unit fl cut
  have target : 0 ≤ min estimated.participationRate (fl (maxParticipation urgency)) ∧
      min estimated.participationRate (fl (maxParticipation urgency)) ≤ 1 :=
    ⟨le_min participation.1 rate.1, (min_le_left _ _).trans participation.2⟩
  have score := computeExecScore_mem_unit arith (fl (maxParticipation urgency)) impactNonneg
    slippageNonneg target.1
  rw [← arithmetic] at score
  -- the checks that always pass go away, and three conditions are left
  simp only [returns_const_iff, exists_prop, sized, valued, arrived, rate, target,
    impactNonneg, slippageNonneg, score, report, true_and, and_true]
  rw [← returns_true_iff, ← returns_true_iff, ← returns_true_iff, returns_buildSlices_iff fl slices,
    returns_checkOption_iff, returns_checkOption_iff]
  constructor
  · rintro ⟨slices, prices⟩
    exact ⟨fun slicing => (slices slicing).1, prices⟩
  · rintro ⟨slices, prices⟩
    exact ⟨fun slicing => ⟨slices slicing, prices.1⟩, prices⟩

/-! ## The conditions on the order -/

/-- The factor between the price and the limit price. -/
def limitFactor (direction : Direction) (impactBps : ℚ) (fl : Rounding := exactRounding) : ℚ :=
  if direction = .long then fl (1 + fl (fl (impactBps / 10000) * (3 / 2)))
  else fl (1 - fl (fl (impactBps / 10000) * (3 / 2)))

/-- The factor between the limit price and the worst price. -/
def worstFactor (direction : Direction) (impactBps : ℚ) (fl : Rounding := exactRounding) : ℚ :=
  if direction = .long then fl (1 + fl (fl (impactBps + 20) / 10000))
  else fl (1 - fl (fl (impactBps + 20) / 10000))

/-- The limit price of a direction, before it is rounded to cents. -/
def movedLimit (direction : Direction) (price impactBps : ℚ) (fl : Rounding := exactRounding) : ℚ :=
  fl (price * limitFactor direction impactBps fl)

/-- The worst price of a direction, before it is rounded to cents. -/
def movedWorst (direction : Direction) (limit impactBps : ℚ) (fl : Rounding := exactRounding) : ℚ :=
  fl (limit * worstFactor direction impactBps fl)

/-- The limit price and the worst price exceed half a cent before they are rounded. -/
structure PricesHold (direction : Direction) (price impactBps : ℚ)
    (fl : Rounding := exactRounding) : Prop where
  limit : 1 / 200 < movedLimit direction price impactBps fl
  worst : 1 / 200 <
    movedWorst direction (fl.decimal 2 (movedLimit direction price impactBps fl)) impactBps fl

/-- Only a market order has no limit price. -/
theorem computeLimitPrice_eq {direction : Direction} {price : ℚ} (impactBps : ℚ)
    {algorithm : OrderType} (fl : Rounding) (priced : 0 < price) :
    computeLimitPrice direction price impactBps algorithm fl =
      if algorithm = .market then none
      else some (fl.decimal 2 (movedLimit direction price impactBps fl)) := by
  by_cases market : algorithm = .market
  · rw [computeLimitPrice, if_pos (.inl market), if_pos market]
  · rw [computeLimitPrice, if_neg (not_or.mpr ⟨market, not_le.mpr priced⟩), if_neg market]
    rfl

theorem worstPrice_of_limit (direction : Direction) {limit : ℚ} (impactBps : ℚ) (fl : Rounding)
    (positive : 0 < limit) :
    worstPrice direction (some limit) impactBps fl =
      some (fl.decimal 2 (movedWorst direction limit impactBps fl)) := by
  rw [worstPrice, Option.bind_some, if_neg (not_le.mpr positive)]
  rfl

theorem prices_iff (arith : PreciseRounding) {direction : Direction} {price impactBps : ℚ}
    {algorithm : OrderType} (priced : 0 < price) :
    ((∀ q ∈ computeLimitPrice direction price impactBps algorithm arith.toRounding, 0 < q) ∧
        ∀ q ∈ worstPrice direction
          (computeLimitPrice direction price impactBps algorithm arith.toRounding) impactBps
          arith.toRounding, 0 < q) ↔
      (algorithm ≠ .market → PricesHold direction price impactBps arith.toRounding) := by
  rw [computeLimitPrice_eq impactBps arith.toRounding priced]
  by_cases market : algorithm = .market
  · rw [if_pos market]
    exact iff_of_true ⟨by simp, by simp [worstPrice]⟩ fun other => absurd market other
  · rw [if_neg market, imp_iff_right market]
    simp only [Option.mem_some_iff, forall_eq', arith.cents_pos_iff]
    constructor
    · rintro ⟨above, worst⟩
      rw [worstPrice_of_limit _ _ _ ((arith.cents_pos_iff _).mpr above)] at worst
      exact ⟨above, (arith.cents_pos_iff _).mp (worst _ rfl)⟩
    · rintro ⟨above, worst⟩
      refine ⟨above, ?_⟩
      rw [worstPrice_of_limit _ _ _ ((arith.cents_pos_iff _).mpr above)]
      rintro q ⟨⟩
      exact (arith.cents_pos_iff _).mpr worst

/-- The algorithm of an order that opens a position. -/
def openingAlgorithm (impactBps volatility : ℚ) (urgency : String)
    (fl : Rounding := exactRounding) : OrderType :=
  if 100 < impactBps then .iceberg
  else if fl (30 / 100) < volatility then .adaptive
  else if 50 ≤ impactBps then .vwap
  else if urgency = "high" then .market
  else .limit

theorem selectAlgorithm_of_opening {positionPlan : PositionPlan} (impactBps : ℚ)
    (market : MarketContext) (urgency : String) (fl : Rounding)
    (opening : positionPlan.isReducing = false) :
    (selectAlgorithm positionPlan impactBps (some market) urgency fl).1 =
      openingAlgorithm impactBps market.realizedVol20d urgency fl := by
  rw [selectAlgorithm, if_neg (by simp [opening]), openingAlgorithm]
  by_cases large : 100 < impactBps
  · rw [if_pos large, if_pos large]
  rw [if_neg large, if_neg large]
  by_cases volatile : fl (30 / 100) < market.realizedVol20d
  · rw [if_pos (by simpa using volatile), if_pos volatile]
  rw [if_neg (by simpa using volatile), if_neg volatile]
  by_cases felt : 50 ≤ impactBps
  · rw [if_pos ⟨felt, not_lt.mp large⟩, if_pos felt]
  rw [if_neg fun both => felt both.1, if_neg felt]
  split
  · rfl
  · -- the last branch is never reached: here the impact is below fifty
    rw [if_pos (not_le.mp felt)]

theorem selectAlgorithm_of_reducing {positionPlan : PositionPlan} (impactBps : ℚ)
    (market : MarketContext) (urgency : String) (fl : Rounding)
    (reducing : positionPlan.isReducing = true) :
    (selectAlgorithm positionPlan impactBps (some market) urgency fl).1 = .market := by
  rw [selectAlgorithm, if_pos reducing]

/-- Every algorithm that slices makes twenty slices. -/
theorem sliceCount_selected (positionPlan : PositionPlan) (impactBps : ℚ)
    (market : Option MarketContext) (urgency : String) (fl : Rounding) :
    sliceCount (selectAlgorithm positionPlan impactBps market urgency fl).2 = 20 := by
  unfold selectAlgorithm
  split_ifs <;> rfl

/-- An order keeps its checked fields positive: the prices, unless it is a market order, and the
quantity of its slices, if it has slices. -/
structure OrderHolds (direction : Direction) (price size impactBps : ℚ) (algorithm : OrderType)
    (fl : Rounding := exactRounding) : Prop where
  prices : algorithm ≠ .market → PricesHold direction price impactBps fl
  slices : Slicing algorithm → 1 / 200 < fl (size / 20)

/-- **A plan is made exactly if its order keeps its checked fields positive.** -/
theorem returns_plan_holds_iff (arith : PreciseRounding) {env : PlanningEnv}
    (rooted : ∀ q, 0 ≤ q → 0 ≤ env.sqrt q) {positionPlan : PositionPlan} {market : MarketContext}
    {price : ℚ} {urgency : String} (priced : 0 < price)
    (cut : 0 < market.avgDailyVolume20d →
      positionPlan.finalQuantity.val ≤ market.avgDailyVolume20d)
    {impactBps : ℚ}
    (impact : impactBpsOf env.sqrt positionPlan.finalQuantity.val market arith.toRounding =
      impactBps) :
    (Returns (plan env positionPlan (some market) (some price) none urgency arith.toRounding)
        fun _ => True) ↔
      OrderHolds positionPlan.direction price positionPlan.finalQuantity.val impactBps
        (selectAlgorithm positionPlan impactBps (some market) urgency arith.toRounding).1
        arith.toRounding := by
  have slices := sliceCount_selected positionPlan impactBps (some market) urgency arith.toRounding
  have several : 0 < sliceCount
      (selectAlgorithm positionPlan impactBps (some market) urgency arith.toRounding).2 :=
    slices.symm ▸ Nat.succ_pos 19
  rw [returns_plan_iff arith rooted priced.le cut impact Prod.mk.eta.symm several rfl, slices,
    arith.cents_pos_iff, prices_iff arith priced]
  exact ⟨fun ⟨sliced, prices⟩ => ⟨prices, sliced⟩, fun ⟨prices, sliced⟩ => ⟨sliced, prices⟩⟩

end TradeOS.Risk
