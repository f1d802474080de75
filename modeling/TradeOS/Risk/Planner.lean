import TradeOS.Numeric.Binary64
import TradeOS.Risk.Filters

/-!
# Execution planning

The square-root impact estimate, the pre-trade estimate of the evaluator and the
execution planner. The square root of a float is a parameter: no result needs
more of it than a name. So is the arithmetic of the floats, `fl`; where none is
given, the arithmetic is exact.

An execution plan, its slices and its report are checked when they are built, so
planning can fail.
-/

set_option autoImplicit false

namespace TradeOS.Risk

open TradeOS.Numeric

/-- What planning reads from its environment: the float square root, the clock
and the generated identifiers. -/
structure PlanningEnv where
  sqrt : ℚ → ℚ
  utcnow : Timestamp
  planUuid : String
  reportUuid : String

/-! ## Market impact -/

/-- The result of the impact estimate. -/
structure ImpactEstimate where
  impactBps : ℚ
  participationRate : ℚ
  isAcceptable : Bool
  isWarning : Bool
  suggestedAction : String

/-- The estimate when there is nothing to estimate. -/
def noImpact : ImpactEstimate := ⟨0, 0, true, false, "proceed"⟩

/-- `estimate_square_root_impact`. -/
def estimateSquareRootImpact (sqrt : ℚ → ℚ) (quantity adv20d realizedVol : ℚ)
    (lambdaParam : ℚ := 1 / 10) (fl : Rounding := exactRounding) : ImpactEstimate :=
  if adv20d ≤ 0 ∨ quantity ≤ 0 ∨ realizedVol ≤ 0 then noImpact
  else
    let participation := fl (quantity / adv20d)
    let impact := fl (fl (fl lambdaParam * realizedVol) * sqrt participation)
    let impactBps := fl.decimal 2 (fl (impact * 10000))
    { impactBps := impactBps
      participationRate := fl.decimal 4 participation
      isAcceptable := impactBps < 50
      isWarning := 50 ≤ impactBps ∧ impactBps < 100
      suggestedAction :=
        if 100 ≤ impactBps then "reduce_participation_or_split"
        else if 50 ≤ impactBps then "reduce_participation"
        else "proceed" }

/-! ## Pre-trade estimate -/

def participationRiskFromImpact (impact : ImpactEstimate) : String :=
  if 100 ≤ impact.impactBps then "high" else if 50 ≤ impact.impactBps then "medium" else "low"

/-- One minus a cost in units of its ceiling, at least zero, to three digits. -/
def costScore (cost ceiling : ℚ) (fl : Rounding := exactRounding) : ℚ :=
  fl.decimal 3 (max 0 (fl (1 - fl (cost / ceiling))))

def slipScore (slippageBps ceiling : ℚ) (fl : Rounding := exactRounding) : ℚ :=
  costScore slippageBps (max ceiling 20) fl

def impactScore (impactBps ceiling : ℚ) (fl : Rounding := exactRounding) : ℚ :=
  costScore impactBps (max ceiling 100) fl

def scoreToRating (score : ℚ) (fl : Rounding := exactRounding) : ExecutionQuality :=
  if fl (85 / 100) ≤ score then .excellent
  else if fl (70 / 100) ≤ score then .good
  else if fl (50 / 100) ≤ score then .fair
  else if fl (30 / 100) ≤ score then .poor
  else .failed

/-- The slippage between the limit and the arrival price, when both are set and
it does not round to zero; else a share of the impact. -/
def estimatedSlippage (plan : ExecutionPlan) (impactBps : ℚ) (fl : Rounding := exactRounding) :
    ℚ :=
  match plan.limitPrice, plan.arrivalPrice with
  | some limit, some arrival =>
      let distance := fl |limit.val - arrival.val|
      let slippage := fl.decimal 2 (fl (fl (distance / arrival.val) * 10000))
      if 0 < arrival.val ∧ slippage ≠ 0 then slippage else fl (impactBps * fl (3 / 10))
  | _, _ => fl (impactBps * fl (3 / 10))

/-- `estimate`: the pre-trade report of a plan. -/
def estimate (env : PlanningEnv) (plan : ExecutionPlan) (avgDailyVolume20d realizedVol20d : ℚ)
    (lambdaParam : ℚ := 1 / 10) (fl : Rounding := exactRounding) :
    Except RunError ExecutionQualityReport := do
  let impact := estimateSquareRootImpact env.sqrt plan.targetQuantity.val avgDailyVolume20d
    realizedVol20d lambdaParam fl
  let slippage := estimatedSlippage plan impact.impactBps fl
  let slip := slipScore slippage (fl (slippage * 2)) fl
  let impacted := impactScore impact.impactBps (fl (impact.impactBps * 2)) fl
  let score := fl.decimal 3 (fl (fl (fl (4 / 10) * slip) + fl (fl (6 / 10) * impacted)))
  let estimatedSlippageBps ← check "ExecutionQualityReport.estimated_slippage_bps" slippage
  let estimatedImpactBps ← check "ExecutionQualityReport.estimated_impact_bps" impact.impactBps
  let estimatedParticipationRate ←
    check "ExecutionQualityReport.estimated_participation_rate" impact.participationRate
  let executionScore ← check "ExecutionQualityReport.execution_score" score
  let slippageScore ← check "ExecutionQualityReport.slippage_score" slip
  let impactScore ← check "ExecutionQualityReport.impact_score" impacted
  return {
    evaluationId := "pre-" ++ env.reportUuid
    planId := plan.planId
    isPreTrade := true
    symbol := plan.symbol
    direction := plan.direction
    timestamp := plan.timestamp
    estimatedSlippageBps := estimatedSlippageBps
    estimatedImpactBps := estimatedImpactBps
    estimatedParticipationRate := estimatedParticipationRate
    participationRisk := participationRiskFromImpact impact
    executionScore := executionScore
    qualityRating := scoreToRating score fl
    slippageScore := slippageScore
    impactScore := impactScore
    fillRateScore := UnitRational.zero
    timingScore := UnitRational.zero
    metadata :=
      [("lambda_param", .number lambdaParam), ("adv_used", .number avgDailyVolume20d),
        ("realized_vol_used", .number realizedVol20d)] ++
      (plan.arrivalPrice.map fun price => ("arrival_price", ParamValue.number price.val)).toList }

/-! ## Algorithm selection -/

def vwapParams : Params := [("num_slices", .number 20), ("randomize", .flag true)]

def icebergParams : Params :=
  [("visible_size_ratio", .number (5 / 100)), ("reserve_type", .text "immediate")]

def adaptiveParams : Params :=
  [("impact_threshold_bps", .number 30), ("adjust_interval_seconds", .number 60),
    ("max_spread_bps", .number 20)]

/-- `_select_algorithm`. -/
def selectAlgorithm (positionPlan : PositionPlan) (impactBps : ℚ)
    (marketContext : Option MarketContext) (urgency : String) (fl : Rounding := exactRounding) :
    OrderType × Params :=
  if positionPlan.isReducing then (.market, [])
  else if 100 < impactBps then (.iceberg, icebergParams)
  else if marketContext.any fun market => fl (30 / 100) < market.realizedVol20d then
    (.adaptive, adaptiveParams)
  else if 50 ≤ impactBps ∧ impactBps ≤ 100 then (.vwap, vwapParams)
  else if urgency = "high" then (.market, [])
  else if impactBps < 50 then (.limit, [])
  else (.vwap, vwapParams)

/-! ## Prices, slices and score -/

/-- `_estimate_impact`. -/
def estimateImpact (sqrt : ℚ → ℚ) (qty : ℚ) (marketContext : Option MarketContext)
    (fl : Rounding := exactRounding) : ImpactEstimate :=
  match marketContext with
  | none => noImpact
  | some market =>
      estimateSquareRootImpact sqrt qty market.avgDailyVolume20d market.realizedVol20d (1 / 10) fl

/-- `_compute_limit_price`: a market order has none. -/
def computeLimitPrice (direction : Direction) (currentPrice slippageBps : ℚ)
    (algorithm : OrderType) (fl : Rounding := exactRounding) : Option ℚ :=
  if algorithm = .market ∨ currentPrice ≤ 0 then none
  else
    let slippage := fl (slippageBps / 10000)
    let allowance := fl (slippage * (3 / 2))
    let factor := if direction = .long then fl (1 + allowance) else fl (1 - allowance)
    some (fl.decimal 2 (fl (currentPrice * factor)))

/-- `_worst_price`. -/
def worstPrice (direction : Direction) (limitPrice : Option ℚ) (impactBps : ℚ)
    (fl : Rounding := exactRounding) : Option ℚ :=
  limitPrice.bind fun limit =>
    if limit ≤ 0 then none
    else
      let slippage := fl (fl (impactBps + 20) / 10000)
      let factor := if direction = .long then fl (1 + slippage) else fl (1 - slippage)
      some (fl.decimal 2 (fl (limit * factor)))

/-- The number of slices that the parameters ask for. -/
def sliceCount (params : Params) : ℕ :=
  match params.lookup "num_slices" with
  | some (.number n) => n.floor.toNat
  | _ => 20

/-- One second. -/
def second : Timestamp := 1000000

/-- Slice number `i` of `count` equal slices. -/
def buildSlice (qty : ℚ) (limitPrice : Option ℚ) (startTime : Timestamp) (timeLimit count i : ℕ)
    (fl : Rounding := exactRounding) : Except RunError ExecutionSlice := do
  let duration : Timestamp := (timeLimit / count : ℕ) * second
  let sliceStart := startTime + i * duration
  let quantity ← check "ExecutionSlice.quantity" (fl.decimal 2 (fl (qty / count)))
  let targetPrice ← checkOption "ExecutionSlice.target_price" limitPrice
  return {
    sliceId := i
    quantity := quantity
    startTime := sliceStart
    endTime := sliceStart + duration
    targetPrice := targetPrice
    orderType := .limit }

/-- `_build_slices`. -/
def buildSlices (qty : ℚ) (algorithm : OrderType) (params : Params) (limitPrice : Option ℚ)
    (startTime : Timestamp) (timeLimit : ℕ) (fl : Rounding := exactRounding) :
    Except RunError (List ExecutionSlice) :=
  if algorithm = .market ∨ algorithm = .limit ∨ algorithm = .iceberg then .ok []
  else
    let count := sliceCount params
    (List.range count).mapM fun i => buildSlice qty limitPrice startTime timeLimit count i fl

/-- `_compute_exec_score`. -/
def computeExecScore (impactBps slippageBps maxPr estimatedParticipation : ℚ)
    (fl : Rounding := exactRounding) : ℚ :=
  let impactScore := max 0 (fl (1 - min (fl (impactBps / 100)) 1))
  let slipScore := max 0 (fl (1 - min (fl (slippageBps / 50)) 1))
  let prScore := max 0 (fl (1 - fl (estimatedParticipation / max maxPr (fl (1 / 100)))))
  let costs := fl (fl (fl (4 / 10) * impactScore) + fl (fl (3 / 10) * slipScore))
  fl.decimal 3 (fl (costs + fl (fl (3 / 10) * prScore)))

/-! ## The plan -/

/-- The seconds that a plan may take. -/
def timeLimitSeconds : ℕ := 900

/-- The reduced plan that the evaluator estimates. -/
def mockPlan (positionPlan : PositionPlan) (planId : String) (ts : Timestamp)
    (qty notional impactBps slippageBps arrivalPrice : ℚ) (algorithm : OrderType) :
    Except RunError ExecutionPlan := do
  let targetQuantity ← check "ExecutionPlan.target_quantity" qty
  let notionalValue ← check "ExecutionPlan.notional_value" notional
  let arrival ← check "ExecutionPlan.arrival_price" arrivalPrice
  let estimatedImpactBps ← check "ExecutionPlan.estimated_impact_bps" impactBps
  let estimatedSlippageBps ← check "ExecutionPlan.estimated_slippage_bps" slippageBps
  return {
    planId := planId
    positionPlanId := positionPlan.planId
    decisionId := positionPlan.decisionId
    timestamp := ts
    symbol := positionPlan.symbol
    direction := positionPlan.direction
    targetQuantity := targetQuantity
    notionalValue := notionalValue
    algorithm := algorithm
    arrivalPrice := some arrival
    estimatedImpactBps := estimatedImpactBps
    estimatedSlippageBps := estimatedSlippageBps }

/-- The pre-trade report, when the daily volume is known. -/
def preTradeReport (env : PlanningEnv) (positionPlan : PositionPlan)
    (marketContext : Option MarketContext) (planId : String) (ts : Timestamp)
    (qty notional impactBps slippageBps arrivalPrice : ℚ) (algorithm : OrderType)
    (fl : Rounding := exactRounding) : Except RunError (Option ExecutionQualityReport) :=
  match marketContext with
  | none => .ok none
  | some market =>
      if 0 < market.avgDailyVolume20d then do
        let mock ← mockPlan positionPlan planId ts qty notional impactBps slippageBps arrivalPrice
          algorithm
        let report ← estimate env mock market.avgDailyVolume20d market.realizedVol20d (1 / 10) fl
        return some report
      else .ok none

/-- `plan`: the execution plan of a position plan. -/
def plan (env : PlanningEnv) (positionPlan : PositionPlan)
    (marketContext : Option MarketContext) (arrivalPrice : Option ℚ)
    (startTime : Option Timestamp) (urgency : String) (fl : Rounding := exactRounding) :
    Except RunError ExecutionPlan := do
  let qty := positionPlan.finalQuantity.val
  let direction := positionPlan.direction
  let planId := "ep-" ++ env.planUuid
  let ts := startTime.getD env.utcnow
  let arrivalPrice := arrivalPrice.getD ((marketContext.map MarketContext.currentPrice).getD 0)
  let notional := if 0 < arrivalPrice then fl (qty * arrivalPrice) else 0
  let impact := estimateImpact env.sqrt qty marketContext fl
  let (algorithm, params) := selectAlgorithm positionPlan impact.impactBps marketContext urgency fl
  let maxPr := fl (maxParticipation urgency)
  let estimatedParticipation := min impact.participationRate maxPr
  let limitPrice := computeLimitPrice direction arrivalPrice impact.impactBps algorithm fl
  let slices ← buildSlices qty algorithm params limitPrice ts timeLimitSeconds fl
  let slippageBps := fl (impact.impactBps * fl (3 / 10))
  let score := computeExecScore impact.impactBps slippageBps maxPr estimatedParticipation fl
  let preReport ← preTradeReport env positionPlan marketContext planId ts qty notional
    impact.impactBps slippageBps arrivalPrice algorithm fl
  let targetQuantity ← check "ExecutionPlan.target_quantity" qty
  let notionalValue ← check "ExecutionPlan.notional_value" notional
  let limit ← checkOption "ExecutionPlan.limit_price" limitPrice
  let worst ← checkOption "ExecutionPlan.worst_price"
    (worstPrice direction limitPrice impact.impactBps fl)
  let arrival ← check "ExecutionPlan.arrival_price" arrivalPrice
  let maxParticipationRate ← check "ExecutionPlan.max_participation_rate" maxPr
  let targetParticipationRate ←
    check "ExecutionPlan.target_participation_rate" estimatedParticipation
  let estimatedImpactBps ← check "ExecutionPlan.estimated_impact_bps" impact.impactBps
  let estimatedSlippageBps ← check "ExecutionPlan.estimated_slippage_bps" slippageBps
  let executionScore ← check "ExecutionPlan.execution_score" score
  return {
    planId := planId
    positionPlanId := positionPlan.planId
    decisionId := positionPlan.decisionId
    timestamp := ts
    symbol := positionPlan.symbol
    direction := direction
    targetQuantity := targetQuantity
    notionalValue := notionalValue
    algorithm := algorithm
    algorithmParams := params
    urgency := urgency
    limitPrice := limit
    worstPrice := worst
    arrivalPrice := some arrival
    timeLimitSeconds := timeLimitSeconds
    startTime := some ts
    endTime := some (ts + timeLimitSeconds * second)
    maxParticipationRate := maxParticipationRate
    targetParticipationRate := targetParticipationRate
    estimatedImpactBps := estimatedImpactBps
    estimatedSlippageBps := estimatedSlippageBps
    participationRisk := (impact.suggestedAction.replace "reduce_" "").replace "_or_split" ""
    slices := slices
    executionScore := executionScore
    scoreFactors :=
      [("impact_bps", .number impact.impactBps),
        ("participation_rate", .number estimatedParticipation), ("urgency", .text urgency)]
    preTradeReport := preReport
    metadata :=
      [("is_reducing", .flag positionPlan.isReducing),
        ("market_cap", .number ((marketContext.map MarketContext.marketCap).getD 0))] }

end TradeOS.Risk
