import TradeOS.Risk.Sizing
import TradeOS.Risk.Planner

/-!
# The risk engine

`calculate` turns an arbitration decision into a position plan. A bias that does
not trade, an exit without a position and a sizing of zero end in a zero plan.
Otherwise the sized order (`SizedOrder`) goes through the filters, and a positive
quantity that no filter rejected gets an execution plan.

The filter loop writes the audit trail: one limit check per filter and one
adjustment per change of the quantity. Its state is passed along.

The arithmetic of the floats is a parameter, `fl`; where none is given, it is exact.
-/

set_option autoImplicit false

namespace TradeOS.Risk

open TradeOS.Numeric

/-- What a call reads from its environment. -/
structure RiskEnv where
  start : Timestamp
  contextTime : Timestamp
  planTime : Timestamp
  finish : Timestamp
  planUuid : String
  planning : PlanningEnv

/-- The keyword arguments of `calculate`. -/
structure CallArgs where
  currentPrice : ℚ := 0
  avgDailyVolume20d : ℚ := 0
  realizedVol20d : ℚ := 0
  atr14 : ℚ := 0
  marketCap : ℚ := 0
  existingPositionQty : ℚ := 0
  existingDirection : Option Direction := none
  avgEntryPrice : ℚ := 0
  dailyLossPct : ℚ := 0
  currentDrawdownPct : ℚ := 0
  correlationValue : Option ℚ := none
  kellyWinRate : Option ℚ := none
  kellyAvgWin : Option ℚ := none
  kellyAvgLoss : Option ℚ := none
  urgency : String := "medium"

/-- The engine, with its limits. -/
structure RiskEngine where
  riskLimits : RiskLimits := defaultRiskLimits

/-! ## Bias and direction -/

/-- `_canonical_bias`: an empty bias falls back to the target direction. -/
def canonicalBias (decision : ArbitrationDecision) : Bias :=
  if decision.bias.text ≠ "" then decision.bias
  else
    let named := decision.targetDirection.filter fun target => target ≠ ""
    let towards (direction : Direction) (name : String) : Bool :=
      match named with
      | some target => upper target = name
      | none => decision.direction = direction
    if towards .long "LONG" then .longBias
    else if towards .short "SHORT" then .shortBias
    else .noTrade

/-- The direction of the remaining exposure, its sign and the action that leads
there. -/
structure Route where
  direction : Direction
  directionSign : ℤ
  execAction : ExecAction

/-- The route of a bias, or the reason of a zero plan. -/
def route (bias : Bias) (existing : Option Direction) : Except String Route :=
  match bias with
  | .longBias => .ok ⟨.long, 1, .buy⟩
  | .shortBias => .ok ⟨.short, -1, .sell⟩
  | .exitBias =>
      match existing with
      | some .long => .ok ⟨.short, -1, .sell⟩
      | some .short => .ok ⟨.long, 1, .buy⟩
      | _ => .error "exit_without_position"
  | .reduceRisk =>
      match existing with
      | some .long => .ok ⟨.long, 1, .sell⟩
      | some .short => .ok ⟨.short, -1, .buy⟩
      | _ => .error "reduce_without_position"
  | _ => .ok ⟨.flat, 0, .flat⟩

/-- `_zero_plan`. -/
def zeroPlan (env : RiskEnv) (decisionId symbol : String) (bias : Bias)
    (equity : PositiveRational) (currentPrice : ℚ) (reason : String) : PositionPlan where
  planId := "pp-" ++ env.planUuid
  decisionId := decisionId
  timestamp := env.planTime
  symbol := symbol
  bias := bias
  arbitrationConfidence := UnitRational.zero
  direction := .flat
  sizingMethod := "none"
  baseQuantity := NonnegRational.zero
  finalQuantity := NonnegRational.zero
  notionalValue := NonnegRational.zero
  currentPrice := ⟨max currentPrice minPrice, lt_max_of_lt_right (by norm_num [minPrice])⟩
  vetoTriggered := true
  vetoReasons := [reason]
  sizingRationale := "bias=" ++ bias.text ++ ", reason: " ++ reason
  portfolioSnapshotEquity := ⟨equity.val, equity.property.le⟩

/-- `_collect_veto_reasons`. -/
def collectVetoReasons (decisionReason vetoReason : Option String) : List String :=
  let reasons := ((decisionReason.getD "").splitOn ";").filter fun item => item ≠ ""
  match vetoReason with
  | none => reasons
  | some reason => if reason ≠ "" ∧ reason ∉ reasons then reasons ++ [reason] else reasons

/-! ## The filter chain -/

/-- The state of the filter loop. -/
structure FilterState where
  currentQty : ℚ
  riskAdjustments : List RiskAdjustment := []
  limitChecks : List LimitCheck := []
  veto : Bool := false
  vetoReason : Option String := none

/-- The limit check of one filter. -/
def limitCheckOf (limits : RiskLimits) (originalQty currentQty : ℚ) (f : RiskFilter)
    (result : FilterResult) : LimitCheck where
  limitName := f.name
  limitValue := limitValue limits f.name
  rawQty := originalQty
  actualValue := currentQty
  passed := result.limitCheckPassed
  mode := result.mode
  details := result.details

/-- The kind of a change. -/
def adjustmentTypeOf (currentQty : ℚ) (result : FilterResult) : AdjustmentType :=
  if result.mode = .veto then .zeroed
  else if result.adjustedQty < currentQty then .reduced
  else .capped

/-- The adjustment that a filter records, when it changed the quantity. -/
def adjustmentOf (currentQty : ℚ) (f : RiskFilter) (result : FilterResult) :
    Except RunError (List RiskAdjustment) :=
  if result.adjustedQty ≠ currentQty then do
    let original ← check "RiskAdjustment.original_quantity" currentQty
    let adjusted ← check "RiskAdjustment.adjusted_quantity" result.adjustedQty
    return [{
      filterName := f.name
      adjustmentType := adjustmentTypeOf currentQty result
      originalQuantity := original
      adjustedQuantity := adjusted
      reason := result.details }]
  else .ok []

/-- The veto text of a rejecting filter. -/
def vetoText (f : RiskFilter) (result : FilterResult) : String :=
  if result.details = "" then f.name ++ " veto" else result.details

/-- One round of the filter loop. -/
def filterStep (limits : RiskLimits) (context : FilterContext) (originalQty : ℚ)
    (state : FilterState) (f : RiskFilter) : Except RunError FilterState := do
  let result := f.apply context state.currentQty
  let adjustment ← adjustmentOf state.currentQty f result
  return {
    currentQty := result.adjustedQty
    riskAdjustments := state.riskAdjustments ++ adjustment
    limitChecks := state.limitChecks ++
      [limitCheckOf limits originalQty state.currentQty f result]
    veto := state.veto || !result.passed
    vetoReason := if result.passed then state.vetoReason else some (vetoText f result) }

/-- The filter loop. -/
def filterLoop (limits : RiskLimits) (context : FilterContext) (originalQty : ℚ) :
    List RiskFilter → FilterState → Except RunError FilterState
  | [], state => .ok state
  | f :: filters, state => do
      let next ← filterStep limits context originalQty state f
      filterLoop limits context originalQty filters next

/-- The check after the loop: a quantity that reached zero without a rejection is
a veto too. -/
def closeLoop (state : FilterState) : FilterState :=
  if state.currentQty ≤ 0 ∧ state.vetoReason = none then
    { state with veto := true, vetoReason := some "sizing_zero_quantity" }
  else state

/-- The parameters of `_run_filters`, the quantity apart. -/
structure FilterArgs where
  directionSign : ℤ
  symbol : String
  equity : ℚ
  marketContext : MarketContext
  currentPrice : ℚ
  existingPositionQty : ℚ := 0
  existingPositionSymbols : List String := []
  existingDirections : List ℤ := []
  correlationMatrix : List ((String × String) × ℚ) := []
  correlationValue : Option ℚ := none
  avgEntryPrice : ℚ := 0
  dailyLossPct : ℚ := 0
  currentDrawdownPct : ℚ := 0

/-- The keyword arguments that the loop hands to every filter. -/
def FilterArgs.context (args : FilterArgs) (limits : RiskLimits) : FilterContext where
  directionSign := args.directionSign
  riskLimits := some limits
  symbol := args.symbol
  portfolioEquity := args.equity
  currentPrice := args.currentPrice
  marketContext := some args.marketContext
  existingPositionQty := args.existingPositionQty
  existingPositionSymbols := args.existingPositionSymbols
  existingDirections := args.existingDirections
  correlationMatrix := args.correlationMatrix
  correlationValue := args.correlationValue
  avgEntryPrice := args.avgEntryPrice
  dailyLossPct := args.dailyLossPct
  currentDrawdownPct := args.currentDrawdownPct

/-- `_run_filters`. -/
def runFilters (engine : RiskEngine) (args : FilterArgs) (qty : ℚ)
    (fl : Rounding := exactRounding) : Except RunError FilterState :=
  if qty ≤ 0 then
    .ok { currentQty := 0, veto := true, vetoReason := some "sizing_zero_quantity" }
  else do
    let state ← filterLoop engine.riskLimits (args.context engine.riskLimits) qty
      (riskFilters fl) { currentQty := qty }
    return closeLoop state

/-! ## The call -/

section Calculate

variable (engine : RiskEngine) (env : RiskEnv) (decision : ArbitrationDecision)
  (portfolio : Portfolio) (marketContext : Option MarketContext) (args : CallArgs)

/-- The market context of a call: the given one, else one built from the keyword
arguments. -/
def callContext (fl : Rounding := exactRounding) : MarketContext :=
  marketContext.getD
    (buildMarketContext decision.symbol env.contextTime args.currentPrice args.avgDailyVolume20d
      args.realizedVol20d args.atr14 args.marketCap fl)

/-- An order that reaches the filters. -/
structure SizedOrder where
  bias : Bias
  route : Route
  sizing : SizingResult

/-- The inputs of the sizing chain. -/
def sizingInputs (fl : Rounding := exactRounding) : SizingInputs where
  portfolioEquity := portfolio.totalEquity.val
  directionConfidence := decision.confidence
  marketContext := callContext env decision marketContext args fl
  stopDistancePct := fl (1 / 100)
  targetAnnualVol := fl (15 / 100)
  drawdownRatio := args.currentDrawdownPct
  kellyWinRate := args.kellyWinRate
  kellyAvgWin := args.kellyAvgWin
  kellyAvgLoss := args.kellyAvgLoss

/-- An exit or a reduction is cut to the existing position. -/
def clampSizing (bias : Bias) (existingPositionQty : ℚ) (sizing : SizingResult) : SizingResult :=
  if (bias = .exitBias ∨ bias = .reduceRisk) ∧ 0 < existingPositionQty ∧
      existingPositionQty < sizing.qty then
    { sizing with
      qty := existingPositionQty
      rationale := sizing.rationale ++ " [clamped to existing_position_qty=" ++
        formatFixed 0 existingPositionQty ++ "]" }
  else sizing

/-- The call up to the filters: a zero plan, or the order that reaches them. -/
def sizeOrder (fl : Rounding := exactRounding) : Except RunError (PositionPlan ⊕ SizedOrder) :=
  let context := callContext env decision marketContext args fl
  let bias := canonicalBias decision
  let zero (currentPrice : ℚ) (reason : String) : PositionPlan :=
    zeroPlan env decision.decisionId decision.symbol bias portfolio.totalEquity currentPrice reason
  if bias = .noTrade ∨ bias = .holdBias then
    let reason := decision.noTradeReason.getD ""
    .ok (.inl (zero args.currentPrice (if reason = "" then "arbitration_no_trade" else reason)))
  else
    match route bias args.existingDirection with
    | .error reason => .ok (.inl (zero args.currentPrice reason))
    | .ok taken => do
        let sizing ← runSizingChain (sizingInputs env decision portfolio marketContext args fl) fl
        if sizing.qty ≤ 0 then
          let reason := if sizing.rationale = "" then "sizing_zero_quantity" else sizing.rationale
          return .inl (zero context.currentPrice ("sizing_zero_quantity:" ++ reason))
        else return .inr ⟨bias, taken, clampSizing bias args.existingPositionQty sizing⟩

/-- **An order that reaches the filters** has a route, and its sizing is positive before it is
cut to the existing position. -/
theorem sizeOrder_eq_inr {env : RiskEnv} {decision : ArbitrationDecision} {portfolio : Portfolio}
    {marketContext : Option MarketContext} {args : CallArgs} {fl : Rounding} {order : SizedOrder}
    (reached : sizeOrder env decision portfolio marketContext args fl = .ok (.inr order)) :
    ∃ taken sizing, route (canonicalBias decision) args.existingDirection = .ok taken ∧
      runSizingChain (sizingInputs env decision portfolio marketContext args fl) fl =
        .ok sizing ∧
      0 < sizing.qty ∧
      order = ⟨canonicalBias decision, taken,
        clampSizing (canonicalBias decision) args.existingPositionQty sizing⟩ := by
  unfold sizeOrder at reached
  dsimp only at reached
  split at reached
  · cases reached
  · split at reached
    · cases reached
    · rename_i taken routed
      obtain ⟨sizing, sized, rest⟩ := bind_eq_ok_iff.mp reached
      split at rest
      · cases rest
      · rename_i positive
        cases rest
        exact ⟨taken, sizing, routed, sized, not_le.mp positive, rfl⟩

/-- The sign of an existing position. -/
def sideSign : Direction → ℤ
  | .long => 1
  | .short => -1
  | .flat => 0

/-- What a call passes to `_run_filters`. -/
def filterArgs (directionSign : ℤ) (fl : Rounding := exactRounding) : FilterArgs :=
  let context := callContext env decision marketContext args fl
  let others := portfolio.positions.filter fun position => position.symbol ≠ decision.symbol
  { directionSign := directionSign
    symbol := decision.symbol
    equity := portfolio.totalEquity.val
    marketContext := context
    currentPrice := context.currentPrice
    existingPositionQty := args.existingPositionQty
    existingPositionSymbols := others.map Position.symbol
    existingDirections := others.map fun position => sideSign position.side
    correlationMatrix := portfolio.correlationMatrix
    correlationValue := args.correlationValue
    avgEntryPrice := args.avgEntryPrice
    dailyLossPct := args.dailyLossPct
    currentDrawdownPct := args.currentDrawdownPct }

/-- The position plan of a filtered order, before its execution plan. -/
def positionPlanOf (order : SizedOrder) (filtered : FilterState)
    (fl : Rounding := exactRounding) : Except RunError PositionPlan := do
  let context := callContext env decision marketContext args fl
  let finalQty := if filtered.veto then 0 else filtered.currentQty
  let confidence ← check "PositionPlan.arbitration_confidence" decision.confidence
  let baseQuantity ← check "PositionPlan.base_quantity" order.sizing.qty
  let finalQuantity ← check "PositionPlan.final_quantity" finalQty
  let notionalValue ← check "PositionPlan.notional_value" (fl (finalQty * context.currentPrice))
  let currentPrice ← check "PositionPlan.current_price" context.currentPrice
  return {
    planId := "pp-" ++ env.planUuid
    decisionId := decision.decisionId
    timestamp := env.planTime
    symbol := decision.symbol
    bias := order.bias
    arbitrationConfidence := confidence
    direction := order.route.direction
    sizingMethod := order.sizing.method
    baseQuantity := baseQuantity
    finalQuantity := finalQuantity
    notionalValue := notionalValue
    currentPrice := currentPrice
    riskAdjustments := filtered.riskAdjustments
    limitChecks := filtered.limitChecks
    vetoTriggered := filtered.veto
    vetoReasons := collectVetoReasons decision.noTradeReason filtered.vetoReason
    sizingRationale := order.sizing.rationale
    execAction := some order.route.execAction
    portfolioSnapshotEquity := ⟨portfolio.totalEquity.val, portfolio.totalEquity.property.le⟩ }

/-- The execution plan of a position plan with a positive quantity. -/
def executionPlanOf (positionPlan : PositionPlan) (fl : Rounding := exactRounding) :
    Except RunError (Option ExecutionPlan) :=
  let context := callContext env decision marketContext args fl
  if 0 < positionPlan.finalQuantity.val then do
    let executionPlan ← plan env.planning positionPlan (some context) (some context.currentPrice)
      none args.urgency fl
    return some executionPlan
  else .ok none

/-- The text that closes the rationale. -/
def latencyText : String :=
  " (risk_engine_latency=" ++ formatFixed 2 ((env.finish - env.start : ℚ) / 1000) ++ "ms)"

/-- The call from the filters on. -/
def finishOrder (order : SizedOrder) (fl : Rounding := exactRounding) :
    Except RunError PositionPlan := do
  let filtered ← runFilters engine
    (filterArgs env decision portfolio marketContext args order.route.directionSign fl)
    order.sizing.qty fl
  let positionPlan ← positionPlanOf env decision portfolio marketContext args order filtered fl
  let executionPlan ← executionPlanOf env decision marketContext args positionPlan fl
  return { positionPlan with
    executionPlan := executionPlan
    sizingRationale := positionPlan.sizingRationale ++ latencyText env }

/-- `RiskEngine.calculate`. -/
def calculate (fl : Rounding := exactRounding) : Except RunError PositionPlan := do
  match ← sizeOrder env decision portfolio marketContext args fl with
  | .inl zero => return zero
  | .inr order => finishOrder engine env decision portfolio marketContext args order fl

end Calculate

end TradeOS.Risk
