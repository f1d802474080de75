import TradeOS.Arbitration.Engine
import TradeOS.Risk.Engine

/-!
# The routes that suggest a trade

The routes of the service build the input of an engine from a request and turn what the engine
returns into a view. `calculateRisk` does this for the risk engine. `runFullPipeline` strings three
phases together: it builds a technical signal from the request, arbitrates on that signal alone,
and hands the decision to the risk engine. A phase that raises is recorded in the response and the
others run on.

A request is a value whose fields have passed their checks. The pipeline builds two requests
itself, and these checks run then: they are `ArbitrationRunRequest.build` and
`RiskCalculateRequest.build`.
-/

set_option autoImplicit false

namespace TradeOS.Api

open Arbitration Risk

/-! ## Words -/

/-- A direction as a request spells it. -/
inductive RequestDirection where
  | long
  | short
  | flat
  deriving DecidableEq, Repr

def RequestDirection.text : RequestDirection → String
  | .long => "LONG"
  | .short => "SHORT"
  | .flat => "FLAT"

/-- `direction_map`, which all routes hold. -/
def RequestDirection.direction : RequestDirection → Direction
  | .long => .long
  | .short => .short
  | .flat => .flat

/-- The check of a direction: the three words, in upper case. -/
def requestDirection (path text : String) : Except RunError RequestDirection :=
  if text = "LONG" then .ok .long
  else if text = "SHORT" then .ok .short
  else if text = "FLAT" then .ok .flat
  else .error (.validation path)

/-- The check of an optional direction. -/
def optionalDirection (path : String) : Option String → Except RunError (Option RequestDirection)
  | none => .ok none
  | some text => do
      let word ← requestDirection path text
      return some word

/-- A bias that a risk request may name. -/
abbrev RequestBias := {bias : Bias // bias.text ∈ arbitrationBiasOptions}

def requestBiases : List RequestBias :=
  [⟨.noTrade, by decide⟩, ⟨.longBias, by decide⟩, ⟨.shortBias, by decide⟩,
    ⟨.holdBias, by decide⟩, ⟨.reduceRisk, by decide⟩, ⟨.exitBias, by decide⟩]

/-- The check of a bias. -/
def requestBias (path text : String) : Except RunError RequestBias :=
  match requestBiases.find? fun bias => bias.val.text = text with
  | some bias => .ok bias
  | none => .error (.validation path)

/-! ## Risk -/

/-- The keyword arguments of a risk request, before they are checked. -/
structure RiskCalculateArgs where
  decisionId : String
  symbol : String
  bias : String
  confidence : ℚ
  direction : Option String := none
  targetDirection : Option String := none
  riskAdjustment : ℚ := 1
  noTradeReason : Option String := none
  portfolioValue : ℚ
  currentPrice : ℚ
  regime : Regime := .trendingUp
  timestamp : Option Timestamp := none

/-- Request of the risk route. -/
structure RiskCalculateRequest where
  decisionId : String
  symbol : String
  bias : RequestBias
  confidence : UnitRational
  direction : Option RequestDirection := none
  targetDirection : Option RequestDirection := none
  riskAdjustment : UnitRational := ⟨1, zero_le_one, le_rfl⟩
  noTradeReason : Option String := none
  portfolioValue : PositiveRational
  currentPrice : PositiveRational
  regime : Regime := .trendingUp
  existingPosition : ℚ := 0
  existingDirection : RequestDirection := .flat
  avgEntryPrice : NonnegRational := NonnegRational.zero
  maxPositionPct : Option UnitRational := none
  timestamp : Option Timestamp := none

/-- The checks of a risk request, in the order of its fields. -/
def RiskCalculateRequest.build (args : RiskCalculateArgs) :
    Except RunError RiskCalculateRequest := do
  let bias ← requestBias "RiskCalculateRequest.bias" args.bias
  let confidence ← check "RiskCalculateRequest.confidence" args.confidence
  let direction ← optionalDirection "RiskCalculateRequest.direction" args.direction
  let targetDirection ←
    optionalDirection "RiskCalculateRequest.target_direction" args.targetDirection
  let riskAdjustment ← check "RiskCalculateRequest.risk_adjustment" args.riskAdjustment
  let portfolioValue ← check "RiskCalculateRequest.portfolio_value" args.portfolioValue
  let currentPrice ← check "RiskCalculateRequest.current_price" args.currentPrice
  return {
    decisionId := args.decisionId
    symbol := args.symbol
    bias := bias
    confidence := confidence
    direction := direction
    targetDirection := targetDirection
    riskAdjustment := riskAdjustment
    noTradeReason := args.noTradeReason
    portfolioValue := portfolioValue
    currentPrice := currentPrice
    regime := args.regime
    timestamp := args.timestamp }

section Risk

variable (env : RiskEnv) (utcnow : Timestamp) (req : RiskCalculateRequest)

/-- The decision that a risk request stands for. -/
def RiskCalculateRequest.decision : ArbitrationDecision :=
  let direction := ((req.direction.or req.targetDirection).getD .flat).direction
  { decisionId := req.decisionId
    timestamp := req.timestamp.getD utcnow
    symbol := req.symbol
    bias := req.bias.val
    confidence := req.confidence.val
    direction := direction
    targetDirection := some ((req.targetDirection.map RequestDirection.text).getD direction.value)
    riskAdjustment := req.riskAdjustment.val
    noTradeReason := req.noTradeReason
    signalCount := 1 }

/-- The portfolio of a risk request: no positions. -/
def RiskCalculateRequest.portfolio : Portfolio where
  totalEquity := req.portfolioValue

/-- The keyword arguments of the engine. The market data that a request does not have keep their
defaults. -/
def RiskCalculateRequest.args : CallArgs where
  currentPrice := req.currentPrice.val
  existingPositionQty := req.existingPosition
  existingDirection := some req.existingDirection.direction
  avgEntryPrice := req.avgEntryPrice.val

/-- `_call_risk_engine`. -/
def callRiskEngine : Except RunError PositionPlan :=
  calculate {} env (req.decision utcnow) req.portfolio none req.args

end Risk

def FilterMode.text : FilterMode → String
  | .pass => "pass"
  | .cap => "cap"
  | .veto => "veto"

def orderTypeValue : Risk.OrderType → String
  | .market => "market"
  | .limit => "limit"
  | .stop => "stop"
  | .stopLimit => "stop_limit"
  | .twap => "twap"
  | .vwap => "vwap"
  | .pov => "pov"
  | .iceberg => "iceberg"
  | .adaptive => "adaptive"

/-- The action of a plan as text. A zero plan has none, which the view spells out. -/
def execActionText : Option ExecAction → String
  | some .buy => "BUY"
  | some .sell => "SELL"
  | some .flat => "FLAT"
  | none => "None"

structure LimitCheckView where
  filterName : String
  passed : Bool
  mode : String
  rawQty : ℚ
  adjustedQty : ℚ
  reason : String

structure ExecutionPlanView where
  algorithm : String
  limitPrice : Option ℚ
  stopPrice : Option ℚ := none
  timestamp : Timestamp

/-- Response of the risk route. -/
structure PositionPlanView where
  planId : String
  symbol : String
  direction : String
  execAction : String
  finalQuantity : ℚ
  vetoTriggered : Bool
  vetoReason : Option String := none
  vetoSource : Option String := none
  decisionGateReason : Option String := none
  limitChecks : List LimitCheckView := []
  executionPlan : Option ExecutionPlanView := none
  timestamp : Timestamp

/-- `needle in text`. -/
def contains (needle text : String) : Bool := needle.toList <:+: text.toList

/-- The reason of a veto, its source and the reason of the gate. -/
structure VetoView where
  reason : Option String := none
  source : Option String := none
  gateReason : Option String := none

/-- The gate that a reason of the decision names. -/
def gateSource (reason : String) : String :=
  if reason.startsWith "sizing_zero_quantity" then "sizing"
  else if contains "arbitration" reason ∨ contains "no_trade" reason then "arbitration"
  else "decision_gate"

/-- What the view says about a veto: the first check that failed, else the first reason of the
plan. -/
def vetoView (plan : PositionPlan) : VetoView :=
  if plan.vetoTriggered then
    match plan.limitChecks.find? fun lc => !lc.passed with
    | some lc =>
        { reason := some (if lc.details = "" then lc.limitName ++ " veto" else lc.details)
          source := some lc.limitName }
    | none =>
        match plan.vetoReasons.head? with
        | none => {}
        | some reason =>
            if reason = "" then { reason := some reason }
            else
              { reason := some reason
                source := some (gateSource reason)
                gateReason := some reason }
  else {}

/-- `_to_plan_view`. -/
def toPlanView (plan : PositionPlan) : PositionPlanView where
  planId := plan.planId
  symbol := plan.symbol
  direction := plan.direction.value
  execAction := execActionText plan.execAction
  finalQuantity := plan.finalQuantity.val
  vetoTriggered := plan.vetoTriggered
  vetoReason := (vetoView plan).reason
  vetoSource := (vetoView plan).source
  decisionGateReason := (vetoView plan).gateReason
  limitChecks := plan.limitChecks.map fun lc =>
    { filterName := lc.limitName
      passed := lc.passed
      mode := FilterMode.text lc.mode
      rawQty := lc.rawQty
      adjustedQty := lc.actualValue
      reason := lc.details }
  executionPlan := (plan.executionPlan.filter fun _ => !plan.vetoTriggered).map fun ep =>
    { algorithm := orderTypeValue ep.algorithm
      limitPrice := ep.limitPrice.map Subtype.val
      timestamp := ep.timestamp }
  timestamp := plan.timestamp

/-- `calculate_risk`. -/
def calculateRisk (env : RiskEnv) (utcnow : Timestamp) (req : RiskCalculateRequest) :
    Except RunError PositionPlanView :=
  (callRiskEngine env utcnow req).map toPlanView

/-! ## Analysis -/

/-- The technical signal of the analysis route. -/
structure AnalysisSignal where
  engineName : String
  symbol : String
  timestamp : Timestamp
  direction : Direction
  confidence : UnitRational
  regime : Regime
  entryScore : UnitRational
  exitScore : UnitRational

/-- `_call_analysis_engine`: no bars are read, the request is the signal. -/
def callAnalysisEngine (utcnow : Timestamp) (symbol : String) (direction : RequestDirection)
    (confidence score : UnitRational) : AnalysisSignal where
  engineName := "technical"
  symbol := symbol
  timestamp := utcnow
  direction := direction.direction
  confidence := confidence
  regime := .unknown
  entryScore := score
  exitScore := score

/-! ## Arbitration -/

/-- Request of the arbitration route. -/
structure ArbitrationRunRequest where
  symbol : String
  direction : RequestDirection
  confidence : UnitRational
  strength : UnitRational
  regime : Regime
  timestamp : Option Timestamp := none
  fits : 1 ≤ symbol.length ∧ symbol.length ≤ 16

/-- The check of an arbitration request: the length of its symbol. -/
def ArbitrationRunRequest.build (symbol : String) (direction : RequestDirection)
    (confidence strength : UnitRational) (regime : Regime) (timestamp : Option Timestamp) :
    Except RunError ArbitrationRunRequest :=
  if fits : 1 ≤ symbol.length ∧ symbol.length ≤ 16 then
    .ok ⟨symbol, direction, confidence, strength, regime, timestamp, fits⟩
  else .error (.validation "ArbitrationRunRequest.symbol")

/-- The signals that a request stands for: one technical signal. -/
def ArbitrationRunRequest.signals (req : ArbitrationRunRequest) : AnalysisSignals where
  technical := some
    { direction := req.direction.direction
      confidence := req.confidence
      regime := req.regime }

/-- `_call_arbitration_engine`. -/
def callArbitrationEngine (clock : Clock) (req : ArbitrationRunRequest) : ArbitrationDecision :=
  arbitrate clock req.symbol req.timestamp req.signals

/-! ## The full pipeline -/

/-- Request of the full pipeline. -/
structure PipelineRunFullRequest where
  symbol : String
  direction : RequestDirection
  confidence : UnitRational
  strength : UnitRational
  regime : Regime := .trendingUp
  timestamp : Option Timestamp := none

/-- What a phase reports about its result. -/
inductive PhaseDetail where
  | analysis (signalId : String) (direction : String)
  | arbitration (decisionId : String) (bias : Bias) (confidence : ℚ)
  | risk (planId : String) (direction : Direction)
  | skipped (reason : String)

/-- The result of one phase. -/
structure PipelinePhaseResult where
  phase : String
  ok : Bool := true
  detail : Option PhaseDetail := none
  error : Option RunError := none

structure PipelineDecisionView where
  decisionId : String
  symbol : String
  bias : Bias
  confidence : ℚ
  signalCount : ℕ
  rulesApplied : List String
  timestamp : Timestamp

structure PipelinePlanView where
  planId : String
  symbol : String
  direction : Direction
  finalQuantity : ℚ
  vetoTriggered : Bool
  limitChecks : List (String × Bool)

/-- The status of a run: `"done"` or `"partial"`. -/
inductive PipelineStatus where
  | done
  | incomplete
  deriving DecidableEq, Repr

/-- `"Phase n failed"`, with what was raised. -/
structure PhaseFailure where
  number : ℕ
  raised : RunError
  deriving DecidableEq, Repr

/-- Response of the full pipeline. -/
structure PipelineRunFullResponse where
  ok : Bool
  taskId : String := "immediate"
  status : PipelineStatus
  symbol : String
  phases : List PipelinePhaseResult
  decision : Option PipelineDecisionView
  plan : Option PipelinePlanView
  error : Option PhaseFailure

/-- What a run reads from its environment. -/
structure PipelineEnv where
  utcnow : Timestamp
  clock : Clock
  risk : RiskEnv

section Pipeline

variable (env : PipelineEnv) (req : PipelineRunFullRequest)

/-- `_run_phase5`. -/
def runPhase5 : PhaseDetail :=
  let signal := callAnalysisEngine env.utcnow req.symbol req.direction req.confidence req.strength
  .analysis (signal.engineName ++ "-" ++ signal.symbol) signal.direction.value

/-- `_run_phase6`. -/
def runPhase6 (ts : Timestamp) : Except RunError ArbitrationDecision := do
  let built ← ArbitrationRunRequest.build req.symbol req.direction req.confidence req.strength
    req.regime (some ts)
  return callArbitrationEngine env.clock built

/-- `_bias_to_risk_format`. -/
def biasToRiskFormat (direction bias : String) : String :=
  if bias ∈ ["long_bias", "short_bias", "hold_bias", "no_trade", "reduce_risk", "exit_bias"] then
    bias
  else
    (([("LONG", "long_bias"), ("SHORT", "short_bias"), ("FLAT", "no_trade")] :
      List (String × String)).lookup (upper direction)).getD "no_trade"

/-- The keyword arguments of the risk request of a run. -/
def phase7Args (decision : ArbitrationDecision) (ts : Timestamp) : RiskCalculateArgs where
  symbol := req.symbol
  decisionId := decision.decisionId
  bias := biasToRiskFormat req.direction.text decision.bias.text
  confidence := req.confidence.val
  direction := some decision.direction.value
  targetDirection := decision.targetDirection
  riskAdjustment := decision.riskAdjustment
  noTradeReason := decision.noTradeReason
  portfolioValue := 100000
  currentPrice := 100
  regime := req.regime
  timestamp := some ts

/-- `_run_phase7`. -/
def runPhase7 (decision : ArbitrationDecision) (ts : Timestamp) : Except RunError PositionPlan := do
  let built ← RiskCalculateRequest.build (phase7Args req decision ts)
  callRiskEngine env.risk env.utcnow built

/-- The phases, the decision and the plan of a response, and the last failure. -/
structure PipelineState where
  phases : List PipelinePhaseResult := []
  decision : Option ArbitrationDecision := none
  plan : Option PositionPlan := none
  error : Option PhaseFailure := none

/-- Phase 5 of a run. -/
def analysisPhase (state : PipelineState) : PipelineState :=
  { state with
    phases := state.phases ++ [{ phase := "analysis", detail := some (runPhase5 env req) }] }

/-- Phase 6 of a run. -/
def arbitrationPhase (ts : Timestamp) (state : PipelineState) : PipelineState :=
  match runPhase6 env req ts with
  | .ok decision =>
      { state with
        phases := state.phases ++ [{
          phase := "arbitration"
          detail := some (.arbitration decision.decisionId decision.bias decision.confidence) }]
        decision := some decision }
  | .error raised =>
      { state with
        phases := state.phases ++ [{ phase := "arbitration", ok := false, error := some raised }]
        error := some ⟨6, raised⟩ }

/-- The text of a phase that was skipped. -/
def skipReason (decision : Option ArbitrationDecision) : String :=
  "bias=" ++ ((decision.map fun decision => decision.bias.text).getD "N/A") ++ " 鈥?no trade"

/-- A decision that phase 7 does not see. -/
def idle (decision : ArbitrationDecision) : Bool :=
  decision.bias.text ∈ ["no_trade", "exit_bias"]

/-- Phase 7 of a run. -/
def riskPhase (ts : Timestamp) (state : PipelineState) : PipelineState :=
  match state.decision.filter fun decision => !idle decision with
  | some decision =>
      match runPhase7 env req decision ts with
      | .ok plan =>
          { state with
            phases := state.phases ++
              [{ phase := "risk", detail := some (.risk plan.planId plan.direction) }]
            plan := some plan }
      | .error raised =>
          { state with
            phases := state.phases ++ [{ phase := "risk", ok := false, error := some raised }]
            error := some ⟨7, raised⟩ }
  | none =>
      { state with
        phases := state.phases ++
          [{ phase := "risk", detail := some (.skipped (skipReason state.decision)) }] }

def decisionView (decision : ArbitrationDecision) : PipelineDecisionView where
  decisionId := decision.decisionId
  symbol := decision.symbol
  bias := decision.bias
  confidence := decision.confidence
  signalCount := decision.signalCount
  rulesApplied := decision.rulesApplied
  timestamp := decision.timestamp

def planView (plan : PositionPlan) : PipelinePlanView where
  planId := plan.planId
  symbol := plan.symbol
  direction := plan.direction
  finalQuantity := plan.finalQuantity.val
  vetoTriggered := plan.vetoTriggered
  limitChecks := plan.limitChecks.map fun lc => (lc.limitName, lc.passed)

/-- `run_full_pipeline`. A run is done if no phase failed. -/
def runFullPipeline : PipelineRunFullResponse :=
  let ts := req.timestamp.getD env.utcnow
  let state := riskPhase env req ts (arbitrationPhase env req ts (analysisPhase env req {}))
  let status : PipelineStatus := if state.error = none then .done else .incomplete
  { ok := status = .done
    status := status
    symbol := req.symbol
    phases := state.phases
    decision := state.decision.map decisionView
    plan := state.plan.map planView
    error := state.error }

end Pipeline

end TradeOS.Api
