import TradeOS.Numeric.Binary64
import TradeOS.Schemas

/-!
# Risk layer: records

The records of `core/risk/schemas` and the market context. A position plan, an
execution plan, its slices, its pre-trade report and a risk adjustment are
checked when they are built, so their bounded fields carry their bounds. The
market context is a plain record whose fields are not checked.

Times are in microseconds.
-/

set_option autoImplicit false

namespace TradeOS.Risk

open TradeOS.Numeric

/-! ## Market context -/

/-- Market environment of one call. -/
structure MarketContext where
  symbol : String
  timestamp : Timestamp
  currentPrice : ℚ
  avgDailyVolume20d : ℚ := 0
  adv20dUsd : ℚ := 0
  marketCap : ℚ := 0
  realizedVol20d : ℚ := 0
  atr14 : ℚ := 0

/-- The smallest price that a context is built with. -/
def minPrice : ℚ := 1 / 100

/-- `build_market_context`. -/
def buildMarketContext (symbol : String) (timestamp : Timestamp)
    (currentPrice avgDailyVolume20d realizedVol20d atr14 marketCap : ℚ)
    (fl : Rounding := exactRounding) : MarketContext :=
  let price := max currentPrice (fl minPrice)
  { symbol := symbol
    timestamp := timestamp
    currentPrice := price
    avgDailyVolume20d := max avgDailyVolume20d 0
    adv20dUsd := max (fl (avgDailyVolume20d * price)) 0
    marketCap := max marketCap 0
    realizedVol20d := min (max realizedVol20d 0) 5
    atr14 := max atr14 0 }

/-! ## Enumerations -/

/-- Order types. -/
inductive OrderType where
  | market
  | limit
  | stop
  | stopLimit
  | twap
  | vwap
  | pov
  | iceberg
  | adaptive
  deriving DecidableEq, Repr

/-- Execution quality rating. -/
inductive ExecutionQuality where
  | excellent
  | good
  | fair
  | poor
  | failed
  deriving DecidableEq, Repr

/-- The action of the execution layer, apart from the direction of the remaining
exposure. -/
inductive ExecAction where
  | buy
  | sell
  | flat
  deriving DecidableEq, Repr

/-- What a filter did: within the limit, cut to the limit, rejected. -/
inductive FilterMode where
  | pass
  | cap
  | veto
  deriving DecidableEq, Repr

/-- How an adjustment changed the quantity. -/
inductive AdjustmentType where
  | reduced
  | zeroed
  | capped
  deriving DecidableEq, Repr

/-- A value of a free-form dictionary. -/
inductive ParamValue where
  | number (value : ℚ)
  | flag (value : Bool)
  | text (value : String)
  deriving DecidableEq

/-- A free-form dictionary with text keys. -/
abbrev Params := List (String × ParamValue)

/-! ## Execution plan -/

/-- The pre-trade part of an execution quality report. -/
structure ExecutionQualityReport where
  evaluationId : String
  planId : String
  isPreTrade : Bool
  symbol : String
  direction : Direction
  timestamp : Timestamp
  estimatedSlippageBps : NonnegRational
  estimatedImpactBps : NonnegRational
  estimatedParticipationRate : UnitRational
  participationRisk : String
  executionScore : UnitRational
  qualityRating : ExecutionQuality
  slippageScore : UnitRational
  impactScore : UnitRational
  fillRateScore : UnitRational
  timingScore : UnitRational
  metadata : Params := []

/-- One slice of an execution plan. -/
structure ExecutionSlice where
  sliceId : ℕ
  quantity : PositiveRational
  startTime : Timestamp
  endTime : Timestamp
  targetPrice : Option PositiveRational
  orderType : OrderType

def defaultMaxParticipationRate : UnitRational := ⟨1 / 10, by norm_num⟩

def defaultTargetParticipationRate : UnitRational := ⟨5 / 100, by norm_num⟩

/-- Execution plan. -/
structure ExecutionPlan where
  planId : String
  positionPlanId : String
  decisionId : String
  timestamp : Timestamp
  symbol : String
  direction : Direction
  targetQuantity : NonnegRational
  notionalValue : NonnegRational
  algorithm : OrderType
  algorithmParams : Params := []
  urgency : String := "medium"
  limitPrice : Option PositiveRational := none
  worstPrice : Option PositiveRational := none
  arrivalPrice : Option NonnegRational := none
  timeLimitSeconds : ℕ := 900
  startTime : Option Timestamp := none
  endTime : Option Timestamp := none
  maxParticipationRate : UnitRational := defaultMaxParticipationRate
  targetParticipationRate : UnitRational := defaultTargetParticipationRate
  estimatedImpactBps : NonnegRational := NonnegRational.zero
  estimatedSlippageBps : NonnegRational := NonnegRational.zero
  participationRisk : String := "low"
  slices : List ExecutionSlice := []
  executionScore : UnitRational := UnitRational.zero
  scoreFactors : Params := []
  preTradeReport : Option ExecutionQualityReport := none
  metadata : Params := []

/-! ## Position plan -/

/-- One recorded change of the quantity. -/
structure RiskAdjustment where
  filterName : String
  adjustmentType : AdjustmentType
  originalQuantity : NonnegRational
  adjustedQuantity : NonnegRational
  reason : String

/-- The record of one filter: the quantity that entered the chain and the
quantity the filter was given. -/
structure LimitCheck where
  limitName : String
  limitValue : ℚ
  rawQty : ℚ
  actualValue : ℚ
  passed : Bool
  mode : FilterMode
  details : String

/-- Position plan. -/
structure PositionPlan where
  planId : String
  decisionId : String
  timestamp : Timestamp
  symbol : String
  bias : Bias
  arbitrationConfidence : UnitRational
  direction : Direction
  sizingMethod : String
  baseQuantity : NonnegRational
  finalQuantity : NonnegRational
  notionalValue : NonnegRational
  currentPrice : PositiveRational
  riskAdjustments : List RiskAdjustment := []
  limitChecks : List LimitCheck := []
  vetoTriggered : Bool := false
  vetoReasons : List String := []
  sizingRationale : String := ""
  execAction : Option ExecAction := none
  executionPlan : Option ExecutionPlan := none
  portfolioSnapshotEquity : NonnegRational

/-- The plan exits or reduces a position. -/
def PositionPlan.isReducing (plan : PositionPlan) : Bool :=
  plan.bias = .exitBias ∨ plan.bias = .reduceRisk

end TradeOS.Risk
