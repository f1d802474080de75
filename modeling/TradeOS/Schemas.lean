import TradeOS.Numeric.Decimal
import TradeOS.Data.Validation

/-!
# Shared schemas

The records of `core/schemas` that the arbitration and risk layers exchange.
A float is an exact rational. A field declared with bounds carries them: a
number in `[0, 1]` is a `UnitRational`, and the risk limits and the portfolio
hold the proofs that their validators demand, so an invalid record cannot be
built. Free-text fields stay strings.

Fields that neither layer reads are left out.
-/

set_option autoImplicit false

namespace TradeOS

/-- A point in time, in microseconds. -/
abbrev Timestamp := ℤ

/-! ## Enumerations -/

/-- Trading direction. -/
inductive Direction where
  | long
  | short
  | flat
  deriving DecidableEq, Repr

/-- The value of a direction. -/
def Direction.value : Direction → String
  | .long => "long"
  | .short => "short"
  | .flat => "flat"

/-- Market regime. -/
inductive Regime where
  | trendingUp
  | trendingDown
  | ranging
  | volatile
  | unknown
  deriving DecidableEq, Repr

/-- The value of a regime. -/
def Regime.value : Regime → String
  | .trendingUp => "trending_up"
  | .trendingDown => "trending_down"
  | .ranging => "ranging"
  | .volatile => "volatile"
  | .unknown => "unknown"

/-- The documented values of the bias text. -/
def arbitrationBiasOptions : List String :=
  ["no_trade", "long_bias", "short_bias", "hold_bias", "reduce_risk", "exit_bias"]

/-- The bias of a decision. The schema field is a free text, so a text outside
the documented options is a bias too. -/
inductive Bias where
  | noTrade
  | longBias
  | shortBias
  | holdBias
  | reduceRisk
  | exitBias
  | other (text : String) (unlisted : text ∉ arbitrationBiasOptions)
  deriving DecidableEq, Repr

/-- The text of a bias. -/
def Bias.text : Bias → String
  | .noTrade => "no_trade"
  | .longBias => "long_bias"
  | .shortBias => "short_bias"
  | .holdBias => "hold_bias"
  | .reduceRisk => "reduce_risk"
  | .exitBias => "exit_bias"
  | .other text _ => text

/-- Upper-casing of one character, exact on the letters whose upper case is an
ASCII letter of its own: the ASCII letters and the long s. No other character
takes part in the upper case of a direction name. -/
def upperChar (c : Char) : Char := if c = 'ſ' then 'S' else c.toUpper

/-- Upper-casing of a direction name. -/
def upper (s : String) : String := String.ofList (s.toList.map upperChar)

/-! ## Analysis signals -/

/-- The part of an engine signal that arbitration reads. -/
structure EngineSignal where
  direction : Direction
  confidence : UnitRational
  regime : Regime := .unknown

/-- Signal of the classical technical engine. -/
structure TechnicalSignal extends EngineSignal

/-- Signal of the Chan-theory engine. -/
structure ChanSignal extends EngineSignal

/-- Order-flow signal. The imbalance is described as lying between `-1` and `1`
and is not validated. -/
structure OrderFlowSignal where
  bookImbalance : ℚ := 0

/-- Aggregated sentiment. -/
structure SentimentEvent where
  compositeSentiment : UnitRational

/-- Macro regime signal. -/
structure MacroSignal where
  regimeConfidence : UnitRational
  riskOn : Bool := true

/-- The fundamental report, reduced to its rating. -/
structure FundamentalReport where
  rating : String

/-! ## The arbitration decision -/

/-- Explainability snapshot for one signal of the arbitration chain. -/
structure DecisionRationale where
  signalName : String
  direction : Direction
  confidence : ℚ
  weight : ℚ
  contribution : ℚ
  ruleAdjustments : List String

/-- Conflict-resolution snapshot. -/
structure ConflictRecord where
  signalA : String
  signalB : String
  directionA : Direction
  directionB : Direction
  resolution : String
  ruleApplied : String

/-- The arbitration decision. Assignments after construction are not validated,
so the confidence and the scores are plain numbers. -/
structure ArbitrationDecision where
  decisionId : String
  timestamp : Timestamp
  symbol : String
  bias : Bias := .noTrade
  confidence : ℚ
  direction : Direction := .flat
  noTradeReason : Option String := none
  longScore : ℚ := 0
  shortScore : ℚ := 0
  neutralityScore : ℚ := 0
  rationale : List DecisionRationale := []
  conflicts : List ConflictRecord := []
  fundamentalReference : Option String := none
  fundamentalVetoTriggered : Bool := false
  macroRegime : Option String := none
  riskAdjustment : ℚ := 1
  rulesApplied : List String := []
  signalCount : ℕ := 0
  arbitrationLatencyMs : ℚ := 0
  targetDirection : Option String := none

/-! ## Risk limits and portfolio -/

/-- Risk limit configuration. -/
structure RiskLimits where
  maxPositionPct : PositiveUnit := ⟨1 / 10, by norm_num⟩
  maxLossPctPerTrade : PositiveUnit := ⟨2 / 100, by norm_num⟩
  maxLossPctPerDay : PositiveUnit := ⟨5 / 100, by norm_num⟩
  maxDrawdownPct : PositiveUnit := ⟨15 / 100, by norm_num⟩
  maxSlippageBps : NonnegRational := ⟨10, by norm_num⟩
  maxOrderSizePct : PositiveUnit := ⟨5 / 100, by norm_num⟩
  maxCorrelation : PositiveUnit := ⟨7 / 10, by norm_num⟩

/-- `RiskLimits()`. -/
def defaultRiskLimits : RiskLimits := {}

/-- A position, reduced to its symbol and side. -/
structure Position where
  symbol : String
  side : Direction := .flat

/-- Portfolio state snapshot. The correlation matrix is an entry of the
portfolio's metadata. -/
structure Portfolio where
  totalEquity : PositiveRational
  positions : List Position := []
  correlationMatrix : List ((String × String) × ℚ) := []

end TradeOS
