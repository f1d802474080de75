import TradeOS.Arbitration.Rules
import Mathlib.Data.List.Sort

/-!
# The arbitration engine

`arbitrate` collects the analysis signals of one symbol, scores them, runs the
five rules in the order of their priorities and aggregates the scores into a
decision. `arbitratePortfolio` does the same with the strategy proposals of a
portfolio in place of the analysis signals. Both end in `evaluateAndDecide`.
-/

set_option autoImplicit false

namespace TradeOS.Arbitration

open TradeOS.Numeric

/-- The rules in the order they are registered. -/
def registeredRules (fl : Rounding := exactRounding) : List ArbitrationRule :=
  [fundamentalVeto, macroAdjustment, directionConflict fl, confidenceWeight, regimeFilter]

/-- The rules of the engine, sorted by priority. -/
def rules (fl : Rounding := exactRounding) : List ArbitrationRule :=
  (registeredRules fl).insertionSort fun a b => a.priority ≤ b.priority

/-- Registration already follows the priorities. -/
theorem rules_eq_registered (fl : Rounding) : rules fl = registeredRules fl := rfl

/-- Apply every rule in turn. -/
def applyRules (bundle : SignalBundle) (state : ArbitrationState)
    (fl : Rounding := exactRounding) : ArbitrationState :=
  (rules fl).foldl (fun current rule => rule.evaluate bundle current) state

/-- The rationale entry of a final score. -/
def rationaleOf (s : SignalScore) : DecisionRationale where
  signalName := s.engineName
  direction := s.direction
  confidence := s.rawConfidence
  weight := s.weight
  contribution := s.contribution
  ruleAdjustments := s.ruleAdjustments

/-- The decision before any rule has run. -/
def initialDecision (clock : Clock) (ts : Timestamp) (symbol : String) (signalCount : ℕ) :
    ArbitrationDecision where
  decisionId := "arb-" ++ symbol ++ "-" ++ formatTruncated (clock.perfStart * 1000)
  timestamp := ts
  symbol := symbol
  bias := .noTrade
  confidence := 0
  signalCount := signalCount

/-- `_evaluate_and_decide`: rules, aggregation, rationale and latency. -/
def evaluateAndDecide (clock : Clock) (ts : Timestamp) (symbol : String) (bundle : SignalBundle)
    (directional : List DirectionalSignal) (scores : List SignalScore)
    (fl : Rounding := exactRounding) : ArbitrationDecision :=
  let state := applyRules bundle
    { scores := scores, decision := initialDecision clock ts symbol directional.length } fl
  { EnsembleScorer.aggregate state.scores state.decision with
    rationale := state.scores.map rationaleOf
    arbitrationLatencyMs := (clock.perfEnd - clock.perfStart) * 1000 }

/-- `ArbitrationEngine.arbitrate`. -/
def arbitrate (clock : Clock) (symbol : String) (timestamp : Option Timestamp)
    (signals : AnalysisSignals) (fl : Rounding := exactRounding) : ArbitrationDecision :=
  let bundle := collect clock symbol timestamp signals
  let directional := deriveDirectionAndConfidence bundle fl
  evaluateAndDecide clock bundle.timestamp symbol bundle directional
    (directional.map scoreSignal) fl

/-! ## Portfolio proposals -/

/-- A signal bundle of a strategy, reduced to the symbol it is about. -/
structure StrategySignalBundle where
  symbol : String

/-- The candidate input of one strategy. -/
structure StrategyProposal where
  proposalId : String
  strategyId : String
  bundles : List StrategySignalBundle := []
  aggregateDirection : String := "FLAT"
  aggregateStrength : UnitRational := zeroConfidence
  aggregateConfidence : UnitRational := zeroConfidence
  portfolioWeight : UnitRational := zeroConfidence

/-- The proposals of a portfolio. -/
structure PortfolioProposal where
  portfolioId : String
  proposals : List StrategyProposal := []

/-- The input package of a strategy pool. -/
structure ArbitrationInputBundle where
  timestamp : Timestamp
  portfolioProposal : PortfolioProposal

/-- The direction a proposal names, case-insensitively; anything else is flat. -/
def proposalDirection (text : String) : Direction :=
  if upper text = "LONG" then .long
  else if upper text = "SHORT" then .short
  else .flat

/-- `_StrategySignalSource.to_directional`: a zero portfolio weight falls back to
one. -/
def toDirectional (p : StrategyProposal) : DirectionalSignal where
  engineName := "strategy_pool:" ++ p.strategyId
  direction := proposalDirection p.aggregateDirection
  confidence := p.aggregateConfidence
  weight := if 0 < p.portfolioWeight.val then p.portfolioWeight.val else 1

/-- The first non-empty symbol of the proposals' first bundles. -/
def proposalSymbol? (proposals : List StrategyProposal) : Option String :=
  proposals.findSome? fun p =>
    p.bundles.head?.bind fun b => if b.symbol = "" then none else some b.symbol

/-- The symbol of a portfolio: from its bundles, else the part of the portfolio
id before the first dash. -/
def bundleSymbol (proposal : PortfolioProposal) : String :=
  let symbol := (proposalSymbol? proposal.proposals).getD "UNKNOWN"
  if symbol = "UNKNOWN" ∧ proposal.portfolioId ≠ "" then
    String.ofList (proposal.portfolioId.toList.takeWhile (· ≠ '-'))
  else symbol

/-- `ArbitrationEngine.arbitrate_portfolio`. -/
def arbitratePortfolio (clock : Clock) (arbIn : ArbitrationInputBundle)
    (timestamp : Option Timestamp) : ArbitrationDecision :=
  let ts := timestamp.getD arbIn.timestamp
  let symbol := bundleSymbol arbIn.portfolioProposal
  let bundle := collect clock symbol (some ts) {}
  let directional :=
    deriveDirectionAndConfidence bundle ++ arbIn.portfolioProposal.proposals.map toDirectional
  if directional = [] then
    { decisionId := "arb-portfolio-" ++ arbIn.portfolioProposal.portfolioId ++ "-" ++
        formatTruncated (clock.perfStart * 1000)
      timestamp := ts
      symbol := symbol
      bias := .noTrade
      confidence := 0
      signalCount := 0
      arbitrationLatencyMs := (clock.perfEnd - clock.perfStart) * 1000 }
  else
    evaluateAndDecide clock ts symbol bundle directional (directional.map scoreSignal)

end TradeOS.Arbitration
