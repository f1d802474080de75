import TradeOS.Numeric.Binary64
import TradeOS.Schemas

/-!
# Arbitration: signals, collection and scoring

The records of `core/arbitration/schemas`, the collector, the two scorers.

A bundle holds up to six analysis results. `deriveDirectionAndConfidence` turns
them into directional signals and drops those of confidence below `0.3`;
`scoreSignal` gives each its first score; `EnsembleScorer.aggregate` reads the
scores after the rules have adjusted them and fixes the bias of the decision.
Scores and the decision are mutable objects in the source: here the state
`ArbitrationState` is passed along.

Which signals are heard, and how a conflict between them is resolved, can hang on
the last digit of a confidence. So these comparisons are made in a given
arithmetic, the exact one by default. The sizes of the contributions are exact.
-/

set_option autoImplicit false

namespace TradeOS.Arbitration

open TradeOS.Numeric

/-! ## Schemas -/

/-- Normalized directional view consumed by scoring and the rule chain. -/
structure DirectionalSignal where
  engineName : String
  direction : Direction
  confidence : UnitRational
  regime : Option Regime := none
  weight : ℚ := 1

/-- The sign of a direction, zero when flat. -/
def directionSign : Direction → ℚ
  | .long => 1
  | .short => -1
  | .flat => 0

/-- The signed weighted confidence of a signal. -/
def DirectionalSignal.score (ds : DirectionalSignal) : ℚ :=
  directionSign ds.direction * ds.confidence.val * ds.weight

/-- The six optional analysis results an arbitration call receives. -/
structure AnalysisSignals where
  technical : Option TechnicalSignal := none
  chan : Option ChanSignal := none
  orderflow : Option OrderFlowSignal := none
  sentiment : Option SentimentEvent := none
  macroSignal : Option MacroSignal := none
  fundamental : Option FundamentalReport := none

/-- Collected snapshot passed into arbitration. -/
structure SignalBundle extends AnalysisSignals where
  timestamp : Timestamp
  symbol : String

/-- Scored directional signal, adjusted by the arbitration rules. -/
structure SignalScore where
  engineName : String
  direction : Direction
  rawConfidence : ℚ
  adjustedConfidence : ℚ
  weight : ℚ
  contribution : ℚ
  regime : Option Regime := none
  ruleAdjustments : List String := []

/-- The scores and the decision that the rules modify in place. -/
structure ArbitrationState where
  scores : List SignalScore
  decision : ArbitrationDecision

/-- The readings of the system clocks during one call. -/
structure Clock where
  utcnow : Timestamp
  perfStart : ℚ
  perfEnd : ℚ

/-- `SignalCollector.collect`: package the signals, with the current time when
no timestamp is given. -/
def collect (clock : Clock) (symbol : String) (timestamp : Option Timestamp)
    (signals : AnalysisSignals) : SignalBundle :=
  { signals with timestamp := timestamp.getD clock.utcnow, symbol := symbol }

/-! ## Signal scorer -/

/-- Signals of lower confidence are treated as noise. -/
def lowConfidenceThreshold : ℚ := 3 / 10

/-- A confidence proxy cut at one. -/
def capConfidence (q : ℚ) (nonneg : 0 ≤ q) : UnitRational :=
  ⟨min q 1, le_min nonneg zero_le_one, min_le_right q 1⟩

/-- The confidence of a signal inside the noise band. -/
def zeroConfidence : UnitRational := UnitRational.zero

def technicalDirectional (sig : TechnicalSignal) : DirectionalSignal where
  engineName := "technical"
  direction := sig.direction
  confidence := sig.confidence
  regime := some sig.regime

def chanDirectional (sig : ChanSignal) : DirectionalSignal where
  engineName := "chan"
  direction := sig.direction
  confidence := sig.confidence
  regime := some sig.regime

/-- Order flow votes with the sign of the book imbalance, outside a band of
`0.1` around zero. -/
def orderflowDirectional (sig : OrderFlowSignal) (fl : Rounding := exactRounding) :
    DirectionalSignal :=
  let imbalance := sig.bookImbalance
  if |imbalance| < fl (1 / 10) then
    { engineName := "orderflow", direction := .flat, confidence := zeroConfidence }
  else
    { engineName := "orderflow"
      direction := if 0 < imbalance then .long else .short
      confidence := capConfidence |imbalance| (abs_nonneg imbalance) }

/-- Sentiment votes with the side of `0.5` it lies on, outside a band of `0.1`,
with twice the distance as confidence. -/
def sentimentDirectional (sig : SentimentEvent) (fl : Rounding := exactRounding) :
    DirectionalSignal :=
  let cs := sig.compositeSentiment.val
  let distanceFromNeutral := |fl (cs - 1 / 2)|
  if distanceFromNeutral < fl (1 / 10) then
    { engineName := "sentiment", direction := .flat, confidence := zeroConfidence }
  else
    { engineName := "sentiment"
      direction := if 1 / 2 < cs then .long else .short
      confidence := capConfidence (fl (distanceFromNeutral * 2))
        (fl.nonneg (mul_nonneg (abs_nonneg _) zero_le_two)) }

def macroDirectional (sig : MacroSignal) : DirectionalSignal where
  engineName := "macro"
  direction := if sig.riskOn then .long else .short
  confidence := sig.regimeConfidence

/-- The directional signals of a bundle, in the order of the engines and before
the noise filter. -/
def directionalSignals (signals : AnalysisSignals) (fl : Rounding := exactRounding) :
    List DirectionalSignal :=
  (signals.technical.map technicalDirectional).toList ++
  (signals.chan.map chanDirectional).toList ++
  (signals.orderflow.map fun sig => orderflowDirectional sig fl).toList ++
  (signals.sentiment.map fun sig => sentimentDirectional sig fl).toList ++
  (signals.macroSignal.map macroDirectional).toList

/-- `derive_direction_and_confidence`: the directional signals that are not
noise. -/
def deriveDirectionAndConfidence (bundle : SignalBundle) (fl : Rounding := exactRounding) :
    List DirectionalSignal :=
  (directionalSignals bundle.toAnalysisSignals fl).filter
    fun s => fl lowConfidenceThreshold ≤ s.confidence.val

/-- `score_signal`: the first score of a signal. -/
def scoreSignal (ds : DirectionalSignal) : SignalScore where
  engineName := ds.engineName
  direction := ds.direction
  rawConfidence := ds.confidence.val
  adjustedConfidence := ds.confidence.val
  weight := ds.weight
  contribution := ds.score
  regime := ds.regime

/-! ## Ensemble scorer -/

namespace EnsembleScorer

/-- Relative gap of the two scores from which a side wins. -/
def biasGap : ℚ := 3 / 10

/-- The sum of the non-zero contributions of one direction. -/
def directionSum (scores : List SignalScore) (direction : Direction) : ℚ :=
  (((scores.filter fun s => s.contribution ≠ 0).filter
    fun s => s.direction = direction).map SignalScore.contribution).sum

/-- The three scores, normalized by their total. -/
def normalizedScores (scores : List SignalScore) : ℚ × ℚ × ℚ :=
  let longScore := max (directionSum scores .long) 0
  let shortScore := max |directionSum scores .short| 0
  let neutralityScore := min |directionSum scores .flat| 1
  let total := longScore + shortScore + neutralityScore
  if 0 < total then (longScore / total, shortScore / total, neutralityScore / total)
  else (longScore, shortScore, neutralityScore)

/-- `EnsembleScorer.aggregate`: write the scores and fix the bias. A fundamental
veto and a pending risk reduction return before the confidence is set. -/
def aggregate (scores : List SignalScore) (decision : ArbitrationDecision) :
    ArbitrationDecision :=
  let (ls, ss, ns) := normalizedScores scores
  let decision := { decision with longScore := ls, shortScore := ss, neutralityScore := ns }
  if decision.fundamentalVetoTriggered then { decision with bias := .noTrade }
  else if decision.riskAdjustment < 7 / 10 ∧ decision.bias ≠ .noTrade then
    { decision with bias := .reduceRisk }
  else if ls = 0 ∧ ss = 0 then { decision with bias := .noTrade }
  else
    let bias : Bias :=
      if |ls - ss| < biasGap then .holdBias else if ss < ls then .longBias else .shortBias
    { decision with
      bias := bias
      confidence := max (max ls ss) ns * decision.riskAdjustment }

end EnsembleScorer

end TradeOS.Arbitration
