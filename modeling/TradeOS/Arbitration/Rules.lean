import TradeOS.Arbitration.Scorers

/-!
# The five arbitration rules

Each rule of `core/arbitration/rules` reads the bundle and modifies the scores
and the decision. A rule that loops over the scores is a map of a function on
one score, so that the effect of the whole chain on a signal can be read off
one signal at a time.

The rules compute a sign as `1` for long and `-1` otherwise (`ruleSign`), unlike
the first score of a signal, where a flat direction has sign `0`.
-/

set_option autoImplicit false

namespace TradeOS.Arbitration

open TradeOS.Numeric

/-- An arbitration rule: its name, its priority (smaller runs earlier) and its
effect. -/
structure ArbitrationRule where
  name : String
  priority : ℕ
  evaluate : SignalBundle → ArbitrationState → ArbitrationState

/-- The sign used when a rule recomputes a contribution. -/
def ruleSign (direction : Direction) : ℚ := if direction = .long then 1 else -1

/-- Append a line to the adjustments recorded on a score. -/
def SignalScore.record (s : SignalScore) (reason : String) : SignalScore :=
  { s with ruleAdjustments := s.ruleAdjustments ++ [reason] }

/-- Scale the adjusted confidence and recompute the contribution from it. -/
def SignalScore.rescale (s : SignalScore) (multiplier : ℚ) : SignalScore :=
  let adjusted := s.adjustedConfidence * multiplier
  { s with
    adjustedConfidence := adjusted
    contribution := ruleSign s.direction * adjusted * s.weight }

/-- Append a rule to the list of applied rules. -/
def applied (decision : ArbitrationDecision) (name : String) : ArbitrationDecision :=
  { decision with rulesApplied := decision.rulesApplied ++ [name] }

/-! ## Rule 1: fundamental veto -/

/-- The effect of a veto on one score. -/
def vetoScore (reason : String) (s : SignalScore) : SignalScore :=
  { s with contribution := 0, adjustedConfidence := 0 }.record ("veto: " ++ reason)

/-- `_veto_all`: zero every contribution and force `no_trade`. -/
def vetoAll (state : ArbitrationState) (reason : String) : ArbitrationState where
  scores := state.scores.map (vetoScore reason)
  decision :=
    { state.decision with bias := .noTrade, confidence := 0, fundamentalVetoTriggered := true }

def fundamentalVeto : ArbitrationRule where
  name := "fundamental_veto"
  priority := 1
  evaluate bundle state :=
    match bundle.fundamental with
    | none => state
    | some report =>
        let referenced : ArbitrationState :=
          { state with
            decision := { state.decision with fundamentalReference := some report.rating } }
        if report.rating = "D" then
          let vetoed := vetoAll referenced ("fundamental_veto: rating=" ++ report.rating)
          { vetoed with decision := applied vetoed.decision "fundamental_veto" }
        else referenced

/-! ## Rule 2: macro risk adjustment -/

def riskOffAdjustment : ℚ := 1 / 2

/-- The effect of a risk-off macro signal on one score. -/
def riskOffScore (s : SignalScore) : SignalScore :=
  (s.rescale riskOffAdjustment).record
    ("macro_risk_off: confidence *= " ++ formatDefault riskOffAdjustment)

def macroAdjustment : ArbitrationRule where
  name := "macro_adjustment"
  priority := 2
  evaluate bundle state :=
    match bundle.macroSignal with
    | none => state
    | some sig =>
        if sig.riskOn then
          { state with
            decision := applied
              { state.decision with macroRegime := some "risk_on", riskAdjustment := 1 }
              "macro_adjustment" }
        else
          { scores := state.scores.map riskOffScore
            decision := applied
              { state.decision with
                macroRegime := some "risk_off", riskAdjustment := riskOffAdjustment }
              "macro_adjustment" }

/-! ## Rule 3: direction conflict -/

def conflictThreshold : ℚ := 1 / 10

/-- The scores of one direction. -/
def ofDirection (scores : List SignalScore) (direction : Direction) : List SignalScore :=
  scores.filter fun s => s.direction = direction

/-- The largest raw confidence, zero on an empty list. -/
def maxConfidence (scores : List SignalScore) : ℚ :=
  ((scores.map SignalScore.rawConfidence).max?).getD 0

/-- How the conflict rule resolves a list of scores. -/
inductive ConflictOutcome where
  | noConflict
  | hold
  | winner (direction : Direction)
  deriving DecidableEq, Repr

/-- Both directions present: the more confident side wins, and a difference
below the threshold demotes to `hold_bias`. -/
def conflictOutcome (scores : List SignalScore) (fl : Rounding := exactRounding) :
    ConflictOutcome :=
  let longSignals := ofDirection scores .long
  let shortSignals := ofDirection scores .short
  if longSignals = [] ∨ shortSignals = [] then .noConflict
  else
    let maxLongConf := maxConfidence longSignals
    let maxShortConf := maxConfidence shortSignals
    if |fl (maxLongConf - maxShortConf)| < fl conflictThreshold then .hold
    else .winner (if maxShortConf < maxLongConf then .long else .short)

/-- The other side of a conflict. -/
def opposite : Direction → Direction
  | .long => .short
  | .short => .long
  | .flat => .flat

def demotedScore (s : SignalScore) : SignalScore :=
  { s with contribution := 0 }.record "direction_conflict: demoted to hold_bias"

def winnerScore (s : SignalScore) : SignalScore :=
  s.record ("direction_conflict: winner (conf=" ++ formatFixed 3 s.rawConfidence ++ ")")

def loserScore (s : SignalScore) : SignalScore :=
  { s with contribution := 0 }.record
    ("direction_conflict: loser (conf=" ++ formatFixed 3 s.rawConfidence ++ ")")

/-- The effect of a resolved conflict on one score. -/
def conflictScore : ConflictOutcome → SignalScore → SignalScore
  | .noConflict, s => s
  | .hold, s => demotedScore s
  | .winner side, s =>
      if s.direction = side then winnerScore s
      else if s.direction = opposite side then loserScore s
      else s

/-- The text that records how a conflict was resolved. -/
def resolutionText (scores : List SignalScore) : ConflictOutcome → String
  | .noConflict => ""
  | .hold => "confidence_diff < threshold: hold_bias"
  | .winner side =>
      "winner: " ++ quotedList ((ofDirection scores side).map SignalScore.engineName)

/-- The conflict record of a list of scores. -/
def conflictRecord (scores : List SignalScore) (outcome : ConflictOutcome) : ConflictRecord where
  signalA := ",".intercalate ((ofDirection scores .long).map SignalScore.engineName)
  signalB := ",".intercalate ((ofDirection scores .short).map SignalScore.engineName)
  directionA := .long
  directionB := .short
  resolution := resolutionText scores outcome
  ruleApplied := "direction_conflict"

def directionConflict (fl : Rounding := exactRounding) : ArbitrationRule where
  name := "direction_conflict"
  priority := 3
  evaluate _ state :=
    let outcome := conflictOutcome state.scores fl
    if outcome = .noConflict then state
    else
      let bias := if outcome = .hold then .holdBias else state.decision.bias
      { scores := state.scores.map (conflictScore outcome)
        decision := applied
          { state.decision with
            bias := bias
            conflicts := state.decision.conflicts ++ [conflictRecord state.scores outcome] }
          "direction_conflict" }

/-! ## Rule 4: confidence weight -/

/-- The weight table of the engines. -/
def defaultWeights : List (String × ℚ) :=
  [("technical", 1), ("chan", 9 / 10), ("orderflow", 11 / 10), ("sentiment", 8 / 10),
    ("macro", 9 / 10)]

/-- The table entry of an engine, `1` when absent. -/
def engineWeight (weights : List (String × ℚ)) (engineName : String) : ℚ :=
  (weights.lookup engineName).getD 1

/-- The effect of the weight table on one score: the weight is set and the
adjusted confidence reset, the contribution is left as it is. -/
def weightedScore (weights : List (String × ℚ)) (s : SignalScore) : SignalScore :=
  let w := engineWeight weights s.engineName
  if w ≠ 1 then
    { s with weight := w, adjustedConfidence := s.rawConfidence }.record
      ("confidence_weight: " ++ s.engineName ++ " *= " ++ formatDefault w)
  else s

def confidenceWeight (weights : List (String × ℚ) := defaultWeights) : ArbitrationRule where
  name := "confidence_weight"
  priority := 4
  evaluate _ state :=
    { scores := state.scores.map (weightedScore weights)
      decision := applied state.decision "confidence_weight" }

/-! ## Rule 5: market regime filter -/

/-- The multiplier table, keyed by the direction and the regime of a signal. -/
def regimeMultipliers : List ((String × String) × ℚ) :=
  [(("long", "trending_up"), 12 / 10), (("short", "trending_up"), 9 / 10),
    (("long", "trending_down"), 9 / 10), (("short", "trending_down"), 12 / 10),
    (("long", "ranging"), 7 / 10), (("short", "ranging"), 7 / 10),
    (("long", "volatile"), 5 / 10), (("short", "volatile"), 5 / 10)]

/-- The multiplier of a direction in a regime, `1` when absent. -/
def regimeMultiplier (direction : Direction) (regime : Regime) : ℚ :=
  (regimeMultipliers.lookup (direction.value, regime.value)).getD 1

/-- The effect of the regime filter on one score. -/
def regimeScore (s : SignalScore) : SignalScore :=
  match s.regime with
  | none => s
  | some regime =>
      if regime = .unknown then s
      else
        let mult := regimeMultiplier s.direction regime
        if mult ≠ 1 then
          (s.rescale mult).record
            ("regime_filter: " ++ s.engineName ++ " regime=" ++ regime.value ++ " *= " ++
              formatDefault mult)
        else s

/-- Count one more occurrence of a regime, keeping the order of first
occurrence. -/
def countRegime (counts : List (Regime × ℕ)) (regime : Regime) : List (Regime × ℕ) :=
  if counts.any (fun entry => entry.1 = regime) then
    counts.map fun entry => if entry.1 = regime then (entry.1, entry.2 + 1) else entry
  else counts ++ [(regime, 1)]

/-- The occurrences of each known regime among the scores. -/
def regimeCounts (scores : List SignalScore) : List (Regime × ℕ) :=
  (scores.filterMap SignalScore.regime).foldl
    (fun counts regime => if regime = .unknown then counts else countRegime counts regime) []

/-- The most frequent regime, the earliest on a tie. -/
def dominantRegime : List (Regime × ℕ) → Option Regime
  | [] => none
  | first :: rest =>
      some (rest.foldl (fun best entry => if best.2 < entry.2 then entry else best) first).1

def regimeFilter : ArbitrationRule where
  name := "regime_filter"
  priority := 5
  evaluate _ state :=
    match dominantRegime (regimeCounts state.scores) with
    | none => state
    | some dominant =>
        { scores := state.scores.map regimeScore
          decision := applied state.decision ("regime_filter:regime=" ++ dominant.value) }

end TradeOS.Arbitration
