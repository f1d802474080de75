import TradeOS.Arbitration.Derived

/-!
# Which rule effects reach the decision

Each rule states an effect: a D rating zeroes every contribution, the losing side
of a conflict contributes nothing, a risk-off macro signal asks for risk
reduction, the recorded factors multiply up. The rules run one after another on
the same scores, and a later rule can undo an earlier effect. For each effect
this module gives the exact inputs on which it reaches the decision of
`arbitrate`.

* The veto is final unless a chan signal of a known regime is present
  (`fundamental_veto_final_iff`): the weight table resets its confidence and the
  regime filter recomputes its contribution.
* The losing side stays silent exactly when none of its signals has a known
  regime (`conflict_loser_silent_iff`).
* A risk-off call ends in `reduce_risk` exactly when the conflict rule demoted it
  first (`risk_off_reduces_iff`): the aggregation skips decisions whose bias is
  still the initial `no_trade`. This holds in every arithmetic, so in doubles, in
  which `0.6` and `0.5` are less than `0.1` apart.
* The recorded factors multiply up for technical signals, and for chan signals of
  a known regime without a risk-off macro signal, and for no others
  (`recorded_factors_iff`).
-/

set_option autoImplicit false

namespace TradeOS.Arbitration

open Numeric EnsembleScorer

/-! ## The fundamental veto -/

/-- A chan signal that the regime filter brings back after a veto. -/
def ChanRevives (signals : AnalysisSignals) : Prop :=
  ∃ sig, signals.chan = some sig ∧ lowConfidenceThreshold ≤ sig.confidence.val ∧
    sig.direction ≠ .flat ∧ sig.regime ≠ .unknown

theorem ruleSign_ne_zero (direction : Direction) : ruleSign direction ≠ 0 := by
  cases direction <;> simp [ruleSign]

/-- Under a veto only a revived chan signal contributes. -/
theorem finalContribution_of_veto {signals : AnalysisSignals} (veto : vetoes signals = true)
    (outcome : ConflictOutcome) {d : DirectionalSignal} (member : d ∈ derived signals)
    (contributes : finalContribution signals outcome d ≠ 0) : ChanRevives signals := by
  have nothing : vetoFactor signals = 0 := by simp [vetoFactor, veto]
  rw [finalContribution, contribution_chainScore] at contributes
  cases active : regimeActive d.direction d.regime with
  | false => simp [active, standingContribution, nothing] at contributes
  | true =>
      have heard := threshold_of_mem member
      cases source_of_mem member with
      | technical sig present =>
          have weight : engineWeight defaultWeights (technicalDirectional sig).engineName = 1 :=
            engineWeight_technical
          simp [active, carriedConfidence, weight, nothing] at contributes
      | chan sig present =>
          refine ⟨sig, present, heard, ?_⟩
          simpa [regimeActive, chanDirectional] using active
      | regimeless _ regime _ _ => simp [regimeActive, regime] at active

/-- A revived chan signal does contribute. -/
theorem finalContribution_chan_ne_zero {signals : AnalysisSignals} {sig : ChanSignal}
    (outcome : ConflictOutcome) (heard : lowConfidenceThreshold ≤ sig.confidence.val)
    (side : sig.direction ≠ .flat) (known : sig.regime ≠ .unknown) :
    finalContribution signals outcome (chanDirectional sig) ≠ 0 := by
  have active : regimeActive (chanDirectional sig).direction (chanDirectional sig).regime =
      true := by
    simpa [regimeActive, chanDirectional] using And.intro side known
  have weight : engineWeight defaultWeights (chanDirectional sig).engineName = 9 / 10 :=
    engineWeight_chan
  have confidence : (chanDirectional sig).confidence.val ≠ 0 :=
    ne_of_gt (lt_of_lt_of_le (by norm_num [lowConfidenceThreshold]) heard)
  have other : ¬((9 : ℚ) / 10 = 1) := by norm_num
  rw [finalContribution, contribution_chainScore, if_pos active, carriedConfidence, carriedWeight,
    weight, if_neg other, if_neg other]
  exact mul_ne_zero
    (mul_ne_zero (ruleSign_ne_zero _)
      (mul_ne_zero confidence (ne_of_gt (signalMultiplier_pos _ _))))
    (by norm_num)

/-- **The veto of a D rating is final exactly when no chan signal revives.** The
bias and the confidence always are: a revived chan signal shows in the rationale
and in the scores. -/
theorem fundamental_veto_final_iff (clock : Clock) (symbol : String)
    (timestamp : Option Timestamp) (signals : AnalysisSignals) (report : FundamentalReport)
    (present : signals.fundamental = some report) (rated : report.rating = "D") :
    let decision := arbitrate clock symbol timestamp signals
    (decision.bias = .noTrade ∧ decision.confidence = 0 ∧
        (∀ entry ∈ decision.rationale, entry.contribution = 0) ∧
        decision.longScore = 0 ∧ decision.shortScore = 0) ↔
      ¬ ChanRevives signals := by
  have veto : vetoes signals = true := by simp [vetoes, present, rated]
  intro decision
  have vetoed : decision.bias = .noTrade ∧ decision.confidence = 0 :=
    evaluateAndDecide_veto clock _ symbol (collect clock symbol timestamp signals) _
      exactRounding veto
  have entries := forall_rationale_iff clock symbol timestamp signals fun _ value => value = 0
  constructor
  · rintro ⟨_, _, zero, _, _⟩ ⟨sig, chan, heard, side, known⟩
    exact finalContribution_chan_ne_zero _ heard side known
      (entries.mp zero _ (chan_mem_derived chan heard))
  · intro quiet
    have zero : ∀ d ∈ derived signals,
        finalContribution signals (signalOutcome (derived signals)) d = 0 := fun d member =>
      not_not.mp fun contributes => quiet (finalContribution_of_veto veto _ member contributes)
    exact ⟨vetoed.1, vetoed.2, entries.mpr zero,
      longScore_eq_zero clock symbol timestamp signals fun d member _ => zero d member,
      shortScore_eq_zero clock symbol timestamp signals fun d member _ => zero d member⟩

/-- A D-rated call with one technical signal. -/
def vetoedTechnical : AnalysisSignals where
  technical := some ⟨⟨.long, UnitRational.clamp (4 / 5), .trendingUp⟩⟩
  fundamental := some ⟨"D"⟩

theorem fundamental_veto_final_technical :
    ¬ ChanRevives vetoedTechnical ∧
      (arbitrate ⟨0, 0, 0⟩ "AAPL" none vetoedTechnical).longScore = 0 := by
  have quiet : ¬ ChanRevives vetoedTechnical := by
    rintro ⟨_, present, _⟩
    cases present
  exact ⟨quiet,
    ((fundamental_veto_final_iff ⟨0, 0, 0⟩ "AAPL" none vetoedTechnical ⟨"D"⟩ rfl rfl).mpr
      quiet).2.2.2.1⟩

/-- A D-rated call with one chan signal in an upward trend. -/
def vetoedChan : AnalysisSignals where
  chan := some ⟨⟨.long, UnitRational.clamp (4 / 5), .trendingUp⟩⟩
  fundamental := some ⟨"D"⟩

/-- The chan signal contributes `0.8 * 1.2 * 0.9` to a vetoed decision, whose long
score is one. -/
theorem fundamental_veto_undone_by_chan :
    vetoes vetoedChan = true ∧
      (arbitrate ⟨0, 0, 0⟩ "AAPL" none vetoedChan).rationale.map
        DecisionRationale.contribution = [108 / 125] ∧
      (arbitrate ⟨0, 0, 0⟩ "AAPL" none vetoedChan).longScore = 1 := by
  with_unfolding_all decide

/-! ## The direction conflict -/

/-- The side of the smaller largest confidence. -/
def losingSide (ds : List DirectionalSignal) : Direction :=
  if sideConfidence ds .short < sideConfidence ds .long then .short else .long

/-- The bias that points to a side. -/
def biasTowards : Direction → Bias
  | .long => .longBias
  | .short => .shortBias
  | .flat => .holdBias

theorem signalOutcome_winner {ds : List DirectionalSignal} (longs : HasSide ds .long)
    (shorts : HasSide ds .short) (apart : 1 / 10 ≤ confidenceGap ds) :
    signalOutcome ds = .winner (opposite (losingSide ds)) := by
  rw [signalOutcome_conflict longs shorts, if_neg (not_lt.mpr apart), losingSide]
  split <;> rfl

theorem signalOutcome_hold_iff (fl : Rounding) (ds : List DirectionalSignal) :
    signalOutcome ds fl = .hold ↔
      HasSide ds .long ∧ HasSide ds .short ∧ confidenceGap ds fl < fl (1 / 10) := by
  by_cases both : HasSide ds .long ∧ HasSide ds .short
  · rw [signalOutcome_conflict both.1 both.2]
    simp [both.1, both.2]
  · rw [signalOutcome_noConflict (not_and_or.mp both)]
    refine iff_of_false (by simp) ?_
    rintro ⟨longs, shorts, _⟩
    exact both ⟨longs, shorts⟩

theorem losingSide_ne_flat (ds : List DirectionalSignal) : losingSide ds ≠ .flat := by
  unfold losingSide
  split <;> simp

theorem macroFactor_ne_zero (signals : AnalysisSignals) : macroFactor signals ≠ 0 := by
  unfold macroFactor
  split <;> norm_num

/-- The contribution of a signal whose regime is known is never zero without a
veto. -/
theorem finalContribution_ne_zero_of_active {signals : AnalysisSignals}
    (noVeto : vetoes signals = false) (outcome : ConflictOutcome) {d : DirectionalSignal}
    (member : d ∈ derived signals) (active : regimeActive d.direction d.regime = true) :
    finalContribution signals outcome d ≠ 0 := by
  have confidence : d.confidence.val ≠ 0 := ne_of_gt (confidence_pos_of_mem member)
  have carried : carriedConfidence signals d ≠ 0 := by
    unfold carriedConfidence
    split
    · simpa [vetoFactor, noVeto] using And.intro confidence (macroFactor_ne_zero signals)
    · exact confidence
  have weight : carriedWeight d ≠ 0 := by
    cases source_of_mem member with
    | technical sig _ =>
        have one : engineWeight defaultWeights (technicalDirectional sig).engineName = 1 :=
          engineWeight_technical
        rw [carriedWeight, if_pos one]
        exact one_ne_zero
    | chan sig _ =>
        have entry : engineWeight defaultWeights (chanDirectional sig).engineName = 9 / 10 :=
          engineWeight_chan
        rw [carriedWeight, entry]
        norm_num
    | regimeless _ regime _ _ => simp [regimeActive, regime] at active
  rw [finalContribution, contribution_chainScore, if_pos active]
  exact mul_ne_zero
    (mul_ne_zero (ruleSign_ne_zero _)
      (mul_ne_zero carried (ne_of_gt (signalMultiplier_pos _ _))))
    weight

/-- A signal of the losing side contributes exactly when its regime is known. -/
theorem finalContribution_loser_eq_zero_iff {signals : AnalysisSignals}
    (noVeto : vetoes signals = false) {d : DirectionalSignal} (member : d ∈ derived signals)
    (loses : d.direction = losingSide (derived signals)) :
    finalContribution signals (.winner (opposite (losingSide (derived signals)))) d = 0 ↔
      d.regime = none ∨ d.regime = some .unknown := by
  have side : d.direction ≠ .flat := loses ▸ losingSide_ne_flat (derived signals)
  constructor
  · intro zero
    by_contra known
    rw [not_or] at known
    exact finalContribution_ne_zero_of_active noVeto _ member
      (by simpa [regimeActive] using ⟨side, known.1, known.2⟩) zero
  · intro unknown
    have inactive : regimeActive d.direction d.regime = false := by
      rcases unknown with absent | unknown <;> simp [regimeActive, *]
    have quiet : silenced (.winner (opposite (losingSide (derived signals)))) d.direction = true := by
      rw [loses]
      cases direction : losingSide (derived signals) with
      | flat => exact absurd direction (losingSide_ne_flat (derived signals))
      | long | short => rfl
    simp [finalContribution, contribution_chainScore, inactive, quiet]

/-- **The losing side stays silent exactly when none of its signals has a known
regime.** -/
theorem conflict_loser_silent_iff (clock : Clock) (symbol : String)
    (timestamp : Option Timestamp) (signals : AnalysisSignals) (noVeto : vetoes signals = false)
    (longs : HasSide (derived signals) .long) (shorts : HasSide (derived signals) .short)
    (apart : 1 / 10 ≤ confidenceGap (derived signals)) :
    let decision := arbitrate clock symbol timestamp signals
    ((∀ entry ∈ decision.rationale, entry.direction = losingSide (derived signals) →
          entry.contribution = 0) ∧
        decision.bias ≠ biasTowards (losingSide (derived signals))) ↔
      ∀ d ∈ derived signals, d.direction = losingSide (derived signals) →
        d.regime = none ∨ d.regime = some .unknown := by
  have outcome := signalOutcome_winner longs shorts apart
  intro decision
  have entries := forall_rationale_iff clock symbol timestamp signals
    fun direction value => direction = losingSide (derived signals) → value = 0
  rw [outcome] at entries
  constructor
  · rintro ⟨zero, _⟩ d member loses
    exact (finalContribution_loser_eq_zero_iff noVeto member loses).mp
      (entries.mp zero d member loses)
  · intro unknown
    have zero : ∀ d ∈ derived signals, d.direction = losingSide (derived signals) →
        finalContribution signals (.winner (opposite (losingSide (derived signals)))) d = 0 :=
      fun d member loses =>
        (finalContribution_loser_eq_zero_iff noVeto member loses).mpr (unknown d member loses)
    refine ⟨entries.mpr zero, ?_⟩
    have compared : decision.bias = comparedBias decision.longScore decision.shortScore :=
      (evaluateAndDecide_compared clock _ symbol (collect clock symbol timestamp signals)
        (derived signals) exactRounding noVeto (.inr (by simp [outcome]))).1
    rw [compared]
    cases side : losingSide (derived signals) with
    | flat => exact absurd side (losingSide_ne_flat (derived signals))
    | long =>
        rw [side] at zero
        have none : decision.longScore = 0 :=
          longScore_eq_zero clock symbol timestamp signals (by rw [outcome, side]; exact zero)
        have nonneg : 0 ≤ decision.shortScore :=
          (shortScore_eq clock symbol timestamp signals).symm ▸ (normalizedScores_nonneg _).2
        rw [none, biasTowards, Ne, comparedBias_long_iff]
        linarith
    | short =>
        rw [side] at zero
        have none : decision.shortScore = 0 :=
          shortScore_eq_zero clock symbol timestamp signals (by rw [outcome, side]; exact zero)
        have nonneg : 0 ≤ decision.longScore :=
          (longScore_eq clock symbol timestamp signals).symm ▸ (normalizedScores_nonneg _).1
        rw [none, biasTowards, Ne, comparedBias_short_iff]
        linarith

/-- Order flow against sentiment: no signal has a regime. -/
def regimelessConflict : AnalysisSignals where
  orderflow := some ⟨4 / 5⟩
  sentiment := some ⟨UnitRational.clamp (1 / 5)⟩

theorem conflict_loser_silent_regimeless :
    losingSide (derived regimelessConflict) = .short ∧
      (arbitrate ⟨0, 0, 0⟩ "AAPL" none regimelessConflict).bias ≠ .shortBias := by
  have side : losingSide (derived regimelessConflict) = .short := by
    with_unfolding_all decide
  have towards : biasTowards (losingSide (derived regimelessConflict)) = .shortBias := by
    rw [side]
    rfl
  refine ⟨side, ?_⟩
  rw [← towards]
  refine ((conflict_loser_silent_iff ⟨0, 0, 0⟩ "AAPL" none regimelessConflict ?_ ?_ ?_ ?_).mpr
    ?_).2
  all_goals with_unfolding_all decide

/-- Order flow of confidence `0.8` against technical and chan signals of
confidence `0.7` in a downward trend. -/
def trendingConflict : AnalysisSignals where
  technical := some ⟨⟨.short, UnitRational.clamp (7 / 10), .trendingDown⟩⟩
  chan := some ⟨⟨.short, UnitRational.clamp (7 / 10), .trendingDown⟩⟩
  orderflow := some ⟨4 / 5⟩

/-- The short side loses the conflict and wins the decision. -/
theorem conflict_loser_wins_decision :
    vetoes trendingConflict = false ∧ HasSide (derived trendingConflict) .long ∧
      HasSide (derived trendingConflict) .short ∧ 1 / 10 ≤ confidenceGap (derived trendingConflict) ∧
      losingSide (derived trendingConflict) = .short ∧
      (arbitrate ⟨0, 0, 0⟩ "AAPL" none trendingConflict).rationale.map
        DecisionRationale.contribution = [-21 / 25, -189 / 250, 4 / 5] ∧
      (arbitrate ⟨0, 0, 0⟩ "AAPL" none trendingConflict).bias = .shortBias := by
  with_unfolding_all decide

/-! ## The macro risk-off signal -/

/-- **A risk-off call ends in `reduce_risk` exactly when the conflict rule demoted
it to `hold_bias` before the aggregation**, in every arithmetic. -/
theorem risk_off_reduces_iff (fl : Rounding) (clock : Clock) (symbol : String)
    (timestamp : Option Timestamp) (signals : AnalysisSignals) (sig : MacroSignal)
    (present : signals.macroSignal = some sig) (off : sig.riskOn = false)
    (noVeto : vetoes signals = false) :
    (arbitrate clock symbol timestamp signals fl).bias = .reduceRisk ↔
      HasSide (derived signals fl) .long ∧ HasSide (derived signals fl) .short ∧
        confidenceGap (derived signals fl) fl < fl (1 / 10) := by
  have risk : riskOff signals = true := by simp [riskOff, present, off]
  rw [← signalOutcome_hold_iff]
  constructor
  · intro reduced
    by_contra settled
    have compared : (arbitrate clock symbol timestamp signals fl).bias = comparedBias _ _ :=
      (evaluateAndDecide_compared clock _ symbol (collect clock symbol timestamp signals)
        (derived signals fl) fl noVeto (.inr settled)).1
    exact comparedBias_ne_reduceRisk _ _ (compared.symm.trans reduced)
  · intro demoted
    exact (evaluateAndDecide_demoted clock _ symbol (collect clock symbol timestamp signals)
      (derived signals fl) fl noVeto risk demoted).1

/-- A risk-off macro signal against a technical signal that is a tenth more
confident, or slightly less than that in doubles. -/
def riskOffDispute : AnalysisSignals where
  technical := some ⟨⟨.long, UnitRational.clamp (binary64 (3 / 5)), .ranging⟩⟩
  macroSignal := some ⟨UnitRational.clamp (1 / 2), false⟩

theorem risk_off_reduces_dispute :
    (arbitrate ⟨0, 0, 0⟩ "AAPL" none riskOffDispute binary64).longScore ≠ 0 ∧
      (arbitrate ⟨0, 0, 0⟩ "AAPL" none riskOffDispute binary64).bias = .reduceRisk :=
  ⟨by decide +kernel,
    (risk_off_reduces_iff binary64 ⟨0, 0, 0⟩ "AAPL" none riskOffDispute _ rfl rfl
      (by with_unfolding_all decide)).mpr (by with_unfolding_all decide)⟩

/-- A risk-off macro signal alone. -/
def riskOffAlone : AnalysisSignals where
  macroSignal := some ⟨UnitRational.clamp (1 / 2), false⟩

/-- The macro signal counts as a short vote, and the call ends in `short_bias`. -/
theorem risk_off_ends_short :
    riskOff riskOffAlone = true ∧ vetoes riskOffAlone = false ∧
      (arbitrate ⟨0, 0, 0⟩ "AAPL" none riskOffAlone binary64).shortScore = 1 ∧
      (arbitrate ⟨0, 0, 0⟩ "AAPL" none riskOffAlone binary64).bias = .shortBias := by
  with_unfolding_all decide

/-! ## The recorded factors -/

/-- The product of the factors the rules record for a signal. -/
def recordedContribution (signals : AnalysisSignals) (d : DirectionalSignal) : ℚ :=
  directionSign d.direction * d.confidence.val * macroFactor signals *
    signalMultiplier d.direction d.regime * engineWeight defaultWeights d.engineName

/-- The signals whose contribution shows every recorded factor. -/
def ShowsFactors (signals : AnalysisSignals) (d : DirectionalSignal) : Prop :=
  d.engineName = "technical" ∨
    d.engineName = "chan" ∧ d.regime ≠ some .unknown ∧ riskOff signals = false

instance (signals : AnalysisSignals) (d : DirectionalSignal) :
    Decidable (ShowsFactors signals d) :=
  inferInstanceAs (Decidable (_ ∨ _))

/-- The factor that the chain leaves on a signed confidence. -/
def appliedFactor (signals : AnalysisSignals) (d : DirectionalSignal) : ℚ :=
  if regimeActive d.direction d.regime then
    (if engineWeight defaultWeights d.engineName = 1 then macroFactor signals else 1) *
      signalMultiplier d.direction d.regime * carriedWeight d
  else macroFactor signals

/-- The factor that the rationale shows. -/
def shownFactor (signals : AnalysisSignals) (d : DirectionalSignal) : ℚ :=
  macroFactor signals * signalMultiplier d.direction d.regime *
    engineWeight defaultWeights d.engineName

/-- Without a veto or a conflict a contribution is the signed confidence times
the factors that the chain leaves. -/
theorem finalContribution_eq_factors {signals : AnalysisSignals}
    (noVeto : vetoes signals = false) {d : DirectionalSignal} (member : d ∈ derived signals)
    (side : d.direction ≠ .flat) :
    finalContribution signals .noConflict d =
      directionSign d.direction * d.confidence.val * appliedFactor signals d := by
  have one : vetoFactor signals = 1 := by simp [vetoFactor, noVeto]
  have loud : silenced .noConflict d.direction = false := rfl
  rw [finalContribution, contribution_chainScore, loud, ruleSign_eq_directionSign side,
    appliedFactor]
  cases active : regimeActive d.direction d.regime with
  | true =>
      simp only [if_true, carriedConfidence, one]
      split <;> ring
  | false =>
      simp only [Bool.false_eq_true, if_false, standingContribution, one, weight_of_mem member,
        DirectionalSignal.score, macroFactor, ruleSign_eq_directionSign side]
      split <;> ring

theorem directionSign_ne_zero {direction : Direction} (side : direction ≠ .flat) :
    directionSign direction ≠ 0 := by
  cases direction with
  | long | short => simp [directionSign]
  | flat => exact absurd rfl side

theorem macroFactor_eq_one_iff (signals : AnalysisSignals) :
    macroFactor signals = 1 ↔ riskOff signals = false := by
  cases off : riskOff signals <;> norm_num [macroFactor, off]

/-- The weight of technical signals is one, so nothing is lost on them. -/
theorem appliedFactor_technical (signals : AnalysisSignals) (sig : TechnicalSignal) :
    appliedFactor signals (technicalDirectional sig) =
      shownFactor signals (technicalDirectional sig) := by
  have weight : engineWeight defaultWeights (technicalDirectional sig).engineName = 1 :=
    engineWeight_technical
  unfold appliedFactor shownFactor
  cases active : regimeActive (technicalDirectional sig).direction
      (technicalDirectional sig).regime with
  | true =>
      simp only [if_true, carriedWeight, weight]
      rfl
  | false => simp [weight, signalMultiplier_of_inactive active]

/-- The regime rule takes the macro factor from a chan signal, and an unknown regime
takes its weight. -/
theorem appliedFactor_chan_iff {signals : AnalysisSignals} {sig : ChanSignal}
    (side : (chanDirectional sig).direction ≠ .flat) :
    appliedFactor signals (chanDirectional sig) = shownFactor signals (chanDirectional sig) ↔
      (chanDirectional sig).regime ≠ some .unknown ∧ riskOff signals = false := by
  have weight : engineWeight defaultWeights (chanDirectional sig).engineName = 9 / 10 :=
    engineWeight_chan
  have other : ¬((9 : ℚ) / 10 = 1) := by norm_num
  unfold appliedFactor shownFactor
  cases active : regimeActive (chanDirectional sig).direction (chanDirectional sig).regime with
  | true =>
      have known : (chanDirectional sig).regime ≠ some .unknown := by
        simp only [regimeActive, decide_eq_true_eq] at active
        exact active.2.2
      have multiplier : signalMultiplier (chanDirectional sig).direction
          (chanDirectional sig).regime * (9 / 10) ≠ 0 :=
        mul_ne_zero (ne_of_gt (signalMultiplier_pos _ _)) (by norm_num)
      simp only [if_true, carriedWeight, weight, if_neg other]
      rw [and_iff_right known, ← macroFactor_eq_one_iff, mul_assoc, mul_assoc,
        mul_left_inj' multiplier]
      exact eq_comm
  | false =>
      have unknown : (chanDirectional sig).regime = some .unknown := by
        by_contra known
        rw [regimeActive, decide_eq_false_iff_not] at active
        exact active ⟨side, Option.some_ne_none _, known⟩
      refine iff_of_false ?_ fun shows => shows.1 unknown
      rw [weight, signalMultiplier_of_inactive active, if_neg (by simp)]
      intro same
      exact macroFactor_ne_zero signals (by linarith)

/-- A signal without a regime never gets its weight. -/
theorem appliedFactor_regimeless (signals : AnalysisSignals) {d : DirectionalSignal}
    (regime : d.regime = none)
    (engine : d.engineName = "orderflow" ∨ d.engineName = "sentiment" ∨ d.engineName = "macro") :
    appliedFactor signals d ≠ shownFactor signals d := by
  have inactive : regimeActive d.direction d.regime = false := by
    rw [regime, regimeActive_none]
  rw [appliedFactor, shownFactor, inactive, signalMultiplier_of_inactive inactive,
    if_neg (by simp)]
  intro same
  have one : macroFactor signals * engineWeight defaultWeights d.engineName =
      macroFactor signals * 1 := by linarith
  exact engineWeight_regimeless engine (mul_left_cancel₀ (macroFactor_ne_zero signals) one)

theorem finalContribution_eq_recorded_iff {signals : AnalysisSignals}
    (noVeto : vetoes signals = false) {d : DirectionalSignal} (member : d ∈ derived signals)
    (side : d.direction ≠ .flat) :
    finalContribution signals .noConflict d = recordedContribution signals d ↔
      ShowsFactors signals d := by
  have base : directionSign d.direction * d.confidence.val ≠ 0 :=
    mul_ne_zero (directionSign_ne_zero side) (ne_of_gt (confidence_pos_of_mem member))
  have recorded : recordedContribution signals d =
      directionSign d.direction * d.confidence.val * shownFactor signals d := by
    rw [recordedContribution, shownFactor]
    ring
  rw [finalContribution_eq_factors noVeto member side, recorded, mul_right_inj' base]
  cases source_of_mem member with
  | technical sig present => exact iff_of_true (appliedFactor_technical signals sig) (.inl rfl)
  | chan sig present =>
      have notTechnical : (chanDirectional sig).engineName ≠ "technical" := by
        simp [chanDirectional]
      have shows : ShowsFactors signals (chanDirectional sig) ↔
          (chanDirectional sig).regime ≠ some .unknown ∧ riskOff signals = false :=
        ⟨fun shows => (shows.resolve_left notTechnical).2, fun shows => .inr ⟨rfl, shows⟩⟩
      rw [shows]
      exact appliedFactor_chan_iff side
  | regimeless _ regime _ engine =>
      refine iff_of_false (appliedFactor_regimeless signals regime engine) ?_
      rintro (technical | ⟨chan, _⟩)
      · rw [technical] at engine
        simp at engine
      · rw [chan] at engine
        simp at engine

/-- **The recorded factors multiply up exactly for technical signals, and for chan
signals of a known regime without a risk-off macro signal.** -/
theorem recorded_factors_iff (clock : Clock) (symbol : String) (timestamp : Option Timestamp)
    (signals : AnalysisSignals) (noVeto : vetoes signals = false)
    (noConflict : ¬ HasSide (derived signals) .long ∨ ¬ HasSide (derived signals) .short) :
    List.Forall₂ (fun d entry => d.direction ≠ .flat →
        entry.contribution = recordedContribution signals d)
        (derived signals) (arbitrate clock symbol timestamp signals).rationale ↔
      ∀ d ∈ derived signals, d.direction ≠ .flat → ShowsFactors signals d := by
  have outcome : signalOutcome (derived signals) = .noConflict :=
    signalOutcome_noConflict noConflict
  rw [arbitrate_eq, evaluateAndDecide_rationale, finalScores, List.map_map,
    List.forall₂_map_right_iff, List.forall₂_same, outcome]
  constructor
  · intro equal d member side
    exact (finalContribution_eq_recorded_iff noVeto member side).mp (equal d member side)
  · intro shows d member side
    exact (finalContribution_eq_recorded_iff noVeto member side).mpr (shows d member side)

/-- A technical and a chan signal, both in an upward trend. -/
def trendingAgreement : AnalysisSignals where
  technical := some ⟨⟨.long, UnitRational.clamp (4 / 5), .trendingUp⟩⟩
  chan := some ⟨⟨.long, UnitRational.clamp (1 / 2), .trendingUp⟩⟩

theorem recorded_factors_trending :
    List.Forall₂ (fun d entry => d.direction ≠ .flat →
        entry.contribution = recordedContribution trendingAgreement d)
      (derived trendingAgreement)
      (arbitrate ⟨0, 0, 0⟩ "AAPL" none trendingAgreement).rationale := by
  refine (recorded_factors_iff ⟨0, 0, 0⟩ "AAPL" none trendingAgreement ?_ ?_).mpr ?_
  all_goals with_unfolding_all decide

/-- Order flow alone. -/
def orderflowAlone : AnalysisSignals where
  orderflow := some ⟨1 / 2⟩

/-- The weight `1.1` of order flow is recorded and does not reach the
contribution. -/
theorem recorded_weight_not_applied :
    vetoes orderflowAlone = false ∧ ¬ HasSide (derived orderflowAlone) .short ∧
      (derived orderflowAlone).map (recordedContribution orderflowAlone) = [11 / 20] ∧
      (arbitrate ⟨0, 0, 0⟩ "AAPL" none orderflowAlone).rationale.map
        (fun entry => (entry.contribution, entry.ruleAdjustments)) =
          [(1 / 2, ["confidence_weight: orderflow *= 1.1"])] := by
  with_unfolding_all decide

end TradeOS.Arbitration
