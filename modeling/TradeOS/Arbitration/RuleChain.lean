import TradeOS.Arbitration.Engine

/-!
# What the rule chain does to one signal

The rules change the confidences, weights and contributions of the scores and
never the engine, direction, raw confidence or regime of a signal
(`KeepsIdentity`). The conflict rule reads only these, so its outcome is fixed
by the directional signals before any rule has run, and the five rules act on
the scores as one map (`applyRules_scores`).

`contribution_chainScore` is the closed form of the contribution after all five
rules. The regime filter comes last and recomputes the contribution of every
long or short signal of a known regime; what the veto, the macro rule and the
conflict rule wrote survives only where it does not.
-/

set_option autoImplicit false

namespace TradeOS.Arbitration

open TradeOS.Numeric

/-! ## The identity of a signal -/

/-- An update of scores that keeps engine, direction, raw confidence and
regime. -/
structure KeepsIdentity (f : SignalScore → SignalScore) : Prop where
  engineName : ∀ s, (f s).engineName = s.engineName
  direction : ∀ s, (f s).direction = s.direction
  rawConfidence : ∀ s, (f s).rawConfidence = s.rawConfidence
  regime : ∀ s, (f s).regime = s.regime

theorem KeepsIdentity.refl : KeepsIdentity id :=
  ⟨fun _ => rfl, fun _ => rfl, fun _ => rfl, fun _ => rfl⟩

theorem KeepsIdentity.comp {f g : SignalScore → SignalScore} (outer : KeepsIdentity g)
    (inner : KeepsIdentity f) : KeepsIdentity (fun s => g (f s)) where
  engineName s := (outer.engineName _).trans (inner.engineName s)
  direction s := (outer.direction _).trans (inner.direction s)
  rawConfidence s := (outer.rawConfidence _).trans (inner.rawConfidence s)
  regime s := (outer.regime _).trans (inner.regime s)

theorem keepsIdentity_vetoScore (reason : String) : KeepsIdentity (vetoScore reason) :=
  ⟨fun _ => rfl, fun _ => rfl, fun _ => rfl, fun _ => rfl⟩

theorem keepsIdentity_riskOffScore : KeepsIdentity riskOffScore :=
  ⟨fun _ => rfl, fun _ => rfl, fun _ => rfl, fun _ => rfl⟩

/-! ## The conflict outcome depends on the identities only -/

theorem ofDirection_map {f : SignalScore → SignalScore} (keeps : KeepsIdentity f)
    (scores : List SignalScore) (direction : Direction) :
    ofDirection (scores.map f) direction = (ofDirection scores direction).map f := by
  simp only [ofDirection, List.filter_map]
  congr 1
  apply List.filter_congr
  intro s _
  simp only [Function.comp_apply, keeps.direction]

theorem maxConfidence_map {f : SignalScore → SignalScore} (keeps : KeepsIdentity f)
    (scores : List SignalScore) : maxConfidence (scores.map f) = maxConfidence scores := by
  simp only [maxConfidence, List.map_map]
  congr 2
  exact List.map_congr_left fun s _ => keeps.rawConfidence s

theorem conflictOutcome_map {f : SignalScore → SignalScore} (keeps : KeepsIdentity f)
    {fl : Rounding} (scores : List SignalScore) :
    conflictOutcome (scores.map f) fl = conflictOutcome scores fl := by
  simp only [conflictOutcome, ofDirection_map keeps, maxConfidence_map keeps, List.map_eq_nil_iff]

/-! ## The chain as one map -/

/-- The fundamental report vetoes. -/
def vetoes (signals : AnalysisSignals) : Bool :=
  signals.fundamental.any fun report => report.rating = "D"

/-- The macro signal is risk-off. -/
def riskOff (signals : AnalysisSignals) : Bool :=
  signals.macroSignal.any fun sig => !sig.riskOn

/-- The effect of rule 1 on one score. -/
def vetoStage (signals : AnalysisSignals) (s : SignalScore) : SignalScore :=
  if vetoes signals then vetoScore "fundamental_veto: rating=D" s else s

/-- The effect of rule 2 on one score. -/
def macroStage (signals : AnalysisSignals) (s : SignalScore) : SignalScore :=
  if riskOff signals then riskOffScore s else s

/-- The effect of the five rules on one score, given how the conflict was
resolved. -/
def chainScore (signals : AnalysisSignals) (outcome : ConflictOutcome) (s : SignalScore) :
    SignalScore :=
  regimeScore (weightedScore defaultWeights
    (conflictScore outcome (macroStage signals (vetoStage signals s))))

theorem keepsIdentity_vetoStage (signals : AnalysisSignals) :
    KeepsIdentity (vetoStage signals) := by
  cases veto : vetoes signals with
  | false =>
      have same : vetoStage signals = id := by funext s; simp [vetoStage, veto]
      exact same ▸ KeepsIdentity.refl
  | true =>
      have same : vetoStage signals = vetoScore "fundamental_veto: rating=D" := by
        funext s; simp [vetoStage, veto]
      exact same ▸ keepsIdentity_vetoScore _

theorem keepsIdentity_macroStage (signals : AnalysisSignals) :
    KeepsIdentity (macroStage signals) := by
  cases off : riskOff signals with
  | false =>
      have same : macroStage signals = id := by funext s; simp [macroStage, off]
      exact same ▸ KeepsIdentity.refl
  | true =>
      have same : macroStage signals = riskOffScore := by funext s; simp [macroStage, off]
      exact same ▸ keepsIdentity_riskOffScore

theorem fundamentalVeto_scores (bundle : SignalBundle) (state : ArbitrationState) :
    (fundamentalVeto.evaluate bundle state).scores =
      state.scores.map (vetoStage bundle.toAnalysisSignals) := by
  cases report : bundle.fundamental with
  | none =>
      have stage : vetoStage bundle.toAnalysisSignals = id := by
        funext s; simp [vetoStage, vetoes, report]
      simp [fundamentalVeto, report, stage]
  | some rated =>
      by_cases rating : rated.rating = "D"
      · have stage : vetoStage bundle.toAnalysisSignals =
            vetoScore "fundamental_veto: rating=D" := by
          funext s; simp [vetoStage, vetoes, report, rating]
        simp [fundamentalVeto, report, rating, vetoAll, stage]
      · have stage : vetoStage bundle.toAnalysisSignals = id := by
          funext s; simp [vetoStage, vetoes, report, rating]
        simp [fundamentalVeto, report, rating, stage]

theorem macroAdjustment_scores (bundle : SignalBundle) (state : ArbitrationState) :
    (macroAdjustment.evaluate bundle state).scores =
      state.scores.map (macroStage bundle.toAnalysisSignals) := by
  cases present : bundle.macroSignal with
  | none =>
      have stage : macroStage bundle.toAnalysisSignals = id := by
        funext s; simp [macroStage, riskOff, present]
      simp [macroAdjustment, present, stage]
  | some sig =>
      cases on : sig.riskOn with
      | true =>
          have stage : macroStage bundle.toAnalysisSignals = id := by
            funext s; simp [macroStage, riskOff, present, on]
          simp [macroAdjustment, present, on, stage]
      | false =>
          have stage : macroStage bundle.toAnalysisSignals = riskOffScore := by
            funext s; simp [macroStage, riskOff, present, on]
          simp [macroAdjustment, present, on, stage]

theorem directionConflict_scores {fl : Rounding} (bundle : SignalBundle)
    (state : ArbitrationState) :
    ((directionConflict fl).evaluate bundle state).scores =
      state.scores.map (conflictScore (conflictOutcome state.scores fl)) := by
  by_cases quiet : conflictOutcome state.scores fl = .noConflict
  · have stage : conflictScore .noConflict = id := rfl
    simp [directionConflict, quiet, stage]
  · simp [directionConflict, quiet]

/-- Without a known regime among the scores the regime filter has nothing to
do. -/
theorem countRegime_ne_nil (counts : List (Regime × ℕ)) (regime : Regime) :
    countRegime counts regime ≠ [] := by
  unfold countRegime
  split
  · rename_i found
    intro empty
    rw [List.map_eq_nil_iff] at empty
    simp [empty] at found
  · simp

theorem foldl_countRegime_ne_nil (regimes : List Regime) :
    ∀ counts : List (Regime × ℕ), counts ≠ [] →
      regimes.foldl (fun counts regime =>
        if regime = .unknown then counts else countRegime counts regime) counts ≠ [] := by
  induction regimes with
  | nil => exact fun _ nonempty => nonempty
  | cons regime regimes ih =>
      intro counts nonempty
      rw [List.foldl_cons]
      apply ih
      split
      · exact nonempty
      · exact countRegime_ne_nil _ _

theorem foldl_countRegime_eq_nil {regimes : List Regime}
    (empty : regimes.foldl (fun counts regime =>
      if regime = .unknown then counts else countRegime counts regime) [] = []) :
    ∀ regime ∈ regimes, regime = .unknown := by
  induction regimes with
  | nil => intro regime member; cases member
  | cons first regimes ih =>
      rw [List.foldl_cons] at empty
      by_cases unknown : first = .unknown
      · rw [if_pos unknown] at empty
        intro regime member
        rcases List.mem_cons.mp member with rfl | later
        · exact unknown
        · exact ih empty regime later
      · rw [if_neg unknown] at empty
        exact absurd empty (foldl_countRegime_ne_nil _ _ (countRegime_ne_nil _ _))

theorem regimeScore_of_no_dominant {scores : List SignalScore}
    (none : dominantRegime (regimeCounts scores) = none) :
    ∀ s ∈ scores, regimeScore s = s := by
  have empty : regimeCounts scores = [] := by
    cases counted : regimeCounts scores with
    | nil => rfl
    | cons first rest => rw [counted] at none; cases none
  intro s member
  cases known : s.regime with
  | none => simp [regimeScore, known]
  | some regime =>
      have unknown : regime = .unknown :=
        foldl_countRegime_eq_nil empty regime (List.mem_filterMap.mpr ⟨s, member, known⟩)
      simp [regimeScore, known, unknown]

theorem regimeFilter_scores (bundle : SignalBundle) (state : ArbitrationState) :
    (regimeFilter.evaluate bundle state).scores = state.scores.map regimeScore := by
  cases dominant : dominantRegime (regimeCounts state.scores) with
  | none =>
      have same : state.scores.map regimeScore = state.scores.map id :=
        List.map_congr_left (regimeScore_of_no_dominant dominant)
      simp [regimeFilter, dominant, same]
  | some regime => simp [regimeFilter, dominant]

/-- **The five rules act on the scores as one map.** The conflict outcome is that
of the scores before the first rule. -/
theorem applyRules_scores {fl : Rounding} (bundle : SignalBundle) (state : ArbitrationState) :
    (applyRules bundle state fl).scores =
      state.scores.map
        (chainScore bundle.toAnalysisSignals (conflictOutcome state.scores fl)) := by
  have weights : ∀ (before : ArbitrationState),
      (confidenceWeight.evaluate bundle before).scores =
        before.scores.map (weightedScore defaultWeights) := fun _ => rfl
  have outcome : conflictOutcome (macroAdjustment.evaluate bundle
      (fundamentalVeto.evaluate bundle state)).scores fl = conflictOutcome state.scores fl := by
    rw [macroAdjustment_scores, fundamentalVeto_scores,
      conflictOutcome_map (keepsIdentity_macroStage _),
      conflictOutcome_map (keepsIdentity_vetoStage _)]
  simp only [applyRules, rules_eq_registered, registeredRules, List.foldl_cons, List.foldl_nil,
    regimeFilter_scores, weights, directionConflict_scores]
  rw [outcome, macroAdjustment_scores, fundamentalVeto_scores]
  simp only [List.map_map]
  rfl

/-! ## The contribution after the chain -/

/-- The regime filter recomputes the contribution: the signal is long or short
and its regime is known. -/
def regimeActive (direction : Direction) (regime : Option Regime) : Bool :=
  direction ≠ .flat ∧ regime ≠ none ∧ regime ≠ some .unknown

/-- The regime multiplier of a signal, `1` without a regime. -/
def signalMultiplier (direction : Direction) : Option Regime → ℚ
  | none => 1
  | some regime => regimeMultiplier direction regime

/-- The conflict rule zeroes the contribution. -/
def silenced : ConflictOutcome → Direction → Bool
  | .noConflict, _ => false
  | .hold, _ => true
  | .winner side, direction => direction ≠ side ∧ direction = opposite side

/-- What the veto leaves of a contribution. -/
def vetoFactor (signals : AnalysisSignals) : ℚ := if vetoes signals then 0 else 1

/-- What the macro rule leaves of a confidence. -/
def macroFactor (signals : AnalysisSignals) : ℚ := if riskOff signals then 1 / 2 else 1

/-- The multiplier table, read by constructors. -/
theorem regimeMultiplier_eq (direction : Direction) (regime : Regime) :
    regimeMultiplier direction regime =
      match direction, regime with
      | .flat, _ | _, .unknown => 1
      | .long, .trendingUp | .short, .trendingDown => 12 / 10
      | .short, .trendingUp | .long, .trendingDown => 9 / 10
      | _, .ranging => 7 / 10
      | _, .volatile => 5 / 10 := by
  cases direction <;> cases regime <;> rfl

theorem regimeMultiplier_eq_one_iff (direction : Direction) (regime : Regime) :
    regimeMultiplier direction regime = 1 ↔ direction = .flat ∨ regime = .unknown := by
  rw [regimeMultiplier_eq]
  cases direction <;> cases regime <;> norm_num <;> decide

theorem regimeMultiplier_pos (direction : Direction) (regime : Regime) :
    0 < regimeMultiplier direction regime := by
  rw [regimeMultiplier_eq]
  cases direction <;> cases regime <;> norm_num

theorem signalMultiplier_pos (direction : Direction) (regime : Option Regime) :
    0 < signalMultiplier direction regime := by
  cases regime with
  | none => exact zero_lt_one
  | some known => exact regimeMultiplier_pos direction known

/-- Where the filter does not act the multiplier is one. -/
theorem regimeActive_none (direction : Direction) : regimeActive direction none = false := by
  simp [regimeActive]

theorem signalMultiplier_of_inactive {direction : Direction} {regime : Option Regime}
    (inactive : regimeActive direction regime = false) : signalMultiplier direction regime = 1 := by
  cases regime with
  | none => rfl
  | some known =>
      apply (regimeMultiplier_eq_one_iff direction known).mpr
      by_contra active
      rw [not_or] at active
      simp [regimeActive, active.1, active.2] at inactive

theorem contribution_regimeScore (s : SignalScore) :
    (regimeScore s).contribution =
      if regimeActive s.direction s.regime then
        ruleSign s.direction * (s.adjustedConfidence * signalMultiplier s.direction s.regime) *
          s.weight
      else s.contribution := by
  cases known : s.regime with
  | none => simp [regimeScore, known, regimeActive]
  | some regime =>
      by_cases unknown : regime = .unknown
      · simp [regimeScore, known, regimeActive, unknown]
      · by_cases flat : s.direction = .flat
        · have one : regimeMultiplier .flat regime = 1 :=
            (regimeMultiplier_eq_one_iff _ _).mpr (.inl rfl)
          simp [regimeScore, known, regimeActive, unknown, flat, one]
        · have effective : regimeMultiplier s.direction regime ≠ 1 := by
            rw [Ne, regimeMultiplier_eq_one_iff]
            exact not_or.mpr ⟨flat, unknown⟩
          simp [regimeScore, known, regimeActive, unknown, flat, effective, signalMultiplier,
            SignalScore.rescale, SignalScore.record]

theorem contribution_weightedScore (weights : List (String × ℚ)) (s : SignalScore) :
    (weightedScore weights s).contribution = s.contribution := by
  simp only [weightedScore]
  split <;> rfl

theorem adjustedConfidence_weightedScore (weights : List (String × ℚ)) (s : SignalScore) :
    (weightedScore weights s).adjustedConfidence =
      if engineWeight weights s.engineName = 1 then s.adjustedConfidence else s.rawConfidence := by
  by_cases one : engineWeight weights s.engineName = 1 <;>
    simp [weightedScore, one, SignalScore.record]

theorem weight_weightedScore (weights : List (String × ℚ)) (s : SignalScore) :
    (weightedScore weights s).weight =
      if engineWeight weights s.engineName = 1 then s.weight
      else engineWeight weights s.engineName := by
  by_cases one : engineWeight weights s.engineName = 1 <;>
    simp [weightedScore, one, SignalScore.record]

theorem keepsIdentity_weightedScore (weights : List (String × ℚ)) :
    KeepsIdentity (weightedScore weights) := by
  constructor <;> intro s <;> simp only [weightedScore] <;> split <;> rfl

theorem conflictScore_cases (outcome : ConflictOutcome) (s : SignalScore) :
    (silenced outcome s.direction = true ∧ (conflictScore outcome s).contribution = 0) ∨
      (silenced outcome s.direction = false ∧
        (conflictScore outcome s).contribution = s.contribution) := by
  cases outcome with
  | noConflict => exact .inr ⟨rfl, rfl⟩
  | hold => exact .inl ⟨rfl, rfl⟩
  | winner side =>
      by_cases wins : s.direction = side
      · exact .inr ⟨by simp [silenced, wins],
          by simp [conflictScore, wins, winnerScore, SignalScore.record]⟩
      · by_cases loses : s.direction = opposite side
        · exact .inl ⟨by simpa [silenced, loses] using fun same => wins (loses.trans same),
            by simp only [conflictScore, if_neg wins, if_pos loses]; rfl⟩
        · exact .inr ⟨by simp [silenced, loses], by simp [conflictScore, wins, loses]⟩

/-- The conflict rule changes nothing but the contribution. -/
theorem conflictScore_keeps (outcome : ConflictOutcome) (s : SignalScore) :
    (conflictScore outcome s).adjustedConfidence = s.adjustedConfidence ∧
      (conflictScore outcome s).weight = s.weight := by
  cases outcome with
  | noConflict => exact ⟨rfl, rfl⟩
  | hold => exact ⟨rfl, rfl⟩
  | winner side =>
      simp only [conflictScore]
      split
      · exact ⟨rfl, rfl⟩
      · split <;> exact ⟨rfl, rfl⟩

theorem keepsIdentity_conflictScore (outcome : ConflictOutcome) :
    KeepsIdentity (conflictScore outcome) := by
  cases outcome with
  | noConflict => exact KeepsIdentity.refl
  | hold => exact ⟨fun _ => rfl, fun _ => rfl, fun _ => rfl, fun _ => rfl⟩
  | winner side =>
      constructor <;> intro s <;> simp only [conflictScore] <;> split <;> try rfl
      all_goals split <;> rfl

/-- The confidence a recomputed contribution starts from. A weight entry other
than one resets it to the raw confidence. -/
def carriedConfidence (signals : AnalysisSignals) (d : DirectionalSignal) : ℚ :=
  if engineWeight defaultWeights d.engineName = 1 then
    d.confidence.val * vetoFactor signals * macroFactor signals
  else d.confidence.val

/-- The weight a recomputed contribution uses. -/
def carriedWeight (d : DirectionalSignal) : ℚ :=
  if engineWeight defaultWeights d.engineName = 1 then d.weight
  else engineWeight defaultWeights d.engineName

/-- The contribution that the veto and the macro rule leave. -/
def standingContribution (signals : AnalysisSignals) (d : DirectionalSignal) : ℚ :=
  if riskOff signals then
    ruleSign d.direction * (d.confidence.val * vetoFactor signals * (1 / 2)) * d.weight
  else d.score * vetoFactor signals

theorem macroStage_vetoStage_scoreSignal (signals : AnalysisSignals) (d : DirectionalSignal) :
    (macroStage signals (vetoStage signals (scoreSignal d))).adjustedConfidence =
        d.confidence.val * vetoFactor signals * macroFactor signals ∧
      (macroStage signals (vetoStage signals (scoreSignal d))).weight = d.weight ∧
      (macroStage signals (vetoStage signals (scoreSignal d))).contribution =
        standingContribution signals d := by
  cases veto : vetoes signals <;> cases off : riskOff signals <;>
    simp [macroStage, vetoStage, vetoFactor, macroFactor, standingContribution, veto, off,
      scoreSignal, vetoScore, riskOffScore, riskOffAdjustment, SignalScore.record,
      SignalScore.rescale]

/-- **The contribution of a signal after the five rules.** -/
theorem contribution_chainScore (signals : AnalysisSignals) (outcome : ConflictOutcome)
    (d : DirectionalSignal) :
    (chainScore signals outcome (scoreSignal d)).contribution =
      if regimeActive d.direction d.regime then
        ruleSign d.direction *
          (carriedConfidence signals d * signalMultiplier d.direction d.regime) * carriedWeight d
      else if silenced outcome d.direction then 0
      else standingContribution signals d := by
  have early : KeepsIdentity fun s => macroStage signals (vetoStage signals s) :=
    (keepsIdentity_macroStage signals).comp (keepsIdentity_vetoStage signals)
  have conflicted := (keepsIdentity_conflictScore outcome).comp early
  have weighted := (keepsIdentity_weightedScore defaultWeights).comp conflicted
  obtain ⟨adjusted, weight, standing⟩ := macroStage_vetoStage_scoreSignal signals d
  obtain ⟨keepsAdjusted, keepsWeight⟩ :=
    conflictScore_keeps outcome (macroStage signals (vetoStage signals (scoreSignal d)))
  have resolved : (conflictScore outcome
      (macroStage signals (vetoStage signals (scoreSignal d)))).contribution =
        if silenced outcome d.direction then 0 else standingContribution signals d := by
    have direction : (macroStage signals (vetoStage signals (scoreSignal d))).direction =
        d.direction := early.direction (scoreSignal d)
    rcases conflictScore_cases outcome (macroStage signals (vetoStage signals (scoreSignal d)))
      with ⟨quiet, zero⟩ | ⟨loud, same⟩
    · rw [direction] at quiet
      simp [quiet, zero]
    · rw [direction] at loud
      simp [loud, same, standing]
  rw [chainScore, contribution_regimeScore, weighted.direction, weighted.regime,
    adjustedConfidence_weightedScore, weight_weightedScore, contribution_weightedScore,
    conflicted.engineName, conflicted.rawConfidence, keepsAdjusted, keepsWeight, adjusted, weight,
    resolved]
  rfl

/-! ## The decision after the chain -/

/-- What the rules leave in the decision, for the aggregation to read. -/
structure ChainDecision (signals : AnalysisSignals) (outcome : ConflictOutcome)
    (decision : ArbitrationDecision) : Prop where
  veto : decision.fundamentalVetoTriggered = vetoes signals
  riskAdjustment : decision.riskAdjustment = macroFactor signals
  bias : decision.bias = if outcome = .hold then .holdBias else .noTrade
  confidence : decision.confidence = 0

theorem fundamentalVeto_decision (bundle : SignalBundle) (scores : List SignalScore)
    (clock : Clock) (ts : Timestamp) (symbol : String) (count : ℕ) :
    let decision := (fundamentalVeto.evaluate bundle
      ⟨scores, initialDecision clock ts symbol count⟩).decision
    decision.fundamentalVetoTriggered = vetoes bundle.toAnalysisSignals ∧
      decision.riskAdjustment = 1 ∧ decision.bias = .noTrade ∧ decision.confidence = 0 := by
  cases report : bundle.fundamental with
  | none => simp [fundamentalVeto, report, vetoes, initialDecision]
  | some rated =>
      by_cases rating : rated.rating = "D" <;>
        simp [fundamentalVeto, report, rating, vetoes, initialDecision, vetoAll, applied]

theorem macroAdjustment_decision (bundle : SignalBundle) {state : ArbitrationState}
    (risk : state.decision.riskAdjustment = 1) :
    let decision := (macroAdjustment.evaluate bundle state).decision
    decision.riskAdjustment = macroFactor bundle.toAnalysisSignals ∧
      decision.fundamentalVetoTriggered = state.decision.fundamentalVetoTriggered ∧
      decision.bias = state.decision.bias ∧ decision.confidence = state.decision.confidence := by
  cases present : bundle.macroSignal with
  | none => simp [macroAdjustment, present, macroFactor, riskOff, risk]
  | some sig =>
      cases on : sig.riskOn <;>
        simp [macroAdjustment, present, on, macroFactor, riskOff, applied, riskOffAdjustment]

theorem directionConflict_decision {fl : Rounding} (bundle : SignalBundle)
    (state : ArbitrationState) :
    let decision := ((directionConflict fl).evaluate bundle state).decision
    decision.bias =
        (if conflictOutcome state.scores fl = .hold then .holdBias else state.decision.bias) ∧
      decision.fundamentalVetoTriggered = state.decision.fundamentalVetoTriggered ∧
      decision.riskAdjustment = state.decision.riskAdjustment ∧
      decision.confidence = state.decision.confidence := by
  by_cases quiet : conflictOutcome state.scores fl = .noConflict
  · simp [directionConflict, quiet]
  · simp [directionConflict, quiet, applied]

/-- The last two rules only append to the list of applied rules. -/
theorem laterRules_decision (bundle : SignalBundle) (state : ArbitrationState) :
    let decision :=
      (regimeFilter.evaluate bundle (confidenceWeight.evaluate bundle state)).decision
    decision.bias = state.decision.bias ∧
      decision.fundamentalVetoTriggered = state.decision.fundamentalVetoTriggered ∧
      decision.riskAdjustment = state.decision.riskAdjustment ∧
      decision.confidence = state.decision.confidence := by
  simp only [regimeFilter, confidenceWeight]
  split <;> exact ⟨rfl, rfl, rfl, rfl⟩

/-- **The decision after the five rules.** -/
theorem applyRules_decision {fl : Rounding} (bundle : SignalBundle) (scores : List SignalScore)
    (clock : Clock) (ts : Timestamp) (symbol : String) (count : ℕ) :
    ChainDecision bundle.toAnalysisSignals (conflictOutcome scores fl)
      (applyRules bundle ⟨scores, initialDecision clock ts symbol count⟩ fl).decision := by
  obtain ⟨veto, risk, bias, confidence⟩ :=
    fundamentalVeto_decision bundle scores clock ts symbol count
  set first := fundamentalVeto.evaluate bundle ⟨scores, initialDecision clock ts symbol count⟩
    with firstEq
  obtain ⟨risk', veto', bias', confidence'⟩ := macroAdjustment_decision bundle risk
  set second := macroAdjustment.evaluate bundle first with secondEq
  have outcome : conflictOutcome second.scores fl = conflictOutcome scores fl := by
    rw [secondEq, macroAdjustment_scores, firstEq, fundamentalVeto_scores,
      conflictOutcome_map (keepsIdentity_macroStage _),
      conflictOutcome_map (keepsIdentity_vetoStage _)]
  obtain ⟨bias'', veto'', risk'', confidence''⟩ := directionConflict_decision bundle second
  set third := (directionConflict fl).evaluate bundle second
  obtain ⟨bias3, veto3, risk3, confidence3⟩ := laterRules_decision bundle third
  have chain : applyRules bundle ⟨scores, initialDecision clock ts symbol count⟩ fl =
      regimeFilter.evaluate bundle (confidenceWeight.evaluate bundle third) := rfl
  rw [chain]
  refine ⟨?_, ?_, ?_, ?_⟩
  · rw [veto3, veto'', veto', veto]
  · rw [risk3, risk'', risk']
  · rw [bias3, bias'', bias', bias, outcome]
  · rw [confidence3, confidence'', confidence', confidence]

end TradeOS.Arbitration
