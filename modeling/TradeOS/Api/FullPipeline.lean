import TradeOS.Api.RiskRoute
import TradeOS.Arbitration.Derived

/-!
# The full pipeline

The pipeline arbitrates on the one signal of its request. The bias is the side of the request if
the signal is heard, and no trade otherwise (`callArbitrationEngine_spec`). The decision of an
arbitration never has a direction of its own: the field keeps its default, the word `flat` in lower
case (`arbitrate_undirected`). A risk request takes directions in upper case only, so phase 7
refuses every decision that it is given, over a field that the risk route does not read.

`runFullPipeline_spec` says what a run returns: never a plan, and without a failure exactly if there
is nothing to trade.
-/

set_option autoImplicit false

namespace TradeOS.Api

open Arbitration Risk Numeric EnsembleScorer

/-! ## The direction of a decision -/

/-- No rule writes the directions of the decision. -/
theorem evaluate_undirected {rule : ArbitrationRule} (listed : rule ∈ rules) (bundle : SignalBundle)
    (state : ArbitrationState) :
    (rule.evaluate bundle state).decision.direction = state.decision.direction ∧
      (rule.evaluate bundle state).decision.targetDirection = state.decision.targetDirection := by
  rw [rules_eq_registered] at listed
  simp only [registeredRules, List.mem_cons, List.not_mem_nil, or_false] at listed
  rcases listed with rfl | rfl | rfl | rfl | rfl
  · simp only [fundamentalVeto]
    split
    · exact ⟨rfl, rfl⟩
    · split <;> exact ⟨rfl, rfl⟩
  · simp only [macroAdjustment]
    split
    · exact ⟨rfl, rfl⟩
    · split <;> exact ⟨rfl, rfl⟩
  · simp only [directionConflict]
    split <;> exact ⟨rfl, rfl⟩
  · exact ⟨rfl, rfl⟩
  · simp only [regimeFilter]
    split <;> exact ⟨rfl, rfl⟩

theorem aggregate_keeps (scores : List SignalScore) (decision : ArbitrationDecision) :
    (aggregate scores decision).direction = decision.direction ∧
      (aggregate scores decision).targetDirection = decision.targetDirection ∧
      (aggregate scores decision).riskAdjustment = decision.riskAdjustment := by
  unfold aggregate
  dsimp only
  split
  · exact ⟨rfl, rfl, rfl⟩
  · split
    · exact ⟨rfl, rfl, rfl⟩
    · split <;> exact ⟨rfl, rfl, rfl⟩

theorem applyRules_undirected (bundle : SignalBundle) {state : ArbitrationState}
    (undirected : state.decision.direction = .flat ∧ state.decision.targetDirection = none) :
    (applyRules bundle state).decision.direction = .flat ∧
      (applyRules bundle state).decision.targetDirection = none := by
  refine List.foldlRecOn rules _ (motive := fun current : ArbitrationState =>
    current.decision.direction = .flat ∧ current.decision.targetDirection = none) undirected ?_
  intro current kept rule listed
  obtain ⟨direction, target⟩ := evaluate_undirected listed bundle current
  exact ⟨direction.trans kept.1, target.trans kept.2⟩

/-- **An arbitration gives its decision no direction.** -/
theorem arbitrate_undirected (clock : Clock) (symbol : String) (timestamp : Option Timestamp)
    (signals : AnalysisSignals) :
    (arbitrate clock symbol timestamp signals).direction = .flat ∧
      (arbitrate clock symbol timestamp signals).targetDirection = none ∧
      (arbitrate clock symbol timestamp signals).riskAdjustment = macroFactor signals := by
  have fresh : (initialDecision clock (timestamp.getD clock.utcnow) symbol
        (derived signals).length).direction = .flat ∧
      (initialDecision clock (timestamp.getD clock.utcnow) symbol
        (derived signals).length).targetDirection = none := ⟨rfl, rfl⟩
  have undirected := applyRules_undirected (collect clock symbol timestamp signals)
    (show (ArbitrationState.mk ((derived signals).map scoreSignal) _).decision.direction = .flat ∧
      _ from fresh)
  have settled : ChainDecision signals (signalOutcome (derived signals)) _ :=
    settledState_decision clock (timestamp.getD clock.utcnow) symbol
      (collect clock symbol timestamp signals) (derived signals)
  rw [arbitrate_eq]
  unfold decisionOf evaluateAndDecide
  dsimp only
  obtain ⟨direction, target, risk⟩ := aggregate_keeps
    (settledState clock (timestamp.getD clock.utcnow) symbol
      (collect clock symbol timestamp signals) (derived signals)).scores
    (settledState clock (timestamp.getD clock.utcnow) symbol
      (collect clock symbol timestamp signals) (derived signals)).decision
  exact ⟨direction.trans undirected.1, target.trans undirected.2, risk.trans settled.riskAdjustment⟩

/-! ## One signal -/

/-- A long side that is alone has the whole score. -/
theorem normalizedScores_long {scores : List SignalScore} (loud : 0 < directionSum scores .long)
    (quiet : ∀ side, side ≠ .long → directionSum scores side = 0) :
    (normalizedScores scores).1 = 1 ∧ (normalizedScores scores).2.1 = 0 := by
  unfold normalizedScores
  simp [quiet .short (by decide), quiet .flat (by decide), max_eq_left loud.le, loud, loud.ne']

/-- A short side that is alone has the whole score. -/
theorem normalizedScores_short {scores : List SignalScore} (loud : directionSum scores .short < 0)
    (quiet : ∀ side, side ≠ .short → directionSum scores side = 0) :
    (normalizedScores scores).1 = 0 ∧ (normalizedScores scores).2.1 = 1 := by
  unfold normalizedScores
  simp [quiet .long (by decide), quiet .flat (by decide), loud.ne]

/-- A technical signal that is neither vetoed nor contested contributes to its side. -/
theorem contribution_technical {sig : TechnicalSignal} (side : sig.direction ≠ .flat)
    (confident : 0 < sig.confidence.val) :
    0 < ruleSign sig.direction *
      finalContribution { technical := some sig } .noConflict (technicalDirectional sig) := by
  have square : ruleSign sig.direction * ruleSign sig.direction = 1 := by
    unfold ruleSign
    split <;> norm_num
  have confidence : carriedConfidence { technical := some sig } (technicalDirectional sig) =
      sig.confidence.val := by
    change (if (1 : ℚ) = 1 then sig.confidence.val * 1 * 1 else _) = _
    rw [if_pos rfl, mul_one, mul_one]
  have weight : carriedWeight (technicalDirectional sig) = 1 := if_pos rfl
  have standing : standingContribution { technical := some sig } (technicalDirectional sig) =
      ruleSign sig.direction * sig.confidence.val := by
    change directionSign sig.direction * sig.confidence.val * 1 * 1 = _
    rw [ruleSign_eq_directionSign side, mul_one, mul_one]
  unfold finalContribution
  rw [contribution_chainScore, confidence, weight, standing]
  split
  · change 0 < ruleSign sig.direction * (ruleSign sig.direction *
      (sig.confidence.val * signalMultiplier sig.direction _) * 1)
    rw [mul_one, ← mul_assoc, square, one_mul]
    exact mul_pos confident (signalMultiplier_pos _ _)
  · change 0 < ruleSign sig.direction * (if false = true then 0 else _)
    rw [if_neg Bool.false_ne_true, ← mul_assoc, square, one_mul]
    exact confident

section OneSignal

variable (clock : Clock) (symbol : String) (timestamp : Option Timestamp) (sig : TechnicalSignal)

/-- Below the threshold nothing is derived from the signal. -/
theorem derived_noise (noise : sig.confidence.val < 3 / 10) :
    derived { technical := some sig } = [] := by
  refine List.filter_eq_nil_iff.mpr fun d member => ?_
  have only : d = technicalDirectional sig := List.mem_singleton.mp member
  rw [only, decide_eq_true_eq]
  exact not_le.mpr noise

theorem derived_technical (heard : ¬ sig.confidence.val < 3 / 10) :
    derived { technical := some sig } = [technicalDirectional sig] := by
  have passes : decide (lowConfidenceThreshold ≤ (technicalDirectional sig).confidence.val) :=
    decide_eq_true (not_lt.mp heard)
  change [technicalDirectional sig].filter _ = _
  rw [List.filter_singleton, passes]
  rfl

/-- One signal is in no conflict. -/
theorem signalOutcome_technical : signalOutcome [technicalDirectional sig] = .noConflict := by
  have only : ∀ side, HasSide [technicalDirectional sig] side → sig.direction = side := by
    rintro side ⟨d, member, rfl⟩
    rw [List.mem_singleton.mp member]
    rfl
  refine signalOutcome_noConflict (not_and_or.mp ?_)
  rintro ⟨long, short⟩
  have both := (only .long long).symm.trans (only .short short)
  cases both

/-- The sums of the sides are the contribution of the one signal, and zero. -/
theorem directionSum_technical (heard : ¬ sig.confidence.val < 3 / 10) (side : Direction) :
    directionSum (finalScores { technical := some sig } [technicalDirectional sig]) side =
      if side = sig.direction then
        finalContribution { technical := some sig } .noConflict (technicalDirectional sig)
      else 0 := by
  have sums := directionSum_chain { technical := some sig } (derived { technical := some sig }) side
  rw [derived_technical sig heard, signalOutcome_technical] at sums
  rw [sums]
  split
  · next own =>
      rw [own, directionTotal]
      simp [technicalDirectional]
  · next apart =>
      refine directionTotal_eq_zero fun d member same => ?_
      rw [List.mem_singleton.mp member] at same
      exact absurd same.symm apart

/-- The bias of a call whose only signal is technical. -/
theorem arbitrate_technical :
    (arbitrate clock symbol timestamp { technical := some sig }).bias =
      if sig.confidence.val < 3 / 10 then .noTrade
      else match sig.direction with
        | .long => .longBias
        | .short => .shortBias
        | .flat => .noTrade := by
  set signals : AnalysisSignals := { technical := some sig }
  have compared := (evaluateAndDecide_compared clock (timestamp.getD clock.utcnow) symbol
    (collect clock symbol timestamp signals) (derived signals) exactRounding rfl (.inl rfl)).1
  rw [← arbitrate_eq, longScore_eq, shortScore_eq] at compared
  rw [compared]
  by_cases noise : sig.confidence.val < 3 / 10
  · have sums := directionSum_chain signals (derived signals)
    rw [derived_noise sig noise] at sums
    rw [if_pos noise, derived_noise sig noise, normalizedScores_long_eq_zero (sums .long),
      normalizedScores_short_eq_zero (sums .short)]
    exact if_pos ⟨rfl, rfl⟩
  rw [if_neg noise, derived_technical sig noise]
  have sums := directionSum_technical sig noise
  have own := (sums sig.direction).trans (if_pos rfl)
  have other := fun side apart => (sums side).trans (if_neg apart)
  have confident : 0 < sig.confidence.val := lt_of_lt_of_le (by norm_num) (not_lt.mp noise)
  cases side : sig.direction with
  | long =>
      have loud := contribution_technical (by rw [side]; decide) confident
      rw [← own, side, ruleSign, if_pos rfl, one_mul] at loud
      rw [side] at other
      obtain ⟨long, short⟩ := normalizedScores_long loud other
      rw [long, short]
      exact (comparedBias_long_iff 1 0).mpr (by norm_num)
  | short =>
      have loud := contribution_technical (by rw [side]; decide) confident
      rw [← own, side, ruleSign, if_neg (by decide), neg_one_mul, neg_pos] at loud
      rw [side] at other
      obtain ⟨long, short⟩ := normalizedScores_short loud other
      rw [long, short]
      exact (comparedBias_short_iff 0 1).mpr (by norm_num)
  | flat =>
      rw [side] at other
      rw [normalizedScores_long_eq_zero (other .long (by decide)),
        normalizedScores_short_eq_zero (other .short (by decide))]
      exact if_pos ⟨rfl, rfl⟩

end OneSignal

/-! ## The phases -/

/-- A symbol of a length that arbitration accepts. -/
def Fits (symbol : String) : Prop := 1 ≤ symbol.length ∧ symbol.length ≤ 16

instance (symbol : String) : Decidable (Fits symbol) := inferInstanceAs (Decidable (_ ∧ _))

/-- What the signal of a request votes for. -/
def PipelineRunFullRequest.votedBias (req : PipelineRunFullRequest) : Bias :=
  if req.confidence.val < 3 / 10 then .noTrade
  else match req.direction with
    | .long => .longBias
    | .short => .shortBias
    | .flat => .noTrade

theorem votedBias_cases (req : PipelineRunFullRequest) :
    req.votedBias = .noTrade ∨ 3 / 10 ≤ req.confidence.val ∧
      (req.votedBias = .longBias ∨ req.votedBias = .shortBias) := by
  unfold PipelineRunFullRequest.votedBias
  split
  · exact .inl rfl
  · next loud =>
      cases req.direction with
      | long => exact .inr ⟨not_lt.mp loud, .inl rfl⟩
      | short => exact .inr ⟨not_lt.mp loud, .inr rfl⟩
      | flat => exact .inl rfl

section Phases

variable (env : PipelineEnv) (req : PipelineRunFullRequest) (ts : Timestamp)

theorem runPhase6_of_fits (fits : Fits req.symbol) :
    ∃ decision, runPhase6 env req ts = .ok decision ∧ decision.bias = req.votedBias ∧
      decision.direction = .flat ∧ decision.targetDirection = none ∧
      decision.riskAdjustment = 1 := by
  have built : ArbitrationRunRequest.build req.symbol req.direction req.confidence req.strength
      req.regime (some ts) = .ok ⟨req.symbol, req.direction, req.confidence, req.strength,
        req.regime, some ts, fits⟩ := dif_pos fits
  unfold runPhase6
  rw [built]
  refine ⟨_, rfl, ?_, arbitrate_undirected _ _ _ _⟩
  refine (arbitrate_technical _ _ _ _).trans ?_
  unfold PipelineRunFullRequest.votedBias
  cases req.direction <;> rfl

theorem runPhase6_of_not_fits (long : ¬ Fits req.symbol) :
    runPhase6 env req ts = .error (.validation "ArbitrationRunRequest.symbol") := by
  have refused : ArbitrationRunRequest.build req.symbol req.direction req.confidence req.strength
      req.regime (some ts) = .error (.validation "ArbitrationRunRequest.symbol") := dif_neg long
  unfold runPhase6
  rw [refused]
  rfl

/-- The check of a bias passes a side. -/
theorem requestBias_of_side (path direction : String) {bias : Bias}
    (side : bias = .longBias ∨ bias = .shortBias) :
    ∃ listed, requestBias path (biasToRiskFormat direction bias.text) = .ok listed ∧
      listed.val = bias := by
  have format : biasToRiskFormat direction bias.text = bias.text := by
    rcases side with rfl | rfl
    · exact if_pos (by decide)
    · exact if_pos (by decide)
  have found : ∃ listed, requestBiases.find? (fun entry => entry.val.text = bias.text) =
      some listed ∧ listed.val = bias := by
    rcases side with rfl | rfl
    · exact ⟨⟨.longBias, by decide⟩, by decide, rfl⟩
    · exact ⟨⟨.shortBias, by decide⟩, by decide, rfl⟩
  obtain ⟨listed, some, same⟩ := found
  unfold requestBias
  rw [format, some]
  exact ⟨listed, rfl, same⟩

/-- **Phase 7 refuses the direction of every decision.** -/
theorem runPhase7_refuses {decision : ArbitrationDecision}
    (side : decision.bias = .longBias ∨ decision.bias = .shortBias)
    (undirected : decision.direction = .flat) :
    runPhase7 env req decision ts = .error (.validation "RiskCalculateRequest.direction") := by
  obtain ⟨listed, passes, -⟩ :=
    requestBias_of_side "RiskCalculateRequest.bias" req.direction.text side
  have refused : optionalDirection "RiskCalculateRequest.direction"
      (some decision.direction.value) =
        .error (.validation "RiskCalculateRequest.direction") := by
    rw [undirected]
    rfl
  have confident : (check "RiskCalculateRequest.confidence" req.confidence.val :
      Except RunError UnitRational) = .ok req.confidence := check_of req.confidence.property
  unfold runPhase7 RiskCalculateRequest.build phase7Args
  dsimp only
  rw [passes, confident, refused]
  rfl

/-- An order that opens a position without an entry price is not refused. -/
theorem trades_of_side {built : RiskCalculateRequest}
    (side : built.bias.val = .longBias ∨ built.bias.val = .shortBias)
    (fresh : built.avgEntryPrice.val = 0) : ¬ built.Closing ∧ ¬ built.Refused := by
  have opens : ¬ built.Closing := by
    unfold RiskCalculateRequest.Closing
    rcases side with long | short
    · rw [long]
      decide
    · rw [short]
      decide
  refine ⟨opens, ?_⟩
  rintro ((idle | ⟨closing, -⟩) | ⟨entered, -⟩)
  · rcases side with long | short
    · rw [long] at idle
      exact absurd idle (by decide)
    · rw [short] at idle
      exact absurd idle (by decide)
  · exact opens closing
  · exact absurd fresh entered.ne'

/-- With any word that is accepted, the phase plans fifty units for full confidence. -/
theorem runPhase7_repaired (rooted : ∀ q, 0 ≤ q → 0 ≤ env.risk.planning.sqrt q)
    {decision : ArbitrationDecision}
    (side : decision.bias = .longBias ∨ decision.bias = .shortBias)
    (untargeted : decision.targetDirection = none) (full : decision.riskAdjustment = 1)
    (loud : 0 < req.confidence.val) (word : RequestDirection) :
    ∃ built plan, RiskCalculateRequest.build
        { phase7Args req decision ts with direction := some word.text } = .ok built ∧
      callRiskEngine env.risk env.utcnow built = .ok plan ∧ plan.vetoTriggered = false ∧
      plan.finalQuantity.val = 50 * req.confidence.val := by
  obtain ⟨listed, passes, same⟩ :=
    requestBias_of_side "RiskCalculateRequest.bias" req.direction.text side
  have confident : (check "RiskCalculateRequest.confidence" req.confidence.val :
      Except RunError UnitRational) = .ok req.confidence := check_of req.confidence.property
  have named : optionalDirection "RiskCalculateRequest.direction" (some word.text) =
      .ok (some word) := by
    cases word <;> rfl
  have value : (check "RiskCalculateRequest.portfolio_value" 100000 :
      Except RunError PositiveRational) = .ok ⟨100000, by norm_num⟩ := check_of (by norm_num)
  have price : (check "RiskCalculateRequest.current_price" 100 :
      Except RunError PositiveRational) = .ok ⟨100, by norm_num⟩ := check_of (by norm_num)
  have whole : (check "RiskCalculateRequest.risk_adjustment" decision.riskAdjustment :
      Except RunError UnitRational) = .ok ⟨1, zero_le_one, le_rfl⟩ := by
    rw [full]
    exact check_of ⟨zero_le_one, le_rfl⟩
  let built : RiskCalculateRequest :=
    { decisionId := decision.decisionId
      symbol := req.symbol
      bias := listed
      confidence := req.confidence
      direction := some word
      noTradeReason := decision.noTradeReason
      portfolioValue := ⟨100000, by norm_num⟩
      currentPrice := ⟨100, by norm_num⟩
      regime := req.regime
      timestamp := some ts }
  have accepted : RiskCalculateRequest.build
      { phase7Args req decision ts with direction := some word.text } = .ok built := by
    unfold RiskCalculateRequest.build phase7Args
    dsimp only
    rw [passes, confident, named, untargeted, whole, value, price]
    rfl
  obtain ⟨plan, planned, vetoed, size, -⟩ := callRiskEngine_spec env.utcnow built rooted
  obtain ⟨opens, trades⟩ := trades_of_side (same ▸ side : built.bias.val = _ ∨ _) rfl
  refine ⟨built, plan, accepted, planned, Bool.eq_false_of_not_eq_true (vetoed.not.mpr trades), ?_⟩
  have cent : built.price = 100 := max_eq_left (by norm_num [minPrice])
  have share : built.share = 5 / 100 * req.confidence.val := if_pos loud
  have wanted : built.wantedSize = 50 * req.confidence.val := by
    unfold RiskCalculateRequest.wantedSize
    rw [if_neg fun closing => opens closing.1, share, cent]
    ring
  rw [size, if_neg trades, RiskCalculateRequest.tradeSize, wanted, cent]
  refine min_eq_left ?_
  calc 50 * req.confidence.val ≤ 50 := by linarith [req.confidence.property.2]
    _ ≤ 100000 * (1 / 10) / 100 := by norm_num

end Phases

/-! ## The run -/

section Run

variable (env : PipelineEnv) (req : PipelineRunFullRequest)

theorem idle_iff {decision : ArbitrationDecision} (voted : decision.bias = req.votedBias) :
    idle decision = true ↔ req.votedBias = .noTrade := by
  unfold idle
  rw [voted]
  rcases votedBias_cases req with quiet | ⟨-, long | short⟩
  · rw [quiet]
    decide
  · rw [long]
    decide
  · rw [short]
    decide

/-- The failure of a run. -/
def failureOf : Option PhaseFailure :=
  if ¬ Fits req.symbol then some ⟨6, .validation "ArbitrationRunRequest.symbol"⟩
  else if req.votedBias = .noTrade then none
  else some ⟨7, .validation "RiskCalculateRequest.direction"⟩

/-- What the phases of a run leave. -/
structure Settled (state : PipelineState) : Prop where
  plan : state.plan = none
  decision : state.decision.map ArbitrationDecision.bias =
    if Fits req.symbol then some req.votedBias else none
  phases : state.phases.map (fun result => (result.phase, result.ok)) =
    [("analysis", true), ("arbitration", decide (Fits req.symbol)),
      ("risk", decide (Fits req.symbol → req.votedBias = .noTrade))]
  error : state.error = failureOf req

/-- The report of phase 5. -/
def analysisResult : PipelinePhaseResult where
  phase := "analysis"
  detail := some (runPhase5 env req)

/-- The report of a phase 6 that decides. -/
def arbitrationResult (decision : ArbitrationDecision) : PipelinePhaseResult where
  phase := "arbitration"
  detail := some (.arbitration decision.decisionId decision.bias decision.confidence)

variable (ts : Timestamp)

theorem arbitrationPhase_of_ok {decision : ArbitrationDecision}
    (decided : runPhase6 env req ts = .ok decision) :
    arbitrationPhase env req ts (analysisPhase env req {}) =
      { phases := [analysisResult env req, arbitrationResult decision]
        decision := some decision } := by
  unfold arbitrationPhase
  rw [decided]
  rfl

theorem settled_run :
    Settled req
      (riskPhase env req ts (arbitrationPhase env req ts (analysisPhase env req {}))) := by
  by_cases fits : Fits req.symbol
  · obtain ⟨decision, decided, voted, undirected, -⟩ := runPhase6_of_fits env req ts fits
    rw [arbitrationPhase_of_ok env req ts decided]
    unfold riskPhase
    dsimp only
    by_cases quiet : req.votedBias = .noTrade
    · have idles : idle decision = true := (idle_iff req voted).mpr quiet
      rw [Option.filter_some, idles]
      constructor
      · rfl
      · rw [if_pos fits]
        exact congrArg some voted
      · rw [decide_eq_true fits, decide_eq_true fun _ => quiet]
        rfl
      · rw [failureOf, if_neg (not_not.mpr fits), if_pos quiet]
        rfl
    · have loud : idle decision = false :=
        Bool.eq_false_of_not_eq_true ((idle_iff req voted).not.mpr quiet)
      have side : decision.bias = .longBias ∨ decision.bias = .shortBias := by
        rw [voted]
        exact ((votedBias_cases req).resolve_left quiet).2
      rw [Option.filter_some, loud, if_pos (Bool.not_false)]
      dsimp only
      rw [runPhase7_refuses env req ts side undirected]
      constructor
      · rfl
      · rw [if_pos fits]
        exact congrArg some voted
      · rw [decide_eq_true fits, decide_eq_false fun trades => quiet (trades fits)]
        rfl
      · rw [failureOf, if_neg (not_not.mpr fits), if_neg quiet]
  · have refused := runPhase6_of_not_fits env req ts fits
    have arbitrated : (arbitrationPhase env req ts (analysisPhase env req {})) =
        { phases := [analysisResult env req, {
            phase := "arbitration"
            ok := false
            error := some (.validation "ArbitrationRunRequest.symbol") }]
          error := some ⟨6, .validation "ArbitrationRunRequest.symbol"⟩ } := by
      unfold arbitrationPhase
      rw [refused]
      rfl
    rw [arbitrated]
    constructor
    · rfl
    · rw [if_neg fits]
      rfl
    · rw [decide_eq_false fits, decide_eq_true fun some => absurd some fits]
      rfl
    · rw [failureOf, if_pos fits]
      rfl

/-- **A run of the full pipeline never has a plan.** Its decision is the side of the request where
the signal is heard, and no trade elsewhere. The run is done exactly if the symbol fits and there
is nothing to trade. Otherwise the last failure is the length of the symbol in phase 6, or the
direction of the decision in phase 7, although with any word of the three that phase would plan
fifty units for full confidence. -/
theorem runFullPipeline_spec (rooted : ∀ q, 0 ≤ q → 0 ≤ env.risk.planning.sqrt q) :
    (runFullPipeline env req).plan.isNone ∧
      (runFullPipeline env req).decision.map PipelineDecisionView.bias =
        (if Fits req.symbol then some req.votedBias else none) ∧
      (runFullPipeline env req).phases.map (fun result => (result.phase, result.ok)) =
        [("analysis", true), ("arbitration", decide (Fits req.symbol)),
          ("risk", decide (Fits req.symbol → req.votedBias = .noTrade))] ∧
      (runFullPipeline env req).error = failureOf req ∧
      ((runFullPipeline env req).ok = true ↔ Fits req.symbol ∧ req.votedBias = .noTrade) ∧
      ∀ ts decision, runPhase6 env req ts = .ok decision → req.votedBias ≠ .noTrade →
        ∀ word : RequestDirection, ∃ built plan, RiskCalculateRequest.build
            { phase7Args req decision ts with direction := some word.text } = .ok built ∧
          callRiskEngine env.risk env.utcnow built = .ok plan ∧ plan.vetoTriggered = false ∧
          plan.finalQuantity.val = 50 * req.confidence.val := by
  have settled := settled_run env req (req.timestamp.getD env.utcnow)
  refine ⟨?_, ?_, settled.phases, settled.error, ?_, ?_⟩
  · change (Option.map planView _).isNone = true
    rw [settled.plan]
    rfl
  · refine Eq.trans ?_ settled.decision
    exact Option.map_map ..
  · change decide ((if _ = none then PipelineStatus.done else .incomplete) = .done) = true ↔ _
    rw [settled.error, decide_eq_true_iff]
    unfold failureOf
    by_cases fits : Fits req.symbol
    · by_cases quiet : req.votedBias = .noTrade
      · simp [fits, quiet]
      · simp [fits, quiet]
    · simp [fits]
  · intro ts decision decided trades word
    have fits : Fits req.symbol := by
      by_contra long
      rw [runPhase6_of_not_fits env req ts long] at decided
      cases decided
    obtain ⟨other, same, voted, -, untargeted, full⟩ := runPhase6_of_fits env req ts fits
    obtain rfl := Except.ok.inj (decided.symm.trans same)
    obtain ⟨loud, side⟩ := (votedBias_cases req).resolve_left trades
    exact runPhase7_repaired env req ts rooted (voted ▸ side) untargeted full
      (lt_of_lt_of_le (by norm_num) loud) word

end Run

/-- A confident long signal. -/
def samplePipelineRequest : PipelineRunFullRequest where
  symbol := "AAPL"
  direction := .long
  confidence := ⟨3 / 4, by norm_num⟩
  strength := ⟨1 / 2, by norm_num⟩

theorem runFullPipeline_sample :
    (runFullPipeline ⟨0, ⟨0, 0, 0⟩, sampleEnv⟩ samplePipelineRequest).error =
      some ⟨7, .validation "RiskCalculateRequest.direction"⟩ := by
  have spec := runFullPipeline_spec ⟨0, ⟨0, 0, 0⟩, sampleEnv⟩ samplePipelineRequest
    fun q _ => sampleSqrt_nonneg q
  have long : samplePipelineRequest.votedBias = .longBias :=
    if_neg (by norm_num [samplePipelineRequest])
  have fits : Fits samplePipelineRequest.symbol := by decide
  rw [spec.2.2.2.1, failureOf, if_neg (not_not.mpr fits), long]
  rfl

end TradeOS.Api
