import TradeOS.Arbitration.RuleChain

/-!
# The decision of a list of signals

The aggregation reads the contributions that the rule chain leaves. For every
list of directional signals, the decision of `evaluateAndDecide` is described by

* its rationale, one entry per signal (`evaluateAndDecide_rationale`);
* its three scores, the normalized totals of the contributions of each direction
  (`evaluateAndDecide_scores`, `directionSum_chain`);
* its bias and confidence, in three cases: a veto, a risk-off call demoted by the
  conflict rule, and the comparison of the two scores (`evaluateAndDecide_veto`,
  `evaluateAndDecide_demoted`, `evaluateAndDecide_compared`).
-/

set_option autoImplicit false

namespace TradeOS.Arbitration

open Numeric EnsembleScorer

/-- How the conflict rule resolves the signals of a call. -/
def signalOutcome (ds : List DirectionalSignal) (fl : Rounding := exactRounding) :
    ConflictOutcome :=
  conflictOutcome (ds.map scoreSignal) fl

/-- The contribution of a signal to the decision. -/
def finalContribution (signals : AnalysisSignals) (outcome : ConflictOutcome)
    (d : DirectionalSignal) : ℚ :=
  (chainScore signals outcome (scoreSignal d)).contribution

/-- The scores of a call when all rules have run. -/
def finalScores (signals : AnalysisSignals) (ds : List DirectionalSignal)
    (fl : Rounding := exactRounding) : List SignalScore :=
  ds.map fun d => chainScore signals (signalOutcome ds fl) (scoreSignal d)

theorem keepsIdentity_regimeScore : KeepsIdentity regimeScore := by
  constructor <;> intro s <;> simp only [regimeScore] <;> split <;> try rfl
  all_goals split <;> try rfl
  all_goals split <;> rfl

theorem keepsIdentity_chainScore (signals : AnalysisSignals) (outcome : ConflictOutcome) :
    KeepsIdentity (chainScore signals outcome) :=
  keepsIdentity_regimeScore.comp
    ((keepsIdentity_weightedScore defaultWeights).comp
      ((keepsIdentity_conflictScore outcome).comp
        ((keepsIdentity_macroStage signals).comp (keepsIdentity_vetoStage signals))))

/-! ## Totals of one direction -/

/-- Dropping the zero contributions does not change a total. -/
theorem directionSum_eq (scores : List SignalScore) (direction : Direction) :
    directionSum scores direction =
      ((ofDirection scores direction).map SignalScore.contribution).sum := by
  induction scores with
  | nil => rfl
  | cons s scores ih =>
      simp only [directionSum, ofDirection] at ih ⊢
      by_cases zero : s.contribution = 0 <;> by_cases side : s.direction = direction <;>
        simp_all

/-- The total of the contributions of one direction. -/
def directionTotal (signals : AnalysisSignals) (outcome : ConflictOutcome)
    (ds : List DirectionalSignal) (direction : Direction) : ℚ :=
  ((ds.filter fun d => d.direction = direction).map (finalContribution signals outcome)).sum

/-- The totals are sums of final contributions. -/
theorem directionSum_chain (signals : AnalysisSignals) (ds : List DirectionalSignal)
    (direction : Direction) :
    directionSum (finalScores signals ds) direction =
      directionTotal signals (signalOutcome ds) ds direction := by
  have split : finalScores signals ds =
      (ds.map scoreSignal).map (chainScore signals (signalOutcome ds)) := by
    simp only [finalScores, List.map_map, Function.comp_def]
  rw [directionSum_eq, split, ofDirection_map (keepsIdentity_chainScore signals _)]
  simp only [ofDirection, directionTotal, List.filter_map, List.map_map]
  rfl

/-! ## Which side is heard -/

theorem maxConfidence_spec {scores : List SignalScore} (nonempty : scores ≠ []) :
    (∃ s ∈ scores, s.rawConfidence = maxConfidence scores) ∧
      ∀ s ∈ scores, s.rawConfidence ≤ maxConfidence scores := by
  have some : (scores.map SignalScore.rawConfidence).max? ≠ none :=
    mt List.max?_eq_none_iff.mp (mt List.map_eq_nil_iff.mp nonempty)
  obtain ⟨top, found⟩ := Option.ne_none_iff_exists'.mp some
  have largest := List.max?_eq_some_iff.mp found
  have value : maxConfidence scores = top := by simp [maxConfidence, found]
  rw [value]
  constructor
  · simpa using largest.1
  · intro s member
    exact largest.2 _ (List.mem_map_of_mem member)

/-- The largest confidence among the signals of one side. -/
def sideConfidence (ds : List DirectionalSignal) (side : Direction) : ℚ :=
  maxConfidence (ofDirection (ds.map scoreSignal) side)

/-- How far the largest long and short confidences lie apart. -/
def confidenceGap (ds : List DirectionalSignal) (fl : Rounding := exactRounding) : ℚ :=
  |fl (sideConfidence ds .long - sideConfidence ds .short)|

/-- Some signal of a list has a direction. -/
def HasSide (ds : List DirectionalSignal) (side : Direction) : Prop :=
  ∃ d ∈ ds, d.direction = side

instance (ds : List DirectionalSignal) (side : Direction) : Decidable (HasSide ds side) :=
  inferInstanceAs (Decidable (∃ d ∈ ds, d.direction = side))

theorem ofDirection_ne_nil_iff (ds : List DirectionalSignal) (side : Direction) :
    ofDirection (ds.map scoreSignal) side ≠ [] ↔ HasSide ds side := by
  simp [ofDirection, HasSide, scoreSignal]

theorem sideConfidence_spec {ds : List DirectionalSignal} {side : Direction}
    (present : HasSide ds side) :
    (∃ d ∈ ds, d.direction = side ∧ d.confidence.val = sideConfidence ds side) ∧
      ∀ d ∈ ds, d.direction = side → d.confidence.val ≤ sideConfidence ds side := by
  obtain ⟨⟨s, member, attained⟩, largest⟩ :=
    maxConfidence_spec ((ofDirection_ne_nil_iff ds side).mpr present)
  constructor
  · obtain ⟨listed, direction⟩ := List.mem_filter.mp member
    obtain ⟨d, kept, rfl⟩ := List.mem_map.mp listed
    exact ⟨d, kept, of_decide_eq_true direction, attained⟩
  · intro d kept direction
    exact largest (scoreSignal d) (List.mem_filter.mpr
      ⟨List.mem_map_of_mem kept, decide_eq_true direction⟩)

/-- The conflict rule on a list of signals, by presence and largest confidence of
the two sides. -/
theorem signalOutcome_noConflict {fl : Rounding} {ds : List DirectionalSignal}
    (absent : ¬ HasSide ds .long ∨ ¬ HasSide ds .short) :
    signalOutcome ds fl = .noConflict := by
  have empty : ofDirection (ds.map scoreSignal) .long = [] ∨
      ofDirection (ds.map scoreSignal) .short = [] := by
    rcases absent with long | short
    · exact .inl (not_not.mp (mt (ofDirection_ne_nil_iff ds .long).mp long))
    · exact .inr (not_not.mp (mt (ofDirection_ne_nil_iff ds .short).mp short))
  rw [signalOutcome, conflictOutcome, if_pos empty]

theorem signalOutcome_conflict {fl : Rounding} {ds : List DirectionalSignal}
    (long : HasSide ds .long) (short : HasSide ds .short) :
    signalOutcome ds fl =
      if confidenceGap ds fl < fl (1 / 10) then .hold
      else .winner (if sideConfidence ds .short < sideConfidence ds .long then .long
        else .short) := by
  have both : ¬(ofDirection (ds.map scoreSignal) .long = [] ∨
      ofDirection (ds.map scoreSignal) .short = []) :=
    not_or.mpr ⟨(ofDirection_ne_nil_iff ds .long).mpr long,
      (ofDirection_ne_nil_iff ds .short).mpr short⟩
  rw [signalOutcome, conflictOutcome, if_neg both]
  rfl

/-- A side of a conflict is heard when it leads by the threshold. -/
theorem silenced_eq_false_iff {ds : List DirectionalSignal} (long : HasSide ds .long)
    (short : HasSide ds .short) {side : Direction} (sided : side ≠ .flat) :
    silenced (signalOutcome ds) side = false ↔
      sideConfidence ds (opposite side) + 1 / 10 ≤ sideConfidence ds side := by
  rw [signalOutcome_conflict long short]
  by_cases close : confidenceGap ds < 1 / 10
  · rw [if_pos close]
    rw [confidenceGap, abs_lt] at close
    cases side with
    | flat => exact absurd rfl sided
    | long =>
        simp only [silenced, opposite, Bool.true_eq_false, false_iff, not_le]
        linarith [close.2]
    | short =>
        simp only [silenced, opposite, Bool.true_eq_false, false_iff, not_le]
        linarith [close.1]
  · rw [if_neg close]
    rw [not_lt, confidenceGap, le_abs] at close
    by_cases leads : sideConfidence ds .short < sideConfidence ds .long
    · rw [if_pos leads]
      cases side with
      | flat => exact absurd rfl sided
      | long =>
          refine iff_of_true rfl ?_
          rcases close with wide | wide <;> simp only [opposite] <;> linarith
      | short =>
          refine iff_of_false (by decide) ?_
          simp only [opposite, not_le]
          linarith
    · rw [if_neg leads]
      rw [not_lt] at leads
      cases side with
      | flat => exact absurd rfl sided
      | long =>
          refine iff_of_false (by decide) ?_
          simp only [opposite, not_le]
          linarith
      | short =>
          refine iff_of_true rfl ?_
          rcases close with wide | wide <;> simp only [opposite] <;> linarith

/-! ## The decision -/

/-- The bias that a comparison of the two scores gives. -/
def comparedBias (ls ss : ℚ) : Bias :=
  if ls = 0 ∧ ss = 0 then .noTrade
  else if |ls - ss| < biasGap then .holdBias
  else if ss < ls then .longBias
  else .shortBias

section Decision

variable (clock : Clock) (ts : Timestamp) (symbol : String) (bundle : SignalBundle)
  (ds : List DirectionalSignal) {fl : Rounding}

/-- The decision of `evaluateAndDecide` on freshly scored signals. -/
abbrev decisionOf (fl : Rounding := exactRounding) : ArbitrationDecision :=
  evaluateAndDecide clock ts symbol bundle ds (ds.map scoreSignal) fl

/-- The scores and the decision when all rules have run. -/
abbrev settledState (fl : Rounding := exactRounding) : ArbitrationState :=
  applyRules bundle ⟨ds.map scoreSignal, initialDecision clock ts symbol ds.length⟩ fl

theorem settledState_scores :
    (settledState clock ts symbol bundle ds fl).scores =
      finalScores bundle.toAnalysisSignals ds fl := by
  rw [applyRules_scores]
  simp only [finalScores, signalOutcome, List.map_map, Function.comp_def]

theorem settledState_decision :
    ChainDecision bundle.toAnalysisSignals (signalOutcome ds fl)
      (settledState clock ts symbol bundle ds fl).decision :=
  applyRules_decision bundle (ds.map scoreSignal) clock ts symbol ds.length

/-- The rationale lists the final scores in the order of the signals. -/
theorem evaluateAndDecide_rationale :
    (decisionOf clock ts symbol bundle ds fl).rationale =
      (finalScores bundle.toAnalysisSignals ds fl).map rationaleOf :=
  congrArg (List.map rationaleOf) (settledState_scores clock ts symbol bundle ds)

/-- The scores of the decision are the normalized totals, whatever the bias. -/
theorem evaluateAndDecide_scores :
    ((decisionOf clock ts symbol bundle ds fl).longScore,
        (decisionOf clock ts symbol bundle ds fl).shortScore,
        (decisionOf clock ts symbol bundle ds fl).neutralityScore) =
      normalizedScores (finalScores bundle.toAnalysisSignals ds fl) := by
  rw [← settledState_scores clock ts symbol bundle ds]
  simp only [decisionOf, evaluateAndDecide, aggregate]
  split
  · rfl
  · split
    · rfl
    · split <;> rfl

variable (fl)

theorem evaluateAndDecide_veto (veto : vetoes bundle.toAnalysisSignals = true) :
    (decisionOf clock ts symbol bundle ds fl).bias = .noTrade ∧
      (decisionOf clock ts symbol bundle ds fl).confidence = 0 := by
  have after : ChainDecision _ (signalOutcome ds fl) _ :=
    settledState_decision clock ts symbol bundle ds
  simp [decisionOf, evaluateAndDecide, aggregate, after.veto, veto, after.confidence]

theorem evaluateAndDecide_demoted (noVeto : vetoes bundle.toAnalysisSignals = false)
    (off : riskOff bundle.toAnalysisSignals = true) (demoted : signalOutcome ds fl = .hold) :
    (decisionOf clock ts symbol bundle ds fl).bias = .reduceRisk ∧
      (decisionOf clock ts symbol bundle ds fl).confidence = 0 := by
  have after : ChainDecision _ (signalOutcome ds fl) _ :=
    settledState_decision clock ts symbol bundle ds
  have reduced : (settledState clock ts symbol bundle ds fl).decision.riskAdjustment < 7 / 10 := by
    rw [after.riskAdjustment, macroFactor, off]
    norm_num
  have biased : (settledState clock ts symbol bundle ds fl).decision.bias ≠ .noTrade := by
    rw [after.bias, if_pos demoted]
    simp
  simp only [decisionOf, evaluateAndDecide, aggregate, after.veto, noVeto]
  rw [if_neg (by simp), if_pos ⟨reduced, biased⟩]
  exact ⟨rfl, after.confidence⟩

/-- Without a veto, and unless the conflict rule demoted a risk-off call, the two
scores are compared. -/
theorem evaluateAndDecide_compared (noVeto : vetoes bundle.toAnalysisSignals = false)
    (compared : riskOff bundle.toAnalysisSignals = false ∨ signalOutcome ds fl ≠ .hold) :
    let decision := decisionOf clock ts symbol bundle ds fl
    decision.bias = comparedBias decision.longScore decision.shortScore ∧
      decision.confidence =
        if decision.longScore = 0 ∧ decision.shortScore = 0 then 0
        else max (max decision.longScore decision.shortScore) decision.neutralityScore *
          macroFactor bundle.toAnalysisSignals := by
  have after : ChainDecision _ (signalOutcome ds fl) _ :=
    settledState_decision clock ts symbol bundle ds
  have passes : ¬((settledState clock ts symbol bundle ds fl).decision.riskAdjustment < 7 / 10 ∧
      (settledState clock ts symbol bundle ds fl).decision.bias ≠ .noTrade) := by
    rintro ⟨reduced, biased⟩
    rcases compared with on | settled
    · rw [after.riskAdjustment, macroFactor, on] at reduced
      norm_num at reduced
    · rw [after.bias, if_neg settled] at biased
      exact biased rfl
  simp only [decisionOf, evaluateAndDecide, aggregate, after.veto, noVeto]
  rw [if_neg (by simp), if_neg passes]
  by_cases empty : (normalizedScores (settledState clock ts symbol bundle ds fl).scores).1 = 0 ∧
      (normalizedScores (settledState clock ts symbol bundle ds fl).scores).2.1 = 0
  · rw [if_pos empty]
    simp [comparedBias, empty, after.confidence]
  · rw [if_neg empty]
    simp only [comparedBias, if_neg empty, after.riskAdjustment]
    exact ⟨trivial, trivial⟩

end Decision

/-- The long side wins a comparison when it leads by the gap. -/
theorem comparedBias_long_iff (ls ss : ℚ) :
    comparedBias ls ss = .longBias ↔ 3 / 10 ≤ ls - ss := by
  unfold comparedBias
  constructor
  · intro wins
    split_ifs at wins with empty close leads
    rw [not_lt, biasGap, abs_of_pos (sub_pos.mpr leads)] at close
    exact close
  · intro wide
    have leads : ss < ls := by linarith
    have nonempty : ¬(ls = 0 ∧ ss = 0) := by
      rintro ⟨rfl, rfl⟩
      exact lt_irrefl _ leads
    have far : ¬|ls - ss| < biasGap := not_lt.mpr (wide.trans (le_abs_self _))
    rw [if_neg nonempty, if_neg far, if_pos leads]

theorem comparedBias_short_iff (ls ss : ℚ) :
    comparedBias ls ss = .shortBias ↔ 3 / 10 ≤ ss - ls := by
  unfold comparedBias
  constructor
  · intro wins
    split_ifs at wins with empty close leads
    rw [not_lt, biasGap, abs_sub_comm, abs_of_nonneg (sub_nonneg.mpr (not_lt.mp leads))] at close
    exact close
  · intro wide
    have behind : ¬ ss < ls := by linarith
    have nonempty : ¬(ls = 0 ∧ ss = 0) := by
      rintro ⟨rfl, rfl⟩
      norm_num at wide
    have far : ¬|ls - ss| < biasGap := by
      rw [abs_sub_comm]
      exact not_lt.mpr (wide.trans (le_abs_self _))
    rw [if_neg nonempty, if_neg far, if_neg behind]

theorem comparedBias_ne_reduceRisk (ls ss : ℚ) : comparedBias ls ss ≠ .reduceRisk := by
  unfold comparedBias
  split
  · simp
  · split
    · simp
    · split <;> simp

end TradeOS.Arbitration
