import TradeOS.Arbitration.Neutrality
import TradeOS.Arbitration.RuleEffects
import TradeOS.Arbitration.Portfolio

/-!
# Well-formed decisions

Both entry points of the engine decide on a list of signals of non-negative weight. Whatever the
rules did to the contributions, a contribution is its direction's sign times a size
(`exists_size`), and the three scores are shares of one (`normalizedScores_share`). Every decision
is therefore well formed (`decisions_wellFormed`).

A near-tie of the two sides is meant to end in `hold_bias` with nothing contributing. The
aggregation turns a decision without contributions into `no_trade`, so no call ends so
(`near_tie_never_held`).
-/

set_option autoImplicit false

namespace TradeOS.Arbitration

open Numeric EnsembleScorer

/-! ## Scores and contributions -/

/-- Three numbers are shares of one, or nothing is shared. -/
structure Shares (scores : ℚ × ℚ × ℚ) : Prop where
  long : 0 ≤ scores.1
  short : 0 ≤ scores.2.1
  neutrality : 0 ≤ scores.2.2
  total : scores.1 + scores.2.1 + scores.2.2 = 1 ∨
    scores.1 = 0 ∧ scores.2.1 = 0 ∧ scores.2.2 = 0

/-- The largest share lies in the unit interval. -/
theorem Shares.largest {scores : ℚ × ℚ × ℚ} (shares : Shares scores) :
    0 ≤ max (max scores.1 scores.2.1) scores.2.2 ∧
      max (max scores.1 scores.2.1) scores.2.2 ≤ 1 := by
  have nonneg := shares.long
  have nonneg' := shares.short
  have nonneg'' := shares.neutrality
  refine ⟨le_max_of_le_right nonneg'', ?_⟩
  rcases shares.total with total | ⟨long, short, neutrality⟩
  · refine max_le (max_le ?_ ?_) ?_ <;> linarith
  · rw [long, short, neutrality]
    norm_num

theorem normalizedScores_share (scores : List SignalScore) : Shares (normalizedScores scores) := by
  simp only [normalizedScores]
  set long := max (directionSum scores .long) 0
  set short := max |directionSum scores .short| 0
  set neutrality := min |directionSum scores .flat| 1
  have nonneg : 0 ≤ long := le_max_right _ _
  have nonneg' : 0 ≤ short := le_max_right _ _
  have nonneg'' : 0 ≤ neutrality := le_min (abs_nonneg _) zero_le_one
  split_ifs with positive
  · refine ⟨div_nonneg nonneg positive.le, div_nonneg nonneg' positive.le,
      div_nonneg nonneg'' positive.le, .inl ?_⟩
    show long / _ + short / _ + neutrality / _ = 1
    rw [← add_div, ← add_div, div_self positive.ne']
  · rw [not_lt] at positive
    refine ⟨nonneg, nonneg', nonneg'', .inr ⟨?_, ?_, ?_⟩⟩ <;> dsimp only <;> linarith

/-- **A contribution is the sign of its direction times a size**, after all five rules. -/
theorem exists_size (signals : AnalysisSignals) (outcome : ConflictOutcome)
    {d : DirectionalSignal} (weight : 0 ≤ d.weight) (sided : d.direction ≠ .flat) :
    ∃ size, 0 ≤ size ∧ finalContribution signals outcome d = directionSign d.direction * size := by
  have confidence := d.confidence.property.1
  have veto := vetoFactor_nonneg signals
  rw [finalContribution, contribution_chainScore, ruleSign_eq_directionSign sided]
  split_ifs
  · refine ⟨carriedConfidence signals d * signalMultiplier d.direction d.regime *
      carriedWeight d, ?_, by ring⟩
    exact mul_nonneg (mul_nonneg (carriedConfidence_nonneg signals d)
      (signalMultiplier_pos _ _).le) (carriedWeight_nonneg weight)
  · exact ⟨0, le_rfl, (mul_zero _).symm⟩
  · rw [standingContribution, DirectionalSignal.score, ruleSign_eq_directionSign sided]
    split_ifs
    · refine ⟨d.confidence.val * vetoFactor signals * (1 / 2) * d.weight, ?_, by ring⟩
      exact mul_nonneg (mul_nonneg (mul_nonneg confidence veto) (by norm_num)) weight
    · refine ⟨d.confidence.val * d.weight * vetoFactor signals, ?_, by ring⟩
      exact mul_nonneg (mul_nonneg confidence weight) veto

/-! ## Well-formed decisions -/

/-- The biases that the rules and the aggregation write. -/
def producedBiases : List Bias := [.noTrade, .longBias, .shortBias, .holdBias, .reduceRisk]

/-- A decision that its readers can rely on. -/
structure WellFormed (decision : ArbitrationDecision) : Prop where
  scores : Shares (decision.longScore, decision.shortScore, decision.neutralityScore)
  confidence : 0 ≤ decision.confidence ∧ decision.confidence ≤ 1
  bias : decision.bias ∈ producedBiases
  longLead : decision.bias = .longBias → decision.shortScore + 3 / 10 ≤ decision.longScore
  shortLead : decision.bias = .shortBias → decision.longScore + 3 / 10 ≤ decision.shortScore
  longContributions : ∀ entry ∈ decision.rationale, entry.direction = .long →
    0 ≤ entry.contribution
  shortContributions : ∀ entry ∈ decision.rationale, entry.direction = .short →
    entry.contribution ≤ 0

theorem comparedBias_mem (ls ss : ℚ) : comparedBias ls ss ∈ producedBiases := by
  unfold comparedBias producedBiases
  split_ifs <;> simp

section Decision

variable (clock : Clock) (ts : Timestamp) (symbol : String) (bundle : SignalBundle)
  (ds : List DirectionalSignal)

theorem decisionOf_shares :
    Shares ((decisionOf clock ts symbol bundle ds).longScore,
      (decisionOf clock ts symbol bundle ds).shortScore,
      (decisionOf clock ts symbol bundle ds).neutralityScore) := by
  rw [evaluateAndDecide_scores]
  exact normalizedScores_share _

/-- The three ways in which the bias and the confidence of a decision come about. -/
theorem decisionOf_cases :
    let decision := decisionOf clock ts symbol bundle ds
    (decision.bias = .noTrade ∨ decision.bias = .reduceRisk) ∧ decision.confidence = 0 ∨
      decision.bias = comparedBias decision.longScore decision.shortScore ∧
        0 ≤ decision.confidence ∧ decision.confidence ≤ 1 := by
  intro decision
  cases veto : vetoes bundle.toAnalysisSignals with
  | true =>
      obtain ⟨bias, confidence⟩ := evaluateAndDecide_veto clock ts symbol bundle ds
        exactRounding veto
      exact .inl ⟨.inl bias, confidence⟩
  | false =>
      by_cases demoted : riskOff bundle.toAnalysisSignals = true ∧ signalOutcome ds = .hold
      · obtain ⟨bias, confidence⟩ :=
          evaluateAndDecide_demoted clock ts symbol bundle ds _ veto demoted.1 demoted.2
        exact .inl ⟨.inr bias, confidence⟩
      · have settled : riskOff bundle.toAnalysisSignals = false ∨ signalOutcome ds ≠ .hold := by
          rw [← Bool.not_eq_true]
          exact not_and_or.mp demoted
        obtain ⟨bias, confidence⟩ :=
          evaluateAndDecide_compared clock ts symbol bundle ds exactRounding veto settled
        obtain ⟨nonneg, bounded⟩ := (decisionOf_shares clock ts symbol bundle ds).largest
        have factor : macroFactor bundle.toAnalysisSignals ≤ 1 := by
          unfold macroFactor
          split_ifs <;> norm_num
        refine .inr ⟨bias, ?_⟩
        rw [confidence]
        split_ifs
        · exact ⟨le_rfl, zero_le_one⟩
        · exact ⟨mul_nonneg nonneg (macroFactor_nonneg _),
            mul_le_one₀ bounded (macroFactor_nonneg _) factor⟩

/-- The contributions of the rationale, by direction. -/
theorem contribution_of_rationale (weights : ∀ d ∈ ds, 0 ≤ d.weight) :
    ∀ entry ∈ (decisionOf clock ts symbol bundle ds).rationale,
      (entry.direction = .long → 0 ≤ entry.contribution) ∧
        (entry.direction = .short → entry.contribution ≤ 0) := by
  have keeps := keepsIdentity_chainScore bundle.toAnalysisSignals (signalOutcome ds)
  intro entry member
  rw [evaluateAndDecide_rationale, finalScores, List.map_map] at member
  obtain ⟨d, listed, rfl⟩ := List.mem_map.mp member
  have direction : (rationaleOf (chainScore bundle.toAnalysisSignals (signalOutcome ds)
      (scoreSignal d))).direction = d.direction := keeps.direction (scoreSignal d)
  rw [Function.comp_apply, direction]
  constructor
  · intro long
    obtain ⟨size, nonneg, signed⟩ := exists_size bundle.toAnalysisSignals (signalOutcome ds)
      (weights d listed) (by rw [long]; exact Direction.noConfusion)
    rw [long, directionSign, one_mul] at signed
    exact nonneg.trans signed.ge
  · intro short
    obtain ⟨size, nonneg, signed⟩ := exists_size bundle.toAnalysisSignals (signalOutcome ds)
      (weights d listed) (by rw [short]; exact Direction.noConfusion)
    rw [short, directionSign, neg_one_mul] at signed
    exact signed.le.trans (neg_nonpos.mpr nonneg)

theorem decisionOf_wellFormed (weights : ∀ d ∈ ds, 0 ≤ d.weight) :
    WellFormed (decisionOf clock ts symbol bundle ds) := by
  have contributions := contribution_of_rationale clock ts symbol bundle ds weights
  have shares := decisionOf_shares clock ts symbol bundle ds
  rcases decisionOf_cases clock ts symbol bundle ds with ⟨still, none⟩ | ⟨bias, confidence⟩
  · refine ⟨shares, ?_, ?_, ?_, ?_, fun entry member => (contributions entry member).1,
      fun entry member => (contributions entry member).2⟩
    · rw [none]
      exact ⟨le_rfl, zero_le_one⟩
    · rcases still with bias | bias <;> rw [bias] <;> simp [producedBiases]
    · intro long
      rcases still with bias | bias <;> rw [bias] at long <;> cases long
    · intro short
      rcases still with bias | bias <;> rw [bias] at short <;> cases short
  · refine ⟨shares, confidence, ?_, ?_, ?_, fun entry member => (contributions entry member).1,
      fun entry member => (contributions entry member).2⟩
    · rw [bias]
      exact comparedBias_mem _ _
    · intro long
      rw [bias, comparedBias_long_iff] at long
      linarith
    · intro short
      rw [bias, comparedBias_short_iff] at short
      linarith

end Decision

theorem wellFormed_arbitrate (clock : Clock) (symbol : String) (timestamp : Option Timestamp)
    (signals : AnalysisSignals) : WellFormed (arbitrate clock symbol timestamp signals) := by
  rw [arbitrate_eq]
  refine decisionOf_wellFormed _ _ _ _ _ fun d member => ?_
  rw [weight_of_mem member]
  exact zero_le_one

/-- A decision that does not trade, and weighs nothing, is well formed. -/
theorem wellFormed_of_idle {decision : ArbitrationDecision}
    (scores : Shares (decision.longScore, decision.shortScore, decision.neutralityScore))
    (confidence : decision.confidence = 0) (idle : decision.bias = .noTrade)
    (empty : decision.rationale = []) : WellFormed decision where
  scores := scores
  confidence := by simp [confidence]
  bias := by simp [idle, producedBiases]
  longLead long := by simp [idle] at long
  shortLead short := by simp [idle] at short
  longContributions := by simp [empty]
  shortContributions := by simp [empty]

theorem wellFormed_arbitratePortfolio (clock : Clock) (arbIn : ArbitrationInputBundle)
    (timestamp : Option Timestamp) : WellFormed (arbitratePortfolio clock arbIn timestamp) := by
  by_cases proposed : proposalSignals arbIn.portfolioProposal.proposals = []
  · have empty : deriveDirectionAndConfidence (portfolioBundle clock arbIn timestamp) ++
        arbIn.portfolioProposal.proposals.map toDirectional = [] := proposed
    simp only [arbitratePortfolio, empty]
    rw [if_pos trivial]
    exact wellFormed_of_idle ⟨le_rfl, le_rfl, le_rfl, .inr ⟨rfl, rfl, rfl⟩⟩ rfl rfl rfl
  · rw [arbitratePortfolio_eq clock arbIn timestamp proposed]
    refine decisionOf_wellFormed _ _ _ _ _ fun d member => ?_
    obtain ⟨p, _, rfl⟩ := List.mem_map.mp member
    exact (toDirectional_weight_pos p).le

/-- **Every decision of the engine is well formed**, for analysis signals and for a portfolio of
proposals. -/
theorem decisions_wellFormed (clock : Clock) (timestamp : Option Timestamp) :
    (∀ (symbol : String) (signals : AnalysisSignals),
        WellFormed (arbitrate clock symbol timestamp signals)) ∧
      ∀ arbIn : ArbitrationInputBundle, WellFormed (arbitratePortfolio clock arbIn timestamp) :=
  ⟨fun symbol signals => wellFormed_arbitrate clock symbol timestamp signals,
    fun arbIn => wellFormed_arbitratePortfolio clock arbIn timestamp⟩

/-! ## Near-ties -/

/-- Both sides are present, and their largest raw confidences are close. -/
def NearTie (ds : List DirectionalSignal) : Prop :=
  HasSide ds .long ∧ HasSide ds .short ∧ confidenceGap ds < 1 / 10

instance (ds : List DirectionalSignal) : Decidable (NearTie ds) :=
  inferInstanceAs (Decidable (_ ∧ _ ∧ _))

/-- The decision holds, and nothing contributes to it. -/
def Held (decision : ArbitrationDecision) : Prop :=
  decision.bias = .holdBias ∧ ∀ entry ∈ decision.rationale, entry.contribution = 0

/-- What a rationale says of its contributions holds of the final contributions. -/
theorem contribution_eq_zero_of_rationale {clock : Clock} {ts : Timestamp} {symbol : String}
    {bundle : SignalBundle} {ds : List DirectionalSignal}
    (silent : ∀ entry ∈ (decisionOf clock ts symbol bundle ds).rationale, entry.contribution = 0) :
    ∀ d ∈ ds, finalContribution bundle.toAnalysisSignals (signalOutcome ds) d = 0 := by
  intro d member
  rw [evaluateAndDecide_rationale, finalScores, List.map_map] at silent
  exact silent _ (List.mem_map_of_mem member)

/-- Without a veto and a risk-off signal a decision that nothing contributes to does not
trade. -/
theorem noTrade_of_silent {clock : Clock} {ts : Timestamp} {symbol : String}
    {bundle : SignalBundle} {ds : List DirectionalSignal}
    (noVeto : vetoes bundle.toAnalysisSignals = false)
    (calm : riskOff bundle.toAnalysisSignals = false)
    (silent : ∀ entry ∈ (decisionOf clock ts symbol bundle ds).rationale, entry.contribution = 0) :
    (decisionOf clock ts symbol bundle ds).bias = .noTrade := by
  have zero := contribution_eq_zero_of_rationale silent
  have total : ∀ side, directionSum (finalScores bundle.toAnalysisSignals ds) side = 0 := by
    intro side
    rw [directionSum_chain]
    exact directionTotal_eq_zero fun d member _ => zero d member
  have scores : _ = normalizedScores (finalScores bundle.toAnalysisSignals ds) :=
    evaluateAndDecide_scores clock ts symbol bundle ds
  have long : (decisionOf clock ts symbol bundle ds).longScore = 0 :=
    (congrArg Prod.fst scores).trans (normalizedScores_long_eq_zero (total .long))
  have short : (decisionOf clock ts symbol bundle ds).shortScore = 0 :=
    (congrArg (fun parts => parts.2.1) scores).trans
      (normalizedScores_short_eq_zero (total .short))
  rw [(evaluateAndDecide_compared clock ts symbol bundle ds exactRounding noVeto (.inl calm)).1,
    long, short]
  rfl

theorem not_held {clock : Clock} {ts : Timestamp} {symbol : String} {bundle : SignalBundle}
    {ds : List DirectionalSignal} (noVeto : vetoes bundle.toAnalysisSignals = false)
    (calm : riskOff bundle.toAnalysisSignals = false) :
    ¬ Held (decisionOf clock ts symbol bundle ds) := by
  rintro ⟨bias, silent⟩
  rw [noTrade_of_silent noVeto calm silent] at bias
  cases bias

/-- After a near-tie only a signal of a known regime contributes: the regime filter recomputes
what the conflict rule has zeroed. -/
theorem near_tie_silent_iff (clock : Clock) (symbol : String) (timestamp : Option Timestamp)
    {signals : AnalysisSignals} (noVeto : vetoes signals = false)
    (tie : NearTie (derived signals)) :
    (∀ entry ∈ (arbitrate clock symbol timestamp signals).rationale, entry.contribution = 0) ↔
      ∀ d ∈ derived signals, regimeActive d.direction d.regime = false := by
  have demoted := (signalOutcome_hold_iff exactRounding (derived signals)).mpr tie
  rw [forall_rationale_iff clock symbol timestamp signals fun _ value => value = 0, demoted]
  constructor
  · intro silent d member
    by_contra known
    rw [Bool.not_eq_false] at known
    exact finalContribution_ne_zero_of_active noVeto _ member known (silent d member)
  · intro unknown d member
    have silent : silenced .hold d.direction = true := rfl
    rw [finalContribution, contribution_chainScore, unknown d member, silent]
    rfl

/-- **No near-tie ends in `hold_bias` with nothing contributing.** The conflict rule writes both;
then a contribution comes back with a known regime, or the aggregation finds nothing and writes
`no_trade`. -/
theorem near_tie_never_held (clock : Clock) (timestamp : Option Timestamp) :
    (∀ (symbol : String) (signals : AnalysisSignals), vetoes signals = false →
        riskOff signals = false → NearTie (derived signals) →
        ¬ Held (arbitrate clock symbol timestamp signals)) ∧
      ∀ arbIn : ArbitrationInputBundle,
        NearTie (proposalSignals arbIn.portfolioProposal.proposals) →
        ¬ Held (arbitratePortfolio clock arbIn timestamp) := by
  constructor
  · intro symbol signals noVeto calm _
    rw [arbitrate_eq]
    exact not_held noVeto calm
  · intro arbIn tie
    have proposed : proposalSignals arbIn.portfolioProposal.proposals ≠ [] := by
      obtain ⟨d, member, _⟩ := tie.1
      exact List.ne_nil_of_mem member
    rw [arbitratePortfolio_eq clock arbIn timestamp proposed]
    exact not_held rfl rfl

/-- Order flow and sentiment of one confidence on both sides. -/
def evenSides : AnalysisSignals where
  orderflow := some ⟨1 / 2⟩
  sentiment := some ⟨UnitRational.clamp (1 / 4)⟩

theorem near_tie_never_held_even :
    NearTie (derived evenSides) ∧ ¬ Held (arbitrate ⟨0, 0, 0⟩ "AAPL" none evenSides) := by
  have tie : NearTie (derived evenSides) := by with_unfolding_all decide
  exact ⟨tie, (near_tie_never_held ⟨0, 0, 0⟩ none).1 "AAPL" evenSides
    (by with_unfolding_all decide) (by with_unfolding_all decide) tie⟩

/-- The near-tie is recorded as held, nothing contributes, and the decision is `no_trade`. -/
theorem near_tie_ends_no_trade :
    vetoes evenSides = false ∧ riskOff evenSides = false ∧ NearTie (derived evenSides) ∧
      (arbitrate ⟨0, 0, 0⟩ "AAPL" none evenSides).conflicts.map ConflictRecord.resolution =
        ["confidence_diff < threshold: hold_bias"] ∧
      (arbitrate ⟨0, 0, 0⟩ "AAPL" none evenSides).rationale.map
        DecisionRationale.contribution = [0, 0] ∧
      (arbitrate ⟨0, 0, 0⟩ "AAPL" none evenSides).bias = .noTrade := by
  with_unfolding_all decide

end TradeOS.Arbitration
