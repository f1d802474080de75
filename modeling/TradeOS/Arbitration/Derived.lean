import TradeOS.Arbitration.Aggregation

/-!
# The signals and the scores of a call

`arbitrate` hands the decision of `evaluateAndDecide` the directional signals that
are not noise (`derived`, `arbitrate_eq`). Each of them comes from one of five
engines (`Source`), is at least `0.3` confident and has weight one. The rationale
and the two scores of a call are stated over these signals
(`forall_rationale_iff`, `longScore_eq`, `shortScore_eq`).
-/

set_option autoImplicit false

namespace TradeOS.Arbitration

open Numeric EnsembleScorer

/-! ## The signals of a call -/

/-- The directional signals of a call that are not noise. -/
def derived (signals : AnalysisSignals) (fl : Rounding := exactRounding) :
    List DirectionalSignal :=
  (directionalSignals signals fl).filter fun s => fl lowConfidenceThreshold ≤ s.confidence.val

@[simp] theorem collect_toAnalysisSignals (clock : Clock) (symbol : String)
    (timestamp : Option Timestamp) (signals : AnalysisSignals) :
    (collect clock symbol timestamp signals).toAnalysisSignals = signals :=
  rfl

theorem arbitrate_eq {fl : Rounding} (clock : Clock) (symbol : String)
    (timestamp : Option Timestamp) (signals : AnalysisSignals) :
    arbitrate clock symbol timestamp signals fl =
      decisionOf clock (timestamp.getD clock.utcnow) symbol
        (collect clock symbol timestamp signals) (derived signals fl) fl :=
  rfl

/-- Where a derived signal comes from. Only technical and chan signals have a
regime, and only the technical engine has weight one. -/
inductive Source (signals : AnalysisSignals) : DirectionalSignal → Prop where
  | technical (sig : TechnicalSignal) (present : signals.technical = some sig) :
      Source signals (technicalDirectional sig)
  | chan (sig : ChanSignal) (present : signals.chan = some sig) :
      Source signals (chanDirectional sig)
  | regimeless (d : DirectionalSignal) (regime : d.regime = none) (weight : d.weight = 1)
      (engine : d.engineName = "orderflow" ∨ d.engineName = "sentiment" ∨
        d.engineName = "macro") : Source signals d

theorem orderflowDirectional_fields (sig : OrderFlowSignal) :
    (orderflowDirectional sig).engineName = "orderflow" ∧
      (orderflowDirectional sig).regime = none ∧ (orderflowDirectional sig).weight = 1 := by
  simp only [orderflowDirectional]
  split <;> exact ⟨rfl, rfl, rfl⟩

theorem sentimentDirectional_fields (sig : SentimentEvent) :
    (sentimentDirectional sig).engineName = "sentiment" ∧
      (sentimentDirectional sig).regime = none ∧ (sentimentDirectional sig).weight = 1 := by
  simp only [sentimentDirectional]
  split <;> exact ⟨rfl, rfl, rfl⟩

theorem source_of_mem {signals : AnalysisSignals} {d : DirectionalSignal}
    (member : d ∈ derived signals) : Source signals d := by
  have listed := (List.mem_filter.mp member).1
  simp only [directionalSignals, List.mem_append, Option.mem_toList, Option.map_eq_some_iff]
    at listed
  rcases listed with (((⟨sig, present, rfl⟩ | ⟨sig, present, rfl⟩) | ⟨sig, _, rfl⟩) |
    ⟨sig, _, rfl⟩) | ⟨sig, _, rfl⟩
  · exact .technical sig present
  · exact .chan sig present
  · obtain ⟨engine, regime, weight⟩ := orderflowDirectional_fields sig
    exact .regimeless _ regime weight (.inl engine)
  · obtain ⟨engine, regime, weight⟩ := sentimentDirectional_fields sig
    exact .regimeless _ regime weight (.inr (.inl engine))
  · exact .regimeless _ rfl rfl (.inr (.inr rfl))

theorem threshold_of_mem {signals : AnalysisSignals} {d : DirectionalSignal}
    (member : d ∈ derived signals) : lowConfidenceThreshold ≤ d.confidence.val := by
  simpa using (List.mem_filter.mp member).2

theorem confidence_pos_of_mem {signals : AnalysisSignals} {d : DirectionalSignal}
    (member : d ∈ derived signals) : 0 < d.confidence.val :=
  lt_of_lt_of_le (by norm_num [lowConfidenceThreshold]) (threshold_of_mem member)

theorem weight_of_mem {signals : AnalysisSignals} {d : DirectionalSignal}
    (member : d ∈ derived signals) : d.weight = 1 := by
  cases source_of_mem member with
  | technical | chan => rfl
  | regimeless _ _ weight _ => exact weight

theorem chan_mem_derived {signals : AnalysisSignals} {sig : ChanSignal}
    (present : signals.chan = some sig) (heard : lowConfidenceThreshold ≤ sig.confidence.val) :
    chanDirectional sig ∈ derived signals := by
  refine List.mem_filter.mpr ⟨?_, decide_eq_true heard⟩
  simp [directionalSignals, present]

/-! ## The weight table -/

theorem engineWeight_technical : engineWeight defaultWeights "technical" = 1 := rfl

theorem engineWeight_chan : engineWeight defaultWeights "chan" = 9 / 10 := rfl

theorem engineWeight_regimeless {engine : String}
    (listed : engine = "orderflow" ∨ engine = "sentiment" ∨ engine = "macro") :
    engineWeight defaultWeights engine ≠ 1 := by
  rcases listed with rfl | rfl | rfl
  · show (11 / 10 : ℚ) ≠ 1
    norm_num
  · show (8 / 10 : ℚ) ≠ 1
    norm_num
  · show (9 / 10 : ℚ) ≠ 1
    norm_num

/-! ## The rationale and the scores -/

/-- A statement about every rationale entry is a statement about every derived
signal. -/
theorem forall_rationale_iff (clock : Clock) (symbol : String) (timestamp : Option Timestamp)
    (signals : AnalysisSignals) (p : Direction → ℚ → Prop) :
    (∀ entry ∈ (arbitrate clock symbol timestamp signals).rationale,
        p entry.direction entry.contribution) ↔
      ∀ d ∈ derived signals,
        p d.direction (finalContribution signals (signalOutcome (derived signals)) d) := by
  have keeps := keepsIdentity_chainScore signals (signalOutcome (derived signals))
  rw [arbitrate_eq, evaluateAndDecide_rationale]
  simp only [finalScores, List.map_map, List.forall_mem_map, Function.comp_apply, rationaleOf,
    collect_toAnalysisSignals, keeps.direction]
  rfl

theorem directionTotal_eq_zero {signals : AnalysisSignals} {outcome : ConflictOutcome}
    {ds : List DirectionalSignal} {direction : Direction}
    (zero : ∀ d ∈ ds, d.direction = direction → finalContribution signals outcome d = 0) :
    directionTotal signals outcome ds direction = 0 := by
  apply List.sum_eq_zero
  intro value member
  obtain ⟨d, kept, rfl⟩ := List.mem_map.mp member
  obtain ⟨listed, side⟩ := List.mem_filter.mp kept
  exact zero d listed (by simpa using side)

theorem normalizedScores_nonneg (scores : List SignalScore) :
    0 ≤ (normalizedScores scores).1 ∧ 0 ≤ (normalizedScores scores).2.1 := by
  simp only [normalizedScores]
  split
  · rename_i positive
    exact ⟨div_nonneg (le_max_right _ _) positive.le, div_nonneg (le_max_right _ _) positive.le⟩
  · exact ⟨le_max_right _ _, le_max_right _ _⟩

theorem normalizedScores_long_eq_zero {scores : List SignalScore}
    (zero : directionSum scores .long = 0) : (normalizedScores scores).1 = 0 := by
  simp only [normalizedScores, zero, max_self, zero_div, ite_self, apply_ite Prod.fst]

theorem normalizedScores_short_eq_zero {scores : List SignalScore}
    (zero : directionSum scores .short = 0) : (normalizedScores scores).2.1 = 0 := by
  simp only [normalizedScores, zero, abs_zero, max_self, zero_div, ite_self, apply_ite Prod.snd,
    apply_ite Prod.fst]

theorem scores_of_totals (clock : Clock) (symbol : String) (timestamp : Option Timestamp)
    (signals : AnalysisSignals) :
    ((arbitrate clock symbol timestamp signals).longScore,
        (arbitrate clock symbol timestamp signals).shortScore,
        (arbitrate clock symbol timestamp signals).neutralityScore) =
      normalizedScores (finalScores signals (derived signals)) :=
  evaluateAndDecide_scores clock (timestamp.getD clock.utcnow) symbol
    (collect clock symbol timestamp signals) (derived signals)

theorem longScore_eq (clock : Clock) (symbol : String) (timestamp : Option Timestamp)
    (signals : AnalysisSignals) :
    (arbitrate clock symbol timestamp signals).longScore =
      (normalizedScores (finalScores signals (derived signals))).1 :=
  congrArg Prod.fst (scores_of_totals clock symbol timestamp signals)

theorem shortScore_eq (clock : Clock) (symbol : String) (timestamp : Option Timestamp)
    (signals : AnalysisSignals) :
    (arbitrate clock symbol timestamp signals).shortScore =
      (normalizedScores (finalScores signals (derived signals))).2.1 :=
  congrArg (fun scores => scores.2.1) (scores_of_totals clock symbol timestamp signals)

/-- A side whose signals all contribute nothing has score zero. -/
theorem longScore_eq_zero (clock : Clock) (symbol : String) (timestamp : Option Timestamp)
    (signals : AnalysisSignals)
    (zero : ∀ d ∈ derived signals, d.direction = .long →
      finalContribution signals (signalOutcome (derived signals)) d = 0) :
    (arbitrate clock symbol timestamp signals).longScore = 0 := by
  rw [longScore_eq]
  apply normalizedScores_long_eq_zero
  rw [directionSum_chain]
  exact directionTotal_eq_zero zero

theorem shortScore_eq_zero (clock : Clock) (symbol : String) (timestamp : Option Timestamp)
    (signals : AnalysisSignals)
    (zero : ∀ d ∈ derived signals, d.direction = .short →
      finalContribution signals (signalOutcome (derived signals)) d = 0) :
    (arbitrate clock symbol timestamp signals).shortScore = 0 := by
  rw [shortScore_eq]
  apply normalizedScores_short_eq_zero
  rw [directionSum_chain]
  exact directionTotal_eq_zero zero

/-! ## Signs -/

theorem ruleSign_eq_directionSign {direction : Direction} (side : direction ≠ .flat) :
    ruleSign direction = directionSign direction := by
  cases direction with
  | long | short => rfl
  | flat => exact absurd rfl side

end TradeOS.Arbitration
