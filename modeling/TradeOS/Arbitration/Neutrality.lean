import TradeOS.Arbitration.Monotonicity

/-!
# Direction neutrality

The mirror image of a call has long and short exchanged, upward and downward trends exchanged, the
book imbalance negated and the sentiment reflected at one half. Without a macro signal, the
derivation, the conflict rule, the regime table and the aggregation treat both directions alike:
every signal of the mirror image has the negated contribution, and the decision of the mirror image
is the mirror image of the decision (`arbitrate_mirror`).
-/

set_option autoImplicit false

namespace TradeOS.Arbitration

open Numeric EnsembleScorer

/-! ## Mirror images -/

/-- The other trend. -/
def oppositeTrend : Regime → Regime
  | .trendingUp => .trendingDown
  | .trendingDown => .trendingUp
  | regime => regime

/-- The bias towards the other direction. -/
def oppositeBias : Bias → Bias
  | .longBias => .shortBias
  | .shortBias => .longBias
  | bias => bias

/-- An engine signal of the other direction, in the other trend. -/
def mirrorEngine (sig : EngineSignal) : EngineSignal :=
  { sig with direction := opposite sig.direction, regime := oppositeTrend sig.regime }

theorem reflected_unit (s : UnitRational) : 0 ≤ 1 - s.val ∧ 1 - s.val ≤ 1 :=
  ⟨sub_nonneg.mpr s.property.2, sub_le_self 1 s.property.1⟩

/-- The sentiment on the other side of one half. -/
def mirrorSentiment (sig : SentimentEvent) : SentimentEvent :=
  ⟨⟨1 - sig.compositeSentiment.val, reflected_unit _⟩⟩

/-- The mirror image of the signals of a call. -/
def AnalysisSignals.mirror (signals : AnalysisSignals) : AnalysisSignals :=
  { signals with
    technical := signals.technical.map fun sig => ⟨mirrorEngine sig.toEngineSignal⟩
    chan := signals.chan.map fun sig => ⟨mirrorEngine sig.toEngineSignal⟩
    orderflow := signals.orderflow.map fun sig => ⟨-sig.bookImbalance⟩
    sentiment := signals.sentiment.map mirrorSentiment }

/-- The mirror image of a directional signal. -/
def DirectionalSignal.mirror (d : DirectionalSignal) : DirectionalSignal :=
  { d with direction := opposite d.direction, regime := d.regime.map oppositeTrend }

/-- The same conflict with the sides exchanged. -/
def ConflictOutcome.mirror : ConflictOutcome → ConflictOutcome
  | .winner side => .winner (opposite side)
  | outcome => outcome

@[simp] theorem opposite_opposite (side : Direction) : opposite (opposite side) = side := by
  cases side <;> rfl

theorem opposite_eq_iff {side other : Direction} : opposite side = other ↔ side = opposite other := by
  constructor
  · rintro rfl
    exact (opposite_opposite side).symm
  · rintro rfl
    exact opposite_opposite other

theorem directionSign_opposite (side : Direction) :
    directionSign (opposite side) = -directionSign side := by
  cases side <;> simp [opposite, directionSign]

/-! ## The derived signals -/

theorem technicalDirectional_mirror (sig : TechnicalSignal) :
    technicalDirectional ⟨mirrorEngine sig.toEngineSignal⟩ = (technicalDirectional sig).mirror := rfl

theorem chanDirectional_mirror (sig : ChanSignal) :
    chanDirectional ⟨mirrorEngine sig.toEngineSignal⟩ = (chanDirectional sig).mirror := rfl

theorem orderflowDirectional_mirror (sig : OrderFlowSignal) :
    orderflowDirectional ⟨-sig.bookImbalance⟩ = (orderflowDirectional sig).mirror := by
  unfold orderflowDirectional
  simp only [abs_neg]
  split_ifs with quiet up down down
  · rfl
  · exact absurd down (not_lt.mpr (neg_pos.mp up).le)
  · rfl
  · rfl
  · have zero : sig.bookImbalance = 0 :=
      le_antisymm (not_lt.mp down) (neg_nonpos.mp (not_lt.mp up))
    rw [zero, abs_zero] at quiet
    norm_num at quiet

theorem sentimentDirectional_mirror (sig : SentimentEvent) :
    sentimentDirectional (mirrorSentiment sig) = (sentimentDirectional sig).mirror := by
  have distance : |1 - sig.compositeSentiment.val - 1 / 2| =
      |sig.compositeSentiment.val - 1 / 2| := by
    rw [← abs_neg]
    congr 1
    ring
  unfold sentimentDirectional mirrorSentiment
  simp only [distance]
  split_ifs with quiet up down down
  · rfl
  · linarith
  · rfl
  · rfl
  · have centre : sig.compositeSentiment.val - 1 / 2 = 0 := by linarith
    rw [centre, abs_zero] at quiet
    norm_num at quiet

/-- The image of an optional input gives the image of its signal. -/
theorem toList_mirror {α : Type} {image : α → α} {toSignal : α → DirectionalSignal}
    (same : ∀ sig, toSignal (image sig) = (toSignal sig).mirror) (o : Option α) :
    ((o.map image).map toSignal).toList = (o.map toSignal).toList.map DirectionalSignal.mirror := by
  cases o with
  | none => rfl
  | some sig => exact congrArg (fun d => [d]) (same sig)

theorem directionalSignals_mirror {signals : AnalysisSignals}
    (noMacro : signals.macroSignal = none) :
    directionalSignals signals.mirror =
      (directionalSignals signals).map DirectionalSignal.mirror := by
  simp only [directionalSignals, AnalysisSignals.mirror, List.map_append, noMacro]
  rw [toList_mirror technicalDirectional_mirror, toList_mirror chanDirectional_mirror,
    toList_mirror orderflowDirectional_mirror, toList_mirror sentimentDirectional_mirror]
  rfl

/-- The signals of the mirror image are the mirror images of the signals. -/
theorem derived_mirror {signals : AnalysisSignals} (noMacro : signals.macroSignal = none) :
    derived signals.mirror = (derived signals).map DirectionalSignal.mirror := by
  rw [derived, directionalSignals_mirror noMacro, List.filter_map]
  rfl

/-! ## The conflict -/

theorem ofDirection_mirror (ds : List DirectionalSignal) (side : Direction) :
    (ofDirection ((ds.map DirectionalSignal.mirror).map scoreSignal) side).map
        SignalScore.rawConfidence =
      (ofDirection (ds.map scoreSignal) (opposite side)).map SignalScore.rawConfidence := by
  simp only [ofDirection, List.filter_map, List.map_map]
  congr 1
  refine List.filter_congr fun d _ => ?_
  exact decide_eq_decide.mpr opposite_eq_iff

theorem hasSide_mirror {ds : List DirectionalSignal} {side : Direction} :
    HasSide (ds.map DirectionalSignal.mirror) side ↔ HasSide ds (opposite side) := by
  simp only [HasSide, List.mem_map, exists_exists_and_eq_and]
  exact exists_congr fun d => and_congr_right fun _ => opposite_eq_iff

theorem sideConfidence_mirror (ds : List DirectionalSignal) (side : Direction) :
    sideConfidence (ds.map DirectionalSignal.mirror) side = sideConfidence ds (opposite side) := by
  rw [sideConfidence, maxConfidence, ofDirection_mirror]
  rfl

theorem signalOutcome_mirror (ds : List DirectionalSignal) :
    signalOutcome (ds.map DirectionalSignal.mirror) = (signalOutcome ds).mirror := by
  by_cases both : HasSide ds .long ∧ HasSide ds .short
  · obtain ⟨long, short⟩ := both
    have longSide : sideConfidence (ds.map DirectionalSignal.mirror) .long =
        sideConfidence ds .short := sideConfidence_mirror ds .long
    have shortSide : sideConfidence (ds.map DirectionalSignal.mirror) .short =
        sideConfidence ds .long := sideConfidence_mirror ds .short
    have gap : confidenceGap (ds.map DirectionalSignal.mirror) = confidenceGap ds := by
      rw [confidenceGap, longSide, shortSide, abs_sub_comm, confidenceGap]
    rw [signalOutcome_conflict (hasSide_mirror.mpr short) (hasSide_mirror.mpr long),
      signalOutcome_conflict long short, gap, longSide, shortSide]
    by_cases close : confidenceGap ds < 1 / 10
    · rw [if_pos close, if_pos close]
      rfl
    · rw [if_neg close, if_neg close]
      have apart : sideConfidence ds .long ≠ sideConfidence ds .short := by
        intro same
        rw [confidenceGap, same, sub_self, abs_zero] at close
        norm_num at close
      rcases lt_or_gt_of_ne apart with less | more
      · rw [if_pos less, if_neg (not_lt.mpr less.le)]
        rfl
      · rw [if_neg (not_lt.mpr more.le), if_pos more]
        rfl
  · have absent := not_and_or.mp both
    rw [signalOutcome_noConflict absent, signalOutcome_noConflict]
    · rfl
    · rw [hasSide_mirror, hasSide_mirror]
      exact absent.symm

theorem silenced_mirror (outcome : ConflictOutcome) (side : Direction) :
    silenced outcome.mirror (opposite side) = silenced outcome side := by
  cases outcome with
  | noConflict => rfl
  | hold => rfl
  | winner winning => cases winning <;> cases side <;> rfl

/-! ## The contributions -/

/-- The size of the contribution of a signal, without a risk-off signal. -/
def magnitude (signals : AnalysisSignals) (silent : Bool) (d : DirectionalSignal) : ℚ :=
  if regimeActive d.direction d.regime then
    carriedConfidence signals d * signalMultiplier d.direction d.regime * carriedWeight d
  else if silent then 0
  else d.confidence.val * d.weight * vetoFactor signals

/-- Without a risk-off signal a contribution has the sign of its direction. -/
theorem finalContribution_eq_signed {signals : AnalysisSignals} (calm : riskOff signals = false)
    (outcome : ConflictOutcome) (d : DirectionalSignal) :
    finalContribution signals outcome d =
      directionSign d.direction * magnitude signals (silenced outcome d.direction) d := by
  rw [finalContribution, contribution_chainScore, magnitude]
  split_ifs with active silent
  · have sided : d.direction ≠ .flat := (of_decide_eq_true active).1
    rw [ruleSign_eq_directionSign sided]
    ring
  · rw [mul_zero]
  · rw [standingContribution, calm, if_neg Bool.false_ne_true, DirectionalSignal.score]
    ring

theorem vetoFactor_nonneg (signals : AnalysisSignals) : 0 ≤ vetoFactor signals := by
  unfold vetoFactor
  split_ifs <;> norm_num

theorem macroFactor_nonneg (signals : AnalysisSignals) : 0 ≤ macroFactor signals := by
  unfold macroFactor
  split_ifs <;> norm_num

theorem carriedConfidence_nonneg (signals : AnalysisSignals) (d : DirectionalSignal) :
    0 ≤ carriedConfidence signals d := by
  unfold carriedConfidence
  split_ifs
  · exact mul_nonneg (mul_nonneg d.confidence.property.1 (vetoFactor_nonneg signals))
      (macroFactor_nonneg signals)
  · exact d.confidence.property.1

theorem magnitude_nonneg (signals : AnalysisSignals) (silent : Bool) {d : DirectionalSignal}
    (weight : d.weight = 1) : 0 ≤ magnitude signals silent d := by
  unfold magnitude
  split_ifs
  · exact mul_nonneg (mul_nonneg (carriedConfidence_nonneg signals d)
      (signalMultiplier_pos _ _).le) (carriedWeight_nonneg (zero_le_one.trans weight.ge))
  · exact le_rfl
  · rw [weight, mul_one]
    exact mul_nonneg d.confidence.property.1 (vetoFactor_nonneg signals)

theorem riskOff_mirror (signals : AnalysisSignals) : riskOff signals.mirror = riskOff signals := rfl

theorem regimeActive_mirror (direction : Direction) (regime : Option Regime) :
    regimeActive (opposite direction) (regime.map oppositeTrend) =
      regimeActive direction regime := by
  cases regime with
  | none => simp [regimeActive]
  | some known => cases direction <;> cases known <;> rfl

/-- The multiplier of a direction in a trend is that of the other direction in the other trend. -/
theorem signalMultiplier_mirror (direction : Direction) (regime : Option Regime) :
    signalMultiplier (opposite direction) (regime.map oppositeTrend) =
      signalMultiplier direction regime := by
  cases regime with
  | none => rfl
  | some known =>
      simp only [Option.map_some, signalMultiplier, regimeMultiplier_eq]
      cases direction <;> cases known <;> rfl

theorem magnitude_mirror (signals : AnalysisSignals) (silent : Bool) (d : DirectionalSignal) :
    magnitude signals.mirror silent d.mirror = magnitude signals silent d := by
  have active : regimeActive d.mirror.direction d.mirror.regime =
      regimeActive d.direction d.regime := regimeActive_mirror _ _
  have multiplier : signalMultiplier d.mirror.direction d.mirror.regime =
      signalMultiplier d.direction d.regime := signalMultiplier_mirror _ _
  rw [magnitude, magnitude, active, multiplier]
  rfl

theorem finalContribution_mirror {signals : AnalysisSignals} (calm : riskOff signals = false)
    (outcome : ConflictOutcome) (d : DirectionalSignal) :
    finalContribution signals.mirror outcome.mirror d.mirror =
      -finalContribution signals outcome d := by
  have silent : silenced outcome.mirror d.mirror.direction = silenced outcome d.direction :=
    silenced_mirror outcome d.direction
  have sign : directionSign d.mirror.direction = -directionSign d.direction :=
    directionSign_opposite d.direction
  have calm' : riskOff signals.mirror = false := (riskOff_mirror signals).trans calm
  rw [finalContribution_eq_signed calm', finalContribution_eq_signed calm, silent, sign,
    magnitude_mirror, neg_mul]

/-- The totals of both directions are exchanged and negated. -/
theorem directionTotal_mirror {signals : AnalysisSignals} (calm : riskOff signals = false)
    (outcome : ConflictOutcome) (ds : List DirectionalSignal) (side : Direction) :
    directionTotal signals.mirror outcome.mirror (ds.map DirectionalSignal.mirror) side =
      -directionTotal signals outcome ds (opposite side) := by
  have sided : ((ds.map DirectionalSignal.mirror).filter fun d => d.direction = side) =
      (ds.filter fun d => d.direction = opposite side).map DirectionalSignal.mirror := by
    rw [List.filter_map]
    congr 1
    refine List.filter_congr fun d _ => ?_
    exact decide_eq_decide.mpr opposite_eq_iff
  rw [directionTotal, directionTotal, sided, List.map_map, ← neg_one_mul, ← List.sum_map_mul_left]
  congr 1
  refine List.map_congr_left fun d _ => ?_
  rw [Function.comp_apply, finalContribution_mirror calm, neg_one_mul]

/-- The total of one direction is its sign times the sum of the sizes. -/
theorem directionTotal_eq_signed {signals : AnalysisSignals} (calm : riskOff signals = false)
    (outcome : ConflictOutcome) (ds : List DirectionalSignal) (side : Direction) :
    directionTotal signals outcome ds side =
      directionSign side * ((ds.filter fun d => d.direction = side).map
        (magnitude signals (silenced outcome side))).sum := by
  rw [directionTotal, ← List.sum_map_mul_left]
  congr 1
  refine List.map_congr_left fun d kept => ?_
  have direction : d.direction = side := of_decide_eq_true (List.mem_filter.mp kept).2
  rw [finalContribution_eq_signed calm, direction]

/-- The long total is not negative, and the short total is not positive. -/
theorem directionTotal_sign {signals : AnalysisSignals} (calm : riskOff signals = false)
    (outcome : ConflictOutcome) {ds : List DirectionalSignal}
    (weights : ∀ d ∈ ds, d.weight = 1) :
    0 ≤ directionTotal signals outcome ds .long ∧ directionTotal signals outcome ds .short ≤ 0 := by
  have sizes : ∀ side, 0 ≤ ((ds.filter fun d => d.direction = side).map
      (magnitude signals (silenced outcome side))).sum := by
    intro side
    refine List.sum_nonneg fun value member => ?_
    obtain ⟨d, kept, rfl⟩ := List.mem_map.mp member
    exact magnitude_nonneg signals _ (weights d (List.mem_filter.mp kept).1)
  rw [directionTotal_eq_signed calm, directionTotal_eq_signed calm]
  simp only [directionSign, one_mul, neg_one_mul]
  exact ⟨sizes .long, neg_nonpos.mpr (sizes .short)⟩

/-! ## The decision -/

/-- The scores of the mirror image, with the first two exchanged. -/
theorem normalizedScores_mirror {scores scores' : List SignalScore}
    (long : directionSum scores' .long = -directionSum scores .short)
    (short : directionSum scores' .short = -directionSum scores .long)
    (flat : directionSum scores' .flat = -directionSum scores .flat)
    (up : 0 ≤ directionSum scores .long) (down : directionSum scores .short ≤ 0) :
    normalizedScores scores' =
      ((normalizedScores scores).2.1, (normalizedScores scores).1,
        (normalizedScores scores).2.2) := by
  have longScore : max (directionSum scores' .long) 0 = max |directionSum scores .short| 0 := by
    rw [long, abs_of_nonpos down]
  have shortScore : max |directionSum scores' .short| 0 = max (directionSum scores .long) 0 := by
    rw [short, abs_neg, abs_of_nonneg up]
  have neutrality : min |directionSum scores' .flat| 1 = min |directionSum scores .flat| 1 := by
    rw [flat, abs_neg]
  simp only [normalizedScores, longScore, shortScore, neutrality]
  rw [add_comm (max |directionSum scores .short| 0)]
  split_ifs <;> rfl

theorem comparedBias_swap (ls ss : ℚ) : comparedBias ss ls = oppositeBias (comparedBias ls ss) := by
  unfold comparedBias
  by_cases empty : ls = 0 ∧ ss = 0
  · rw [if_pos empty, if_pos empty.symm]
    rfl
  · rw [if_neg empty, if_neg (mt And.symm empty), abs_sub_comm]
    by_cases close : |ls - ss| < biasGap
    · rw [if_pos close, if_pos close]
      rfl
    · rw [if_neg close, if_neg close]
      rcases lt_trichotomy ls ss with less | same | more
      · rw [if_pos less, if_neg (not_lt.mpr less.le)]
        rfl
      · rw [same, sub_self, abs_zero] at close
        norm_num [biasGap] at close
      · rw [if_neg (not_lt.mpr more.le), if_pos more]
        rfl

section Calls

variable {signals : AnalysisSignals} (noMacro : signals.macroSignal = none)

include noMacro

theorem calm_of_noMacro : riskOff signals = false := by rw [riskOff, noMacro]; rfl

theorem scores_mirror (clock clock' : Clock) (symbol : String) (timestamp : Option Timestamp) :
    (arbitrate clock' symbol timestamp signals.mirror).longScore =
        (arbitrate clock symbol timestamp signals).shortScore ∧
      (arbitrate clock' symbol timestamp signals.mirror).shortScore =
        (arbitrate clock symbol timestamp signals).longScore ∧
      (arbitrate clock' symbol timestamp signals.mirror).neutralityScore =
        (arbitrate clock symbol timestamp signals).neutralityScore := by
  have calm := calm_of_noMacro noMacro
  have total : ∀ side, directionSum (finalScores signals.mirror (derived signals.mirror)) side =
      -directionSum (finalScores signals (derived signals)) (opposite side) := by
    intro side
    rw [directionSum_chain, directionSum_chain, derived_mirror noMacro, signalOutcome_mirror]
    exact directionTotal_mirror calm _ _ side
  obtain ⟨up, down⟩ := directionTotal_sign calm (signalOutcome (derived signals))
    (fun d member => weight_of_mem member)
  rw [← directionSum_chain] at up down
  have mirrored := scores_of_totals clock' symbol timestamp signals.mirror
  rw [normalizedScores_mirror (total .long) (total .short) (total .flat) up down,
    ← scores_of_totals clock symbol timestamp signals] at mirrored
  simp only [Prod.mk.injEq] at mirrored
  exact mirrored

end Calls

/-- **Arbitration without a macro signal is neutral between the directions: the decision on the
mirror image of a call has the scores and the bias of both directions exchanged, and the same
neutrality score, confidence and other biases.** -/
theorem arbitrate_mirror (clock clock' : Clock) (symbol : String) (timestamp : Option Timestamp)
    {signals : AnalysisSignals} (noMacro : signals.macroSignal = none) :
    let decision := arbitrate clock symbol timestamp signals
    let mirrored := arbitrate clock' symbol timestamp signals.mirror
    mirrored.longScore = decision.shortScore ∧ mirrored.shortScore = decision.longScore ∧
      mirrored.bias = oppositeBias decision.bias ∧
      mirrored.neutralityScore = decision.neutralityScore ∧
      mirrored.confidence = decision.confidence := by
  intro decision mirrored
  obtain ⟨long, short, neutrality⟩ := scores_mirror noMacro clock clock' symbol timestamp
  have calm := calm_of_noMacro noMacro
  cases veto : vetoes signals with
  | true =>
      obtain ⟨bias, confidence⟩ := evaluateAndDecide_veto clock (timestamp.getD clock.utcnow)
        symbol (collect clock symbol timestamp signals) (derived signals)
        exactRounding veto
      obtain ⟨bias', confidence'⟩ := evaluateAndDecide_veto clock' (timestamp.getD clock'.utcnow)
        symbol (collect clock' symbol timestamp signals.mirror) (derived signals.mirror)
        exactRounding veto
      refine ⟨long, short, ?_, neutrality, confidence'.trans confidence.symm⟩
      rw [show decision.bias = .noTrade from bias]
      exact bias'
  | false =>
      obtain ⟨bias, confidence⟩ := evaluateAndDecide_compared clock (timestamp.getD clock.utcnow)
        symbol (collect clock symbol timestamp signals) (derived signals)
        exactRounding veto (.inl calm)
      obtain ⟨bias', confidence'⟩ := evaluateAndDecide_compared clock'
        (timestamp.getD clock'.utcnow) symbol (collect clock' symbol timestamp signals.mirror)
        (derived signals.mirror) exactRounding veto (.inl calm)
      rw [← arbitrate_eq] at bias confidence bias' confidence'
      refine ⟨long, short, ?_, neutrality, ?_⟩
      · rw [bias', bias, long, short, comparedBias_swap]
      · rw [confidence', confidence, long, short, neutrality]
        refine if_congr and_comm rfl ?_
        rw [max_comm decision.shortScore]
        rfl

/-- A long technical signal and a short chan signal in an upward trend. -/
def disputedTrend : AnalysisSignals where
  technical := some ⟨⟨.long, UnitRational.clamp (4 / 5), .trendingUp⟩⟩
  chan := some ⟨⟨.short, UnitRational.clamp (1 / 2), .trendingUp⟩⟩

theorem arbitrate_mirror_disputed :
    (arbitrate ⟨0, 0, 0⟩ "AAPL" none disputedTrend).bias = .longBias ∧
      (arbitrate ⟨0, 0, 0⟩ "AAPL" none disputedTrend.mirror).bias = .shortBias ∧
      (arbitrate ⟨0, 0, 0⟩ "AAPL" none disputedTrend.mirror).confidence =
        (arbitrate ⟨0, 0, 0⟩ "AAPL" none disputedTrend).confidence := by
  have long : (arbitrate ⟨0, 0, 0⟩ "AAPL" none disputedTrend).bias = .longBias := by
    with_unfolding_all decide
  obtain ⟨-, -, bias, -, confidence⟩ :=
    arbitrate_mirror ⟨0, 0, 0⟩ ⟨0, 0, 0⟩ "AAPL" none (show disputedTrend.macroSignal = none from rfl)
  rw [long] at bias
  exact ⟨long, bias, confidence⟩

end TradeOS.Arbitration
