import TradeOS.Arbitration.Aggregation
import Mathlib.Algebra.BigOperators.Ring.List

/-!
# Portfolio arbitration, characterised

A strategy proposal becomes a signal without a regime, and the bundle of a
portfolio call is empty. Of the five rules only the conflict rule changes a
contribution, and a signal contributes its signed and weighted confidence unless
its side is silenced. The aggregation normalizes by the total, so one side alone
scores one whatever the weights are.

The outcome of `arbitratePortfolio` depends on the largest confidence of the two
sides only (`portfolio_characterisation`).
-/

set_option autoImplicit false

namespace TradeOS.Arbitration

open Numeric EnsembleScorer

/-! ## The winning side -/

/-- The direction of a proposal. -/
def StrategyProposal.side (p : StrategyProposal) : Direction :=
  proposalDirection p.aggregateDirection

/-- The largest confidence among the proposals of one side, if there are any. -/
def topConfidence (proposals : List StrategyProposal) (side : Direction) : Option ℚ :=
  ((proposals.filter fun p => p.side = side).map fun p => p.aggregateConfidence.val).max?

/-- A side wins: its largest confidence is positive and leads the other side, if
there is one, by `0.1`. -/
def Wins (proposals : List StrategyProposal) (side : Direction) : Prop :=
  ∃ top, topConfidence proposals side = some top ∧ 0 < top ∧
    ∀ rival, topConfidence proposals (opposite side) = some rival → 1 / 10 ≤ top - rival

/-- The bias, the confidence and the three scores of a decision. -/
def outcomeOf (decision : ArbitrationDecision) : Bias × ℚ × ℚ × ℚ × ℚ :=
  (decision.bias, decision.confidence, decision.longScore, decision.shortScore,
    decision.neutralityScore)

/-- What a proposal says, without its weight. -/
def ballot (p : StrategyProposal) : String × UnitRational :=
  (p.aggregateDirection, p.aggregateConfidence)

theorem topConfidence_ballots (proposals : List StrategyProposal) (side : Direction) :
    topConfidence proposals side =
      (((proposals.map ballot).filter fun b => proposalDirection b.1 = side).map
        fun b => b.2.val).max? := by
  have texts : ∀ p : StrategyProposal, proposalDirection (ballot p).1 = p.side := by
    intro p
    delta ballot StrategyProposal.side
    dsimp only
  simp only [topConfidence, List.filter_map, List.map_map, Function.comp_def, texts]
  rfl

theorem max?_perm {values values' : List ℚ} (same : values.Perm values') :
    values.max? = values'.max? := by
  cases top : values'.max? with
  | none =>
      rw [List.max?_eq_none_iff] at top ⊢
      subst top
      exact same.eq_nil
  | some largest =>
      rw [List.max?_eq_some_iff] at top ⊢
      exact ⟨same.mem_iff.mpr top.1, fun value member => top.2 value (same.mem_iff.mp member)⟩

/-- The winner depends on what the proposals say, in any order. -/
theorem topConfidence_perm {proposals proposals' : List StrategyProposal}
    (same : (proposals.map ballot).Perm (proposals'.map ballot)) (side : Direction) :
    topConfidence proposals side = topConfidence proposals' side := by
  rw [topConfidence_ballots, topConfidence_ballots]
  exact max?_perm ((same.filter _).map _)

theorem wins_perm {proposals proposals' : List StrategyProposal}
    (same : (proposals.map ballot).Perm (proposals'.map ballot)) (side : Direction) :
    Wins proposals side ↔ Wins proposals' side := by
  rw [Wins, Wins, topConfidence_perm same, topConfidence_perm same]

/-! ## The proposals as signals -/

/-- The signals of a list of proposals. -/
def proposalSignals (proposals : List StrategyProposal) : List DirectionalSignal :=
  proposals.map toDirectional

theorem toDirectional_direction (p : StrategyProposal) :
    (toDirectional p).direction = p.side := by
  -- `rfl` would evaluate the comparison of the direction texts.
  delta toDirectional StrategyProposal.side
  dsimp only

theorem toDirectional_confidence (p : StrategyProposal) :
    (toDirectional p).confidence = p.aggregateConfidence :=
  rfl

theorem toDirectional_weight (p : StrategyProposal) :
    (toDirectional p).weight =
      if 0 < p.portfolioWeight.val then p.portfolioWeight.val else 1 :=
  rfl

theorem sideConfidence_proposals (proposals : List StrategyProposal) (side : Direction) :
    sideConfidence (proposalSignals proposals) side =
      (topConfidence proposals side).getD 0 := by
  rw [sideConfidence, maxConfidence, proposalSignals, topConfidence]
  simp only [ofDirection, List.filter_map, List.map_map, Function.comp_def, scoreSignal,
    toDirectional_direction, toDirectional_confidence]

theorem hasSide_proposals_iff (proposals : List StrategyProposal) (side : Direction) :
    HasSide (proposalSignals proposals) side ↔ ∃ top, topConfidence proposals side = some top := by
  rw [← Option.isSome_iff_exists, ← Option.ne_none_iff_isSome, topConfidence, Ne,
    List.max?_eq_none_iff, List.map_eq_nil_iff, List.filter_eq_nil_iff]
  simp only [HasSide, proposalSignals, List.mem_map, not_forall, not_not, exists_prop,
    exists_exists_and_eq_and, decide_eq_true_eq, toDirectional_direction]

theorem toDirectional_weight_pos (p : StrategyProposal) : 0 < (toDirectional p).weight := by
  rw [toDirectional_weight]
  split
  · assumption
  · exact zero_lt_one

/-- A proposal contributes its score unless its side is silenced. -/
theorem finalContribution_proposal (outcome : ConflictOutcome) (p : StrategyProposal) :
    finalContribution {} outcome (toDirectional p) =
      if silenced outcome p.side then 0
      else directionSign p.side * p.aggregateConfidence.val * (toDirectional p).weight := by
  have inactive : regimeActive (toDirectional p).direction (toDirectional p).regime = false :=
    regimeActive_none _
  have standing : standingContribution {} (toDirectional p) = (toDirectional p).score := by
    simp [standingContribution, riskOff, vetoFactor, vetoes]
  rw [finalContribution, contribution_chainScore, inactive, standing, DirectionalSignal.score,
    toDirectional_direction, toDirectional_confidence, if_neg Bool.false_ne_true]

/-! ## The totals of the two sides -/

section Totals

variable (proposals : List StrategyProposal)

/-- The contributions of one direction, added up. -/
def proposalTotal (side : Direction) : ℚ :=
  directionTotal {} (signalOutcome (proposalSignals proposals)) (proposalSignals proposals) side

theorem proposalTotal_eq_zero {side : Direction}
    (zero : ∀ p ∈ proposals, p.side = side →
      silenced (signalOutcome (proposalSignals proposals)) side = true ∨
        directionSign side * p.aggregateConfidence.val = 0) :
    proposalTotal proposals side = 0 := by
  apply List.sum_eq_zero
  intro value member
  obtain ⟨d, kept, rfl⟩ := List.mem_map.mp member
  obtain ⟨listed, same⟩ := List.mem_filter.mp kept
  obtain ⟨p, proposed, rfl⟩ := List.mem_map.mp listed
  have direction : p.side = side := (toDirectional_direction p).symm.trans (of_decide_eq_true same)
  rw [finalContribution_proposal, direction]
  rcases zero p proposed direction with quiet | nothing
  · rw [if_pos quiet]
  · rw [nothing, zero_mul, ite_self]

theorem proposalTotal_flat : proposalTotal proposals .flat = 0 :=
  proposalTotal_eq_zero proposals fun _ _ _ => .inr (zero_mul _)

/-- The largest confidence of a side bounds every proposal of the side. -/
theorem le_topConfidence {side : Direction} {top : ℚ}
    (found : topConfidence proposals side = some top) {p : StrategyProposal}
    (member : p ∈ proposals) (same : p.side = side) : p.aggregateConfidence.val ≤ top :=
  (List.max?_eq_some_iff.mp found).2 _
    (List.mem_map.mpr ⟨p, List.mem_filter.mpr ⟨member, decide_eq_true same⟩, rfl⟩)

/-- A silenced side, by the largest confidences. -/
theorem silenced_proposals {side : Direction} (sided : side ≠ .flat) {top rival : ℚ}
    (found : topConfidence proposals side = some top)
    (opposed : topConfidence proposals (opposite side) = some rival) :
    silenced (signalOutcome (proposalSignals proposals)) side = false ↔ 1 / 10 ≤ top - rival := by
  have present := (hasSide_proposals_iff proposals side).mpr ⟨top, found⟩
  have present' := (hasSide_proposals_iff proposals (opposite side)).mpr ⟨rival, opposed⟩
  obtain ⟨long, short⟩ : HasSide (proposalSignals proposals) .long ∧
      HasSide (proposalSignals proposals) .short := by
    cases side with
    | long => exact ⟨present, present'⟩
    | short => exact ⟨present', present⟩
    | flat => exact absurd rfl sided
  rw [silenced_eq_false_iff long short sided, sideConfidence_proposals, sideConfidence_proposals,
    found, opposed, Option.getD_some, Option.getD_some]
  constructor <;> intro <;> linarith

/-- A side that does not win adds nothing. -/
theorem proposalTotal_of_not_wins {side : Direction} (sided : side ≠ .flat)
    (loses : ¬ Wins proposals side) : proposalTotal proposals side = 0 := by
  apply proposalTotal_eq_zero
  intro p member same
  obtain ⟨top, found⟩ := (hasSide_proposals_iff proposals side).mp
    ⟨toDirectional p, List.mem_map_of_mem member, (toDirectional_direction p).trans same⟩
  by_cases positive : 0 < top
  · have challenged : ∃ rival, topConfidence proposals (opposite side) = some rival ∧
        ¬ 1 / 10 ≤ top - rival := by
      by_contra unchallenged
      refine loses ⟨top, found, positive, fun rival opposed => ?_⟩
      by_contra close
      exact unchallenged ⟨rival, opposed, close⟩
    obtain ⟨rival, opposed, close⟩ := challenged
    left
    rw [← Bool.not_eq_false, silenced_proposals proposals sided found opposed]
    exact close
  · right
    have zero : p.aggregateConfidence.val = 0 :=
      le_antisymm ((le_topConfidence proposals found member same).trans (not_lt.mp positive))
        p.aggregateConfidence.property.1
    rw [zero, mul_zero]

/-- A winning side is heard and has a positive total. -/
theorem proposalTotal_of_wins {side : Direction} (sided : side ≠ .flat)
    (wins : Wins proposals side) : 0 < directionSign side * proposalTotal proposals side := by
  obtain ⟨top, found, positive, leads⟩ := wins
  have heard : silenced (signalOutcome (proposalSignals proposals)) side = false := by
    cases opposed : topConfidence proposals (opposite side) with
    | some rival =>
        exact (silenced_proposals proposals sided found opposed).mpr (leads rival opposed)
    | none =>
        have absent : ¬ HasSide (proposalSignals proposals) (opposite side) := by
          rw [hasSide_proposals_iff, opposed]
          simp
        rw [signalOutcome_noConflict]
        · rfl
        · cases side with
          | long => exact .inr absent
          | short => exact .inl absent
          | flat => exact absurd rfl sided
  have square : directionSign side * directionSign side = 1 := by
    cases side with
    | long | short => norm_num [directionSign]
    | flat => exact absurd rfl sided
  have term : ∀ p ∈ proposals, p.side = side →
      directionSign side * finalContribution {} (signalOutcome (proposalSignals proposals))
        (toDirectional p) = p.aggregateConfidence.val * (toDirectional p).weight := by
    intro p member same
    rw [finalContribution_proposal, same, heard, if_neg Bool.false_ne_true, ← mul_assoc,
      ← mul_assoc, square, one_mul]
  rw [proposalTotal, directionTotal, ← List.sum_map_mul_left]
  obtain ⟨p, kept, largest⟩ := List.mem_map.mp (List.max?_eq_some_iff.mp found).1
  obtain ⟨member, same⟩ := List.mem_filter.mp kept
  have direction : p.side = side := of_decide_eq_true same
  have share : 0 < directionSign side * finalContribution {}
      (signalOutcome (proposalSignals proposals)) (toDirectional p) := by
    rw [term p member direction, largest]
    exact mul_pos positive (toDirectional_weight_pos p)
  refine lt_of_lt_of_le share (List.single_le_sum ?_ _ ?_)
  · intro value listed
    obtain ⟨d, listed', rfl⟩ := List.mem_map.mp listed
    obtain ⟨proposed, same'⟩ := List.mem_filter.mp listed'
    obtain ⟨q, member', rfl⟩ := List.mem_map.mp proposed
    rw [term q member' ((toDirectional_direction q).symm.trans (of_decide_eq_true same'))]
    exact mul_nonneg q.aggregateConfidence.property.1 (toDirectional_weight_pos q).le
  · have listed : decide ((toDirectional p).direction = side) = true :=
      decide_eq_true ((toDirectional_direction p).trans direction)
    exact List.mem_map.mpr
      ⟨toDirectional p, List.mem_filter.mpr ⟨List.mem_map_of_mem member, listed⟩, rfl⟩

/-- The two sides cannot both win. -/
theorem not_wins_opposite {side : Direction} (sided : side ≠ .flat)
    (wins : Wins proposals side) : ¬ Wins proposals (opposite side) := by
  rintro ⟨rival, opposed, _, leads'⟩
  obtain ⟨top, found, _, leads⟩ := wins
  have back : opposite (opposite side) = side := by cases side <;> rfl
  rw [back] at leads'
  linarith [leads rival opposed, leads' top found]

end Totals

/-! ## The outcome -/

section Outcome

variable (clock : Clock) (arbIn : ArbitrationInputBundle) (timestamp : Option Timestamp)

/-- The three scores that a list of proposals gives. -/
def proposalScores (proposals : List StrategyProposal) : ℚ × ℚ × ℚ :=
  normalizedScores (finalScores {} (proposalSignals proposals))

theorem proposalScores_eq (proposals : List StrategyProposal) :
    proposalScores proposals =
      let long := max (proposalTotal proposals .long) 0
      let short := max |proposalTotal proposals .short| 0
      if 0 < long + short then (long / (long + short), short / (long + short), 0)
      else (long, short, 0) := by
  have total : ∀ side, directionSum (finalScores {} (proposalSignals proposals)) side =
      proposalTotal proposals side := fun side => directionSum_chain _ _ _
  simp only [proposalScores, normalizedScores, total, proposalTotal_flat, abs_zero,
    min_eq_left (zero_le_one' ℚ), add_zero, zero_div]

/-- The bundle of a portfolio call, without signals. -/
abbrev portfolioBundle : SignalBundle :=
  collect clock (bundleSymbol arbIn.portfolioProposal) (some (timestamp.getD arbIn.timestamp)) {}

/-- A portfolio call with proposals decides on them. -/
theorem arbitratePortfolio_eq
    (proposed : proposalSignals arbIn.portfolioProposal.proposals ≠ []) :
    arbitratePortfolio clock arbIn timestamp =
      decisionOf clock (timestamp.getD arbIn.timestamp) (bundleSymbol arbIn.portfolioProposal)
        (portfolioBundle clock arbIn timestamp)
        (proposalSignals arbIn.portfolioProposal.proposals) := by
  have signals : deriveDirectionAndConfidence (portfolioBundle clock arbIn timestamp) ++
      arbIn.portfolioProposal.proposals.map toDirectional =
        proposalSignals arbIn.portfolioProposal.proposals := rfl
  rw [← signals] at proposed
  simp only [arbitratePortfolio]
  rw [if_neg proposed]
  rfl

/-- The outcome of a portfolio call is the comparison of its two scores. -/
theorem outcomeOf_arbitratePortfolio :
    let scores := proposalScores arbIn.portfolioProposal.proposals
    outcomeOf (arbitratePortfolio clock arbIn timestamp) =
      (comparedBias scores.1 scores.2.1,
        if scores.1 = 0 ∧ scores.2.1 = 0 then 0 else max (max scores.1 scores.2.1) scores.2.2,
        scores) := by
  intro scores
  by_cases empty : proposalSignals arbIn.portfolioProposal.proposals = []
  · have none : scores = (0, 0, 0) := by
      simp [scores, proposalScores_eq, proposalTotal, empty, directionTotal]
    have signals : deriveDirectionAndConfidence (portfolioBundle clock arbIn timestamp) ++
        arbIn.portfolioProposal.proposals.map toDirectional = [] := empty
    rw [none, arbitratePortfolio]
    simp only [signals]
    rw [if_pos trivial]
    simp [outcomeOf, comparedBias]
  · set bundle := portfolioBundle clock arbIn timestamp
    have noMacro : macroFactor bundle.toAnalysisSignals = 1 := rfl
    have compared := evaluateAndDecide_compared clock (timestamp.getD arbIn.timestamp)
      (bundleSymbol arbIn.portfolioProposal) bundle
      (proposalSignals arbIn.portfolioProposal.proposals) exactRounding rfl (.inl rfl)
    have scored : _ = scores := evaluateAndDecide_scores clock (timestamp.getD arbIn.timestamp)
      (bundleSymbol arbIn.portfolioProposal) bundle
      (proposalSignals arbIn.portfolioProposal.proposals)
    rw [arbitratePortfolio_eq clock arbIn timestamp empty, outcomeOf, compared.1, compared.2,
      noMacro, mul_one, ← scored]

theorem outcome_of_long_wins (wins : Wins arbIn.portfolioProposal.proposals .long) :
    outcomeOf (arbitratePortfolio clock arbIn timestamp) = (.longBias, 1, 1, 0, 0) := by
  have total := proposalTotal_of_wins _ (by simp) wins
  have other := proposalTotal_of_not_wins _ (by simp [opposite])
    (not_wins_opposite _ (by simp) wins)
  rw [directionSign, one_mul] at total
  rw [outcomeOf_arbitratePortfolio, proposalScores_eq]
  simp only [opposite] at other
  simp only [other, abs_zero, max_self, add_zero, max_eq_left total.le, if_pos total,
    div_self total.ne', zero_div]
  norm_num [comparedBias, biasGap]

theorem outcome_of_short_wins (wins : Wins arbIn.portfolioProposal.proposals .short) :
    outcomeOf (arbitratePortfolio clock arbIn timestamp) = (.shortBias, 1, 0, 1, 0) := by
  have total := proposalTotal_of_wins _ (by simp) wins
  have other := proposalTotal_of_not_wins _ (by simp [opposite])
    (not_wins_opposite _ (by simp) wins)
  have negative : proposalTotal arbIn.portfolioProposal.proposals .short ≠ 0 := by
    intro zero
    rw [zero, mul_zero] at total
    exact lt_irrefl 0 total
  have positive := abs_pos.mpr negative
  rw [outcomeOf_arbitratePortfolio, proposalScores_eq]
  simp only [opposite] at other
  simp only [other, max_self, zero_add, max_eq_left positive.le, if_pos positive,
    div_self positive.ne', zero_div]
  norm_num [comparedBias, biasGap]

theorem outcome_of_no_winner (long : ¬ Wins arbIn.portfolioProposal.proposals .long)
    (short : ¬ Wins arbIn.portfolioProposal.proposals .short) :
    outcomeOf (arbitratePortfolio clock arbIn timestamp) = (.noTrade, 0, 0, 0, 0) := by
  rw [outcomeOf_arbitratePortfolio, proposalScores_eq]
  simp only [proposalTotal_of_not_wins _ (by simp) long, proposalTotal_of_not_wins _ (by simp) short,
    abs_zero, max_self, add_zero, lt_self_iff_false, if_false]
  simp [comparedBias]

/-- The outcome of a portfolio call, by the winning side. -/
theorem outcome_cases :
    (Wins arbIn.portfolioProposal.proposals .long ∧
        outcomeOf (arbitratePortfolio clock arbIn timestamp) = (.longBias, 1, 1, 0, 0)) ∨
      (Wins arbIn.portfolioProposal.proposals .short ∧
        outcomeOf (arbitratePortfolio clock arbIn timestamp) = (.shortBias, 1, 0, 1, 0)) ∨
      (¬ Wins arbIn.portfolioProposal.proposals .long ∧
        ¬ Wins arbIn.portfolioProposal.proposals .short ∧
        outcomeOf (arbitratePortfolio clock arbIn timestamp) = (.noTrade, 0, 0, 0, 0)) := by
  by_cases long : Wins arbIn.portfolioProposal.proposals .long
  · exact .inl ⟨long, outcome_of_long_wins clock arbIn timestamp long⟩
  · by_cases short : Wins arbIn.portfolioProposal.proposals .short
    · exact .inr (.inl ⟨short, outcome_of_short_wins clock arbIn timestamp short⟩)
    · exact .inr (.inr ⟨long, short, outcome_of_no_winner clock arbIn timestamp long short⟩)

/-- **Portfolio arbitration, exactly.** The long outcome appears when the long side
wins, the short outcome when the short side wins, and the empty outcome in every
other case. Two calls whose proposals say the same in some order, with any
weights, have the same outcome. -/
theorem portfolio_characterisation :
    (outcomeOf (arbitratePortfolio clock arbIn timestamp) = (.longBias, 1, 1, 0, 0) ↔
        Wins arbIn.portfolioProposal.proposals .long) ∧
      (outcomeOf (arbitratePortfolio clock arbIn timestamp) = (.shortBias, 1, 0, 1, 0) ↔
        Wins arbIn.portfolioProposal.proposals .short) ∧
      (outcomeOf (arbitratePortfolio clock arbIn timestamp) = (.noTrade, 0, 0, 0, 0) ↔
        ¬ Wins arbIn.portfolioProposal.proposals .long ∧
          ¬ Wins arbIn.portfolioProposal.proposals .short) ∧
      ∀ (clock' : Clock) (arbIn' : ArbitrationInputBundle) (timestamp' : Option Timestamp),
        (arbIn.portfolioProposal.proposals.map ballot).Perm
          (arbIn'.portfolioProposal.proposals.map ballot) →
        outcomeOf (arbitratePortfolio clock' arbIn' timestamp') =
          outcomeOf (arbitratePortfolio clock arbIn timestamp) := by
  have exclusive : Wins arbIn.portfolioProposal.proposals .long →
      ¬ Wins arbIn.portfolioProposal.proposals .short :=
    not_wins_opposite _ (by simp)
  refine ⟨?_, ?_, ?_, ?_⟩
  · rcases outcome_cases clock arbIn timestamp with ⟨wins, outcome⟩ | ⟨wins, outcome⟩ |
      ⟨noLong, noShort, outcome⟩
    · exact iff_of_true outcome wins
    · rw [outcome]
      exact iff_of_false (by simp) fun long => exclusive long wins
    · rw [outcome]
      exact iff_of_false (by simp) noLong
  · rcases outcome_cases clock arbIn timestamp with ⟨wins, outcome⟩ | ⟨wins, outcome⟩ |
      ⟨noLong, noShort, outcome⟩
    · rw [outcome]
      exact iff_of_false (by simp) (exclusive wins)
    · exact iff_of_true outcome wins
    · rw [outcome]
      exact iff_of_false (by simp) noShort
  · rcases outcome_cases clock arbIn timestamp with ⟨wins, outcome⟩ | ⟨wins, outcome⟩ |
      ⟨noLong, noShort, outcome⟩
    · rw [outcome]
      exact iff_of_false (by simp) fun none => none.1 wins
    · rw [outcome]
      exact iff_of_false (by simp) fun none => none.2 wins
    · exact iff_of_true outcome ⟨noLong, noShort⟩
  · intro clock' arbIn' timestamp' same
    rcases outcome_cases clock arbIn timestamp with ⟨wins, outcome⟩ | ⟨wins, outcome⟩ |
      ⟨noLong, noShort, outcome⟩
    · rw [outcome]
      exact outcome_of_long_wins _ _ _ ((wins_perm same .long).mp wins)
    · rw [outcome]
      exact outcome_of_short_wins _ _ _ ((wins_perm same .short).mp wins)
    · rw [outcome]
      exact outcome_of_no_winner _ _ _ (mt (wins_perm same .long).mpr noLong)
        (mt (wins_perm same .short).mpr noShort)

end Outcome

/-- A confident long proposal of small weight against a short proposal. -/
def divided : List StrategyProposal :=
  [{ proposalId := "p-1", strategyId := "trend", aggregateDirection := "LONG",
     aggregateConfidence := UnitRational.clamp (4 / 5)
     portfolioWeight := UnitRational.clamp (1 / 10) },
    { proposalId := "p-2", strategyId := "reversion", aggregateDirection := "short",
      aggregateConfidence := UnitRational.clamp (3 / 5)
      portfolioWeight := UnitRational.clamp (9 / 10) }]

/-- The same proposals in the other order. -/
theorem portfolio_characterisation_reversed :
    outcomeOf (arbitratePortfolio ⟨0, 0, 0⟩ ⟨0, ⟨"AAPL-1", divided⟩⟩ none) =
        (.longBias, 1, 1, 0, 0) ∧
      Wins divided .long ∧
      outcomeOf (arbitratePortfolio ⟨0, 0, 0⟩ ⟨0, ⟨"AAPL-1", divided.reverse⟩⟩ none) =
        outcomeOf (arbitratePortfolio ⟨0, 0, 0⟩ ⟨0, ⟨"AAPL-1", divided⟩⟩ none) := by
  obtain ⟨long, _, _, same⟩ :=
    portfolio_characterisation ⟨0, 0, 0⟩ ⟨0, ⟨"AAPL-1", divided⟩⟩ none
  have outcome : outcomeOf (arbitratePortfolio ⟨0, 0, 0⟩ ⟨0, ⟨"AAPL-1", divided⟩⟩ none) =
      (.longBias, 1, 1, 0, 0) := by with_unfolding_all decide
  exact ⟨outcome, long.mp outcome,
    same _ ⟨0, ⟨"AAPL-1", divided.reverse⟩⟩ none ((List.reverse_perm divided).symm.map ballot)⟩

end TradeOS.Arbitration
