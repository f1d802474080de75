import TradeOS.Strategy.Composer
import TradeOS.Arbitration.Portfolio

/-!
# From the composer to arbitration

A composed proposal goes to `arbitratePortfolio` inside an input bundle. Arbitration
replaces a weight of zero by one, so a strategy of weight zero is inert only because
the composer has weighted its bundles: both sides have strength zero, and the proposal
is flat (`makeStrategyProposal_weightless`). A flat proposal is in no vote of the
composer and on no side of arbitration (`weightless_strategy_inert`).
-/

set_option autoImplicit false

namespace TradeOS.Strategy

open Arbitration (topConfidence Wins outcomeOf arbitratePortfolio proposalDirection)

/-! ## Delivery -/

/-- The text of a direction in a proposal. -/
def directionText : Direction → String
  | .long => "LONG"
  | .short => "SHORT"
  | .flat => "FLAT"

theorem proposalDirection_directionText (direction : Direction) :
    proposalDirection (directionText direction) = direction := by
  cases direction with
  | long => with_unfolding_all decide
  | short => with_unfolding_all decide
  | flat => with_unfolding_all decide

/-- A strategy proposal as arbitration receives it: the composed values, under the id drawn
for it and with the symbols of its bundles. -/
structure Delivers (part : StrategyProposal) (delivered : Arbitration.StrategyProposal) : Prop where
  strategyId : delivered.strategyId = part.strategyId
  bundles : delivered.bundles.length = part.bundles.length
  aggregateDirection : delivered.aggregateDirection = directionText part.aggregateDirection
  aggregateStrength : delivered.aggregateStrength = part.aggregateStrength
  aggregateConfidence : delivered.aggregateConfidence = part.aggregateConfidence
  portfolioWeight : delivered.portfolioWeight = part.portfolioWeight

/-- An input bundle that carries a composed proposal, as `ArbitrationInputBridge.build` makes
it. -/
structure Carries (arbIn : Arbitration.ArbitrationInputBundle) (proposal : PortfolioProposal) :
    Prop where
  portfolioId : arbIn.portfolioProposal.portfolioId = proposal.portfolioId
  proposals : List.Forall₂ Delivers proposal.proposals arbIn.portfolioProposal.proposals

/-- The confidences of the proposals of one side. -/
def sideConfidences (side : Direction) (proposals : List StrategyProposal) : List ℚ :=
  (proposals.filter fun part => part.aggregateDirection = side).map fun part =>
    part.aggregateConfidence.val

/-- Arbitration sees the confidences of a side that the composer gave. -/
theorem topConfidence_delivered {proposals : List StrategyProposal}
    {delivered : List Arbitration.StrategyProposal}
    (carried : List.Forall₂ Delivers proposals delivered) (side : Direction) :
    topConfidence delivered side = (sideConfidences side proposals).max? := by
  have sides : (delivered.filter fun p => p.side = side).map
      (fun p => p.aggregateConfidence.val) = sideConfidences side proposals := by
    induction carried with
    | nil => rfl
    | @cons part p _ _ here _ ih =>
        have direction : p.side = part.aggregateDirection := by
          rw [Arbitration.StrategyProposal.side, here.aggregateDirection,
            proposalDirection_directionText]
        simp only [sideConfidences, List.filter_cons, direction] at ih ⊢
        split
        · rw [List.map_cons, List.map_cons, ih, here.aggregateConfidence]
        · exact ih
  rw [topConfidence, sides]

/-- Two bundles whose proposals have the same confidences on both sides have the same
outcome. -/
theorem outcome_eq_of_sideConfidences {proposal proposal' : PortfolioProposal}
    {arbIn arbIn' : Arbitration.ArbitrationInputBundle}
    (carried : Carries arbIn proposal) (carried' : Carries arbIn' proposal')
    (same : ∀ side, side ≠ .flat →
      sideConfidences side proposal'.proposals = sideConfidences side proposal.proposals)
    (clock clock' : Arbitration.Clock) (timestamp timestamp' : Option Timestamp) :
    outcomeOf (arbitratePortfolio clock' arbIn' timestamp') =
      outcomeOf (arbitratePortfolio clock arbIn timestamp) := by
  have wins : ∀ side, side ≠ .flat → (Wins arbIn'.portfolioProposal.proposals side ↔
      Wins arbIn.portfolioProposal.proposals side) := by
    intro side sided
    have other : Arbitration.opposite side ≠ .flat := by
      cases side with
      | long => exact Direction.noConfusion
      | short => exact Direction.noConfusion
      | flat => exact absurd rfl sided
    rw [Wins, Wins, topConfidence_delivered carried.proposals,
      topConfidence_delivered carried.proposals, topConfidence_delivered carried'.proposals,
      topConfidence_delivered carried'.proposals, same side sided, same _ other]
  have long := wins .long Direction.noConfusion
  have short := wins .short Direction.noConfusion
  rcases Arbitration.outcome_cases clock arbIn timestamp with ⟨won, outcome⟩ | ⟨won, outcome⟩ |
    ⟨noLong, noShort, outcome⟩
  · rw [outcome]
    exact Arbitration.outcome_of_long_wins _ _ _ (long.mpr won)
  · rw [outcome]
    exact Arbitration.outcome_of_short_wins _ _ _ (short.mpr won)
  · rw [outcome]
    exact Arbitration.outcome_of_no_winner _ _ _ (mt long.mp noLong) (mt short.mp noShort)

/-! ## A strategy without weight -/

/-- The direction of a proposal that was made. -/
theorem makeStrategyProposal_direction {strategyId : String}
    {bundles : List StrategySignalBundle} {weight : ℚ} {part : StrategyProposal}
    (made : makeStrategyProposal strategyId bundles weight = .ok part) :
    part.aggregateDirection = .flat ∨
      part.aggregateDirection = (strongerSide (weightedStrength weight (directed .long bundles))
        (weightedStrength weight (directed .short bundles))).1 := by
  unfold makeStrategyProposal at made
  split at made
  · obtain ⟨_, _, returned⟩ := bind_eq_ok_iff.mp made
    cases returned
    exact .inl rfl
  · simp only [bind_eq_ok_iff] at made
    obtain ⟨_, _, _, _, _, _, returned⟩ := made
    cases returned
    exact .inr rfl

/-- A weight of zero makes a flat proposal. -/
theorem makeStrategyProposal_weightless (strategyId : String)
    (bundles : List StrategySignalBundle) :
    ∃ part, makeStrategyProposal strategyId bundles 0 = .ok part ∧
      part.aggregateDirection = .flat := by
  obtain ⟨part, made, _, _⟩ :=
    makeStrategyProposal_spec Numeric.exactUnitSummation strategyId bundles
      ⟨le_refl 0, zero_le_one⟩
  refine ⟨part, made, ?_⟩
  rcases makeStrategyProposal_direction made with flat | stronger
  · exact flat
  · rw [stronger, weightedStrength_eq, weightedStrength_eq, zero_mul, zero_mul]
    rfl

/-- The proposals of the strategies, before they are aggregated. -/
def strategyProposals (bundlesByStrategy : List (String × List StrategySignalBundle))
    (weights : List (String × ℚ)) : Except RunError (List StrategyProposal) :=
  bundlesByStrategy.mapM fun entry =>
    makeStrategyProposal entry.1 entry.2 (weightOf weights entry.1)

/-- **What the composer returned**: the proposals, and the two aggregates of them. -/
theorem compose_eq_ok_iff {weightMethod portfolioId : String}
    {bundlesByStrategy : List (String × List StrategySignalBundle)} {weights : List (String × ℚ)}
    {proposal : PortfolioProposal} :
    compose weightMethod bundlesByStrategy weights portfolioId = .ok proposal ↔
      strategyProposals bundlesByStrategy weights = .ok proposal.proposals ∧
        strongerSide (sideWeight .long proposal.proposals) (sideWeight .short proposal.proposals) =
          (proposal.compositeDirection, proposal.compositeStrength.val) ∧
        proposal.compositeConfidence.val = compositeConfidence proposal.proposals ∧
        portfolioId = proposal.portfolioId ∧ weightMethod = proposal.weightMethod := by
  unfold compose strategyProposals
  simp only [bind_eq_ok_iff, check_eq_ok_iff]
  constructor
  · rintro ⟨proposals, mapped, strength, stronger, confidence, mean, returned⟩
    cases returned
    exact ⟨mapped, Prod.ext rfl stronger.symm, mean, rfl, rfl⟩
  · rintro ⟨mapped, stronger, mean, rfl, rfl⟩
    refine ⟨_, mapped, proposal.compositeStrength, ?_, proposal.compositeConfidence, mean, ?_⟩
    · rw [stronger]
    · rw [stronger]
      rfl

section Inserted

variable (before after : List (String × List StrategySignalBundle))
  (weights weights' : List (String × ℚ))

/-- The proposals depend on the weights of the strategies only. -/
theorem strategyProposals_congr (entries : List (String × List StrategySignalBundle))
    (same : ∀ entry ∈ entries, weightOf weights' entry.1 = weightOf weights entry.1) :
    strategyProposals entries weights' = strategyProposals entries weights := by
  unfold strategyProposals
  induction entries with
  | nil => rw [List.mapM_nil, List.mapM_nil]
  | cons entry rest ih =>
      rw [List.mapM_cons, List.mapM_cons, same entry List.mem_cons_self,
        ih fun other member => same other (List.mem_cons_of_mem entry member)]

/-- A strategy of weight zero adds one flat proposal. -/
theorem strategyProposals_insert (strategyId : String) (bundles : List StrategySignalBundle)
    (weightless : weightOf weights' strategyId = 0)
    (same : ∀ entry ∈ before ++ after, weightOf weights' entry.1 = weightOf weights entry.1)
    {proposals : List StrategyProposal}
    (made : strategyProposals (before ++ after) weights = .ok proposals) :
    ∃ front inert back, proposals = front ++ back ∧ inert.aggregateDirection = .flat ∧
      strategyProposals (before ++ (strategyId, bundles) :: after) weights' =
        .ok (front ++ inert :: back) := by
  rw [← strategyProposals_congr _ _ _ same, strategyProposals, List.mapM_append] at made
  simp only [bind_eq_ok_iff] at made
  obtain ⟨front, first, back, second, joined⟩ := made
  obtain ⟨inert, proposed, flat⟩ := makeStrategyProposal_weightless strategyId bundles
  refine ⟨front, inert, back, (Except.ok.inj joined).symm, flat, ?_⟩
  rw [strategyProposals, List.mapM_append, List.mapM_cons, weightless, first, proposed, second]
  rfl

/-- A flat proposal is on no side. -/
theorem filter_insert_flat {front back : List StrategyProposal} {inert : StrategyProposal}
    (flat : inert.aggregateDirection = .flat) {side : Direction} (sided : side ≠ .flat) :
    (front ++ inert :: back).filter (fun part => part.aggregateDirection = side) =
      (front ++ back).filter fun part => part.aggregateDirection = side := by
  have off : inert.aggregateDirection ≠ side := by
    rw [flat]
    exact sided.symm
  rw [List.filter_append, List.filter_cons_of_neg (by simpa using off), List.filter_append]

/-- **A strategy of weight zero is inert.** It changes neither the direction nor the strength
of the composite, and arbitration decides on the two composed proposals alike. -/
theorem weightless_strategy_inert (strategyId : String) (bundles : List StrategySignalBundle)
    (weightless : weightOf weights' strategyId = 0)
    (same : ∀ entry ∈ before ++ after, weightOf weights' entry.1 = weightOf weights entry.1)
    {weightMethod portfolioId : String} {proposal : PortfolioProposal}
    (composed : compose weightMethod (before ++ after) weights portfolioId = .ok proposal) :
    ∃ proposal', compose weightMethod (before ++ (strategyId, bundles) :: after) weights'
          portfolioId = .ok proposal' ∧
      proposal'.compositeDirection = proposal.compositeDirection ∧
      proposal'.compositeStrength = proposal.compositeStrength ∧
      ∀ (arbIn arbIn' : Arbitration.ArbitrationInputBundle),
        Carries arbIn proposal → Carries arbIn' proposal' →
        ∀ (clock clock' : Arbitration.Clock) (timestamp timestamp' : Option Timestamp),
          outcomeOf (arbitratePortfolio clock' arbIn' timestamp') =
            outcomeOf (arbitratePortfolio clock arbIn timestamp) := by
  obtain ⟨made, stronger, _, rfl, rfl⟩ := compose_eq_ok_iff.mp composed
  obtain ⟨front, inert, back, split, flat, inserted⟩ :=
    strategyProposals_insert _ _ _ _ strategyId bundles weightless same made
  have unmoved : ∀ side, side ≠ Direction.flat →
      (front ++ inert :: back).filter (fun part => part.aggregateDirection = side) =
        proposal.proposals.filter fun part => part.aggregateDirection = side := by
    intro side sided
    rw [split]
    exact filter_insert_flat flat sided
  refine ⟨⟨proposal.portfolioId, front ++ inert :: back, proposal.compositeDirection,
    proposal.compositeStrength,
    ⟨_, compositeConfidence_mem_unit Numeric.exactUnitSummation (front ++ inert :: back)⟩,
    proposal.weightMethod⟩, ?_, rfl, rfl, ?_⟩
  · rw [compose_eq_ok_iff]
    refine ⟨inserted, ?_, rfl, rfl, rfl⟩
    rw [sideWeight, sideWeight, sideStrengths, sideStrengths, unmoved .long Direction.noConfusion,
      unmoved .short Direction.noConfusion]
    exact stronger
  · intro arbIn arbIn' carried carried' clock clock' timestamp timestamp'
    refine outcome_eq_of_sideConfidences carried carried' ?_ clock clock' timestamp timestamp'
    intro side sided
    rw [sideConfidences, sideConfidences, unmoved side sided]

end Inserted

/-- The delivery of one composed proposal. -/
def deliver (proposalId symbol : String) (part : StrategyProposal) :
    Arbitration.StrategyProposal where
  proposalId := proposalId
  strategyId := part.strategyId
  bundles := part.bundles.map fun _ => ⟨symbol⟩
  aggregateDirection := directionText part.aggregateDirection
  aggregateStrength := part.aggregateStrength
  aggregateConfidence := part.aggregateConfidence
  portfolioWeight := part.portfolioWeight

/-- `ArbitrationInputBridge.build`, for bundles of one symbol. -/
def build (utcnow : Timestamp) (proposalId symbol : String) (proposal : PortfolioProposal) :
    Arbitration.ArbitrationInputBundle where
  timestamp := utcnow
  portfolioProposal :=
    ⟨proposal.portfolioId, proposal.proposals.map (deliver proposalId symbol)⟩

theorem carries_build (utcnow : Timestamp) (proposalId symbol : String)
    (proposal : PortfolioProposal) : Carries (build utcnow proposalId symbol proposal) proposal := by
  refine ⟨rfl, ?_⟩
  show List.Forall₂ Delivers proposal.proposals
    (proposal.proposals.map (deliver proposalId symbol))
  rw [List.forall₂_map_right_iff, List.forall₂_same]
  intro part _
  exact ⟨rfl, List.length_map _, rfl, rfl, rfl, rfl⟩

/-- A short strategy without weight beside a long one: its signals are strong, and nothing
changes. -/
theorem weightless_strategy_inert_sample :
    ∃ proposal proposal',
      compose "equal" [("trend", [fullBundle .long])] [("trend", 1 / 2)] "p" = .ok proposal ∧
      compose "equal" [("trend", [fullBundle .long]), ("idle", [fullBundle .short])]
        [("trend", 1 / 2), ("idle", 0)] "p" = .ok proposal' ∧
      proposal'.compositeDirection = proposal.compositeDirection ∧
      outcomeOf (arbitratePortfolio ⟨0, 0, 0⟩ (build 0 "sp" "AAPL" proposal') none) =
        outcomeOf (arbitratePortfolio ⟨0, 0, 0⟩ (build 0 "sp" "AAPL" proposal) none) := by
  have unit : ∀ entry ∈ [("trend", (1 / 2 : ℚ))], 0 ≤ entry.2 ∧ entry.2 ≤ 1 := by
    with_unfolding_all decide
  obtain ⟨proposal, composed, _⟩ :=
    (@compose_spec [("trend", [fullBundle .long])] _ unit "equal" "p" .long).mpr
      ⟨by with_unfolding_all decide, by with_unfolding_all decide⟩
  obtain ⟨proposal', composed', direction, _, outcomes⟩ :=
    weightless_strategy_inert [("trend", [fullBundle .long])] [] _ [("trend", 1 / 2), ("idle", 0)]
      "idle" [fullBundle .short] (by with_unfolding_all decide) (by with_unfolding_all decide)
      composed
  exact ⟨proposal, proposal', composed, composed', direction,
    outcomes _ _ (carries_build 0 "sp" "AAPL" proposal) (carries_build 0 "sp" "AAPL" proposal') _ _
      _ _⟩

end TradeOS.Strategy
