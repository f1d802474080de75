import TradeOS.Live.Modules
import TradeOS.Arbitration.WellFormed
import TradeOS.Risk.Trail

/-!
# Suggestions and executions

At its end the live pipeline decides twice over the same plan: whether it runs the execution step
(`runsExecution`), and which suggestion it shows to the user (`buildSuggestions`). A suggestion is
official when the plan trades and the decision has a side, else a trial when the modules lean to a
side, else a watch.

The plan of a decision without an open position trades only on a side, so the pipeline executes
exactly what it calls official (`execution_matches_suggestion`).

The time in the id of the signal bundle and the texts that a bundle carries along are left out.
-/

set_option autoImplicit false

namespace TradeOS.Live

open Arbitration Risk Numeric

/-! ## Suggestions -/

/-- The grade of a suggestion. -/
inductive Grade where
  | official
  | trial
  | watch
  deriving DecidableEq, Repr

/-- A value in the metadata of a suggestion. -/
inductive Detail where
  | text (value : String)
  | texts (values : List String)
  deriving DecidableEq, Repr

/-- A candidate trade that is shown to the user. -/
structure TradingSuggestion where
  suggestionId : String
  symbol : String
  direction : String
  grade : Grade
  confidence : UnitRational
  reason : String
  supportingSignals : List String
  opposingSignals : List String
  suggestedAction : String
  entryZone : Option String
  invalidationLevel : Option String
  stopReference : Option String
  takeProfitReference : Option String
  riskNote : String
  isExecutable : Bool
  metadata : List (String × Detail)

/-- What building suggestions reads from its environment. -/
structure SuggestionEnv where
  clock : Clock
  utcnow : Timestamp

/-- The modules on a side, and those on the other. -/
def SupportSummary.sides (support : SupportSummary) (direction : String) :
    List String × List String :=
  if direction = "long" then (support.longSupport, support.shortSupport)
  else (support.shortSupport, support.longSupport)

/-- A price range as a text. -/
def zoneText (low high : ℚ) : String := formatFixed 2 low ++ "-" ++ formatFixed 2 high

/-- The name of an action, as a printed field. -/
def actionText : Option ExecAction → String
  | none => "None"
  | some .buy => "BUY"
  | some .sell => "SELL"
  | some .flat => "FLAT"

/-- The summary leans to a side. -/
def SupportSummary.leans (support : SupportSummary) : Bool :=
  support.dominantDirection = "long" ∨ support.dominantDirection = "short"

/-- A bias with a side. -/
def sided (bias : Bias) : Bool := bias = .longBias ∨ bias = .shortBias

/-! ### The official suggestion -/

section Build

variable (env : SuggestionEnv) (symbol marketType : String) (decision : ArbitrationDecision)
  (plan : PositionPlan) (modules : List ModuleRunResult) (price : ℚ)

def officialSuggestion (support : SupportSummary) : Except RunError TradingSuggestion := do
  let direction := if decision.bias = .longBias then "long" else "short"
  let stopPrice := price * (if direction = "long" then 98 / 100 else 102 / 100)
  let takeProfit := price * (if direction = "long" then 104 / 100 else 96 / 100)
  let confidence ← check "TradingSuggestion.confidence" decision.confidence
  return {
    suggestionId := "ts-official-" ++ decision.decisionId
    symbol := symbol
    direction := direction
    grade := .official
    confidence := confidence
    reason := "Official arbitration bias passed the formal RiskEngine and produced an " ++
      "actionable execution plan."
    supportingSignals := (support.sides direction).1
    opposingSignals := (support.sides direction).2
    suggestedAction := actionText plan.execAction ++ " " ++ formatFixed 4 plan.finalQuantity.val
    entryZone := some (zoneText (price * (9975 / 10000)) (price * (10025 / 10000)))
    invalidationLevel := some (formatFixed 2 stopPrice)
    stopReference := some (formatFixed 2 stopPrice)
    takeProfitReference := some (formatFixed 2 takeProfit)
    riskNote := "Executable official trade. Follow the formal risk plan and execution plan only."
    isExecutable := true
    metadata := [("plan_id", .text plan.planId), ("decision_id", .text decision.decisionId)] }

/-! ### Trial suggestions -/

/-- A confidence cut to a range within the unit interval. -/
def boundedConfidence (low : ℚ) (nonneg : 0 ≤ low) (confidence : ℚ) : UnitRational :=
  ⟨min (max confidence low) (95 / 100),
    le_min (nonneg.trans (le_max_right _ _)) (by norm_num),
    (min_le_right _ _).trans (by norm_num)⟩

/-- The arbitration input of the WTI trial: one proposal of full weight. -/
def trialInput (support : SupportSummary) : ArbitrationInputBundle where
  timestamp := env.utcnow
  portfolioProposal :=
    { portfolioId := symbol ++ "-trial"
      proposals :=
        [{ proposalId := "wti-strategy-proposal"
           strategyId := "wti_momentum"
           bundles := [⟨symbol⟩]
           aggregateDirection := if support.dominantDirection = "long" then "LONG" else "SHORT"
           aggregateStrength := boundedConfidence (2 / 10) (by norm_num) support.dominantConfidence
           aggregateConfidence :=
             boundedConfidence (2 / 10) (by norm_num) support.dominantConfidence
           portfolioWeight := ⟨1, zero_le_one, le_rfl⟩ }] }

/-- The prices of a trial: the entry zone, the stop and the profit target. -/
def trialPrices (direction : String) : Option String × Option String × Option String :=
  (some (zoneText (price * (995 / 1000)) (price * (1005 / 1000))),
    some (formatFixed 2 (price * (if direction = "long" then 97 / 100 else 103 / 100))),
    some (formatFixed 2 (price * (if direction = "long" then 105 / 100 else 95 / 100))))

/-- `_build_wti_trial_suggestion`. -/
def buildWtiTrialSuggestion (support : SupportSummary) :
    Except RunError (Option TradingSuggestion) :=
  if symbol ≠ "CL=F" then .ok none
  else if support.leans = false then .ok none
  else
    let trialDecision := arbitratePortfolio env.clock (trialInput env symbol support) none
    if sided trialDecision.bias = false then .ok none
    else do
      let trialDirection := if trialDecision.bias = .longBias then "long" else "short"
      let (entryZone, stop, takeProfit) := trialPrices price trialDirection
      let confidence ← check "TradingSuggestion.confidence" trialDecision.confidence
      return some {
        suggestionId := "ts-wti-" ++ trialDirection
        symbol := symbol
        direction := trialDirection
        grade := .trial
        confidence := confidence
        reason := "WTI specialized strategy-pool proposal found directional bias, but official " ++
          "chain did not clear risk for auto execution."
        supportingSignals := (support.sides trialDirection).1
        opposingSignals := (support.sides trialDirection).2
        suggestedAction := "manual_review"
        entryZone := entryZone
        invalidationLevel := stop
        stopReference := stop
        takeProfitReference := takeProfit
        riskNote := "Trial suggestion only. It must not enter automatic execution."
        isExecutable := false
        metadata := [("strategy_id", .text "wti_momentum"),
          ("candidate_bias", .text trialDecision.bias.text)] }

def supportTrial (support : SupportSummary) : TradingSuggestion :=
  let direction := support.dominantDirection
  let (entryZone, stop, takeProfit) := trialPrices price direction
  { suggestionId := "ts-trial-" ++ direction ++ "-" ++ decision.decisionId
    symbol := symbol
    direction := direction
    grade := .trial
    confidence := boundedConfidence (1 / 10) (by norm_num) support.dominantConfidence
    reason := "Directional module support exists, but the official chain did not produce an " ++
      "executable trade."
    supportingSignals := (support.sides direction).1
    opposingSignals := (support.sides direction).2
    suggestedAction := "manual_review"
    entryZone := entryZone
    invalidationLevel := stop
    stopReference := stop
    takeProfitReference := takeProfit
    riskNote := "Trial idea only. It is not executable because the formal chain did not clear."
    isExecutable := false
    metadata := [("decision_bias", .text decision.bias.text), ("market_type", .text marketType)] }

/-! ### The watch, and the whole list -/

def watchSuggestion : TradingSuggestion where
  suggestionId := "ts-watch-" ++ decision.decisionId
  symbol := symbol
  direction := "neutral"
  grade := .watch
  confidence := UnitRational.zero
  reason := "No clean directional edge was confirmed by the current module mix."
  supportingSignals := []
  opposingSignals := []
  suggestedAction := "wait_for_confirmation"
  entryZone := none
  invalidationLevel := none
  stopReference := none
  takeProfitReference := none
  riskNote := "Watch only. Wait for stronger directional alignment and a non-vetoed official " ++
    "decision."
  isExecutable := false
  metadata := [("watch_triggers", .texts ["technical/chan alignment", "macro regime support",
    "risk plan becomes actionable"])]

/-- The plan trades: a positive quantity, and no veto. -/
def actionable : Bool := 0 < plan.finalQuantity.val ∧ plan.vetoTriggered = false

/-- `_build_suggestions`. -/
def buildSuggestions : Except RunError (List TradingSuggestion) := do
  let support := moduleSupportSummary modules
  let suggestions ←
    if actionable plan ∧ sided decision.bias then do
      let official ← officialSuggestion symbol decision plan price support
      pure [official]
    else do
      let wtiTrial ← buildWtiTrialSuggestion env symbol price support
      match wtiTrial with
      | some trial => pure [trial]
      | none =>
          if support.leans then pure [supportTrial symbol marketType decision price support]
          else pure []
  if suggestions.isEmpty then return [watchSuggestion symbol decision] else return suggestions

end Build

/-- The guard of the execution step in `run_live_pipeline`. -/
def runsExecution (plan : PositionPlan) : Bool :=
  plan.executionPlan.isSome ∧ 0 < plan.finalQuantity.val ∧ plan.vetoTriggered = false

/-! ## What is suggested -/

section Built

variable (env : SuggestionEnv) (symbol marketType : String) {decision : ArbitrationDecision}
  (plan : PositionPlan) (modules : List ModuleRunResult) (price : ℚ)

/-- A suggestion that nobody may execute. -/
def Advisory (suggestion : TradingSuggestion) : Prop :=
  suggestion.grade ≠ .official ∧ suggestion.isExecutable = false

theorem check_of_bounds {path : String} {q : ℚ} (bounds : 0 ≤ q ∧ q ≤ 1) :
    check (p := fun q => 0 ≤ q ∧ q ≤ 1) path q = .ok ⟨q, bounds⟩ := by
  unfold check
  rw [dif_pos bounds]

theorem officialSuggestion_spec (support : SupportSummary)
    (bounds : 0 ≤ decision.confidence ∧ decision.confidence ≤ 1) :
    ∃ official, officialSuggestion symbol decision plan price support = .ok official ∧
      official.grade = .official ∧ official.isExecutable = true := by
  unfold officialSuggestion
  rw [check_of_bounds bounds]
  exact ⟨_, rfl, rfl, rfl⟩

/-- The WTI trial never fails: a portfolio decision is well formed. -/
theorem buildWtiTrialSuggestion_spec (support : SupportSummary) :
    ∃ found, buildWtiTrialSuggestion env symbol price support = .ok found ∧
      ∀ trial ∈ found, Advisory trial := by
  have formed := wellFormed_arbitratePortfolio env.clock (trialInput env symbol support) none
  have silent : ∀ trial ∈ (none : Option TradingSuggestion), Advisory trial :=
    fun trial member => absurd member (Option.not_mem_none trial)
  rw [buildWtiTrialSuggestion]
  by_cases other : symbol ≠ "CL=F"
  · exact ⟨none, if_pos other, silent⟩
  rw [if_neg other]
  by_cases level : support.leans = false
  · exact ⟨none, if_pos level, silent⟩
  rw [if_neg level]
  dsimp only
  split
  · exact ⟨none, rfl, silent⟩
  · rw [check_of_bounds formed.confidence]
    refine ⟨some _, rfl, fun trial member => ?_⟩
    cases member
    exact ⟨nofun, rfl⟩

/-- **Exactly one suggestion is made**, and it is official exactly when the plan trades on a
side. -/
theorem buildSuggestions_spec
    (bounds : actionable plan = true → 0 ≤ decision.confidence ∧ decision.confidence ≤ 1) :
    ∃ suggestion,
      buildSuggestions env symbol marketType decision plan modules price = .ok [suggestion] ∧
        (actionable plan = true ∧ sided decision.bias = true ∧ suggestion.grade = .official ∧
            suggestion.isExecutable = true ∨
          ¬ (actionable plan = true ∧ sided decision.bias = true) ∧ Advisory suggestion) := by
  by_cases trades : actionable plan = true ∧ sided decision.bias = true
  · obtain ⟨official, made, grade, executable⟩ :=
      officialSuggestion_spec symbol plan price (moduleSupportSummary modules) (bounds trades.1)
    refine ⟨official, ?_, .inl ⟨trades.1, trades.2, grade, executable⟩⟩
    unfold buildSuggestions
    dsimp only
    rw [if_pos trades, made]
    rfl
  · obtain ⟨found, made, advisory⟩ :=
      buildWtiTrialSuggestion_spec env symbol price (moduleSupportSummary modules)
    unfold buildSuggestions
    dsimp only
    rw [if_neg trades, made]
    cases found with
    | some trial => exact ⟨trial, rfl, .inr ⟨trades, advisory trial rfl⟩⟩
    | none =>
        cases leans : (moduleSupportSummary modules).leans with
        | true => exact ⟨supportTrial symbol marketType decision price _, rfl,
            .inr ⟨trades, nofun, rfl⟩⟩
        | false => exact ⟨watchSuggestion symbol decision, rfl, .inr ⟨trades, nofun, rfl⟩⟩

end Built

/-! ## What is executed -/

section Executed

variable {engine : RiskEngine} {env : RiskEnv} {decision : ArbitrationDecision}
  {portfolio : Portfolio} {marketContext : Option MarketContext} {args : CallArgs}

/-- No position is open in the symbol. -/
def Unopened (args : CallArgs) : Prop :=
  args.existingDirection ≠ some .long ∧ args.existingDirection ≠ some .short

/-- The bias is one that the schema documents. -/
def Declared (bias : Bias) : Prop := bias.text ∈ arbitrationBiasOptions

theorem canonicalBias_of_declared (declared : Declared decision.bias) :
    canonicalBias decision = decision.bias := by
  have named : decision.bias.text ≠ "" := by
    intro empty
    rw [Declared, empty] at declared
    revert declared
    decide
  rw [canonicalBias, if_pos named]

/-- Without an open position there is nothing to exit or to reduce. -/
theorem not_routed_of_unopened (unopened : Unopened args) {bias : Bias}
    (closing : bias = .exitBias ∨ bias = .reduceRisk) (taken : Route) :
    route bias args.existingDirection ≠ .ok taken := by
  obtain ⟨notLong, notShort⟩ := unopened
  intro routed
  rcases closing with rfl | rfl
  all_goals
    cases existing : args.existingDirection with
    | none => simp [route, existing] at routed
    | some side =>
        cases side with
        | long => exact notLong existing
        | short => exact notShort existing
        | flat => simp [route, existing] at routed

/-- Without an open position only a bias with a side reaches the filters. -/
theorem sided_of_reached (declared : Declared decision.bias) (unopened : Unopened args)
    {order : SizedOrder}
    (reached : sizeOrder env decision portfolio marketContext args = .ok (.inr order)) :
    sided decision.bias = true := by
  obtain ⟨taken, sizing, routed, -, -, -⟩ := sizeOrder_eq_inr reached
  rw [canonicalBias_of_declared declared] at routed
  unfold sizeOrder at reached
  rw [canonicalBias_of_declared declared] at reached
  cases bias : decision.bias with
  | longBias => rfl
  | shortBias => rfl
  | noTrade => simp [bias] at reached
  | holdBias => simp [bias] at reached
  | exitBias => exact absurd routed (not_routed_of_unopened unopened (.inl bias) taken)
  | reduceRisk => exact absurd routed (not_routed_of_unopened unopened (.inr bias) taken)
  | other text unlisted =>
      rw [Declared, bias] at declared
      exact absurd declared unlisted

/-- A finished order has checked the confidence of its decision. -/
theorem confidence_of_finished {order : SizedOrder} {returned : PositionPlan}
    (finished : finishOrder engine env decision portfolio marketContext args order =
      .ok returned) : 0 ≤ decision.confidence ∧ decision.confidence ≤ 1 := by
  obtain ⟨filtered, _, rest⟩ := bind_eq_ok_iff.mp finished
  obtain ⟨positionPlan, built, _⟩ := bind_eq_ok_iff.mp rest
  obtain ⟨confidence, checked, _⟩ := bind_eq_ok_iff.mp built
  exact check_eq_ok_iff.mp checked ▸ confidence.property

/-- A returned plan with a positive quantity has an execution plan. -/
theorem runsExecution_eq {returned : PositionPlan}
    (planned : calculate engine env decision portfolio marketContext args = .ok returned) :
    runsExecution returned = actionable returned := by
  rw [runsExecution, actionable, decide_eq_decide]
  refine ⟨And.right, fun trades => ⟨?_, trades⟩⟩
  rcases calculate_cases planned with ⟨_, _, rfl⟩ | ⟨order, filtered, _, finished⟩
  · exact nomatch trades.2
  · obtain ⟨positionPlan, quantity, executed⟩ := finished.executionPlan
    rw [← Option.ne_none_iff_isSome, Ne, executionPlanOf_eq_none_iff executed, quantity]
    exact trades.1.ne'

/-- **The pipeline executes exactly what it calls official.** For a decision with a documented
bias and its plan without an open position, there is one suggestion; the execution step runs if and
only if the suggestion is official and executable, and never beside a trial or a watch. -/
theorem execution_matches_suggestion (declared : Declared decision.bias)
    (unopened : Unopened args) {returned : PositionPlan}
    (planned : calculate engine env decision portfolio marketContext args = .ok returned)
    (suggestionEnv : SuggestionEnv) (symbol marketType : String) (modules : List ModuleRunResult)
    (price : ℚ) :
    ∃ suggestion,
      buildSuggestions suggestionEnv symbol marketType decision returned modules price =
          .ok [suggestion] ∧
        (runsExecution returned = true ↔
          suggestion.grade = .official ∧ suggestion.isExecutable = true) ∧
        (suggestion.grade = .trial ∨ suggestion.grade = .watch →
          runsExecution returned = false) := by
  have trading : actionable returned = true →
      sided decision.bias = true ∧ 0 ≤ decision.confidence ∧ decision.confidence ≤ 1 := by
    intro trades
    obtain ⟨sized | order, stage, rest⟩ := bind_eq_ok_iff.mp planned
    · obtain ⟨_, _, zero⟩ := sizeOrder_zero stage
      cases rest
      rw [zero] at trades
      exact nomatch (of_decide_eq_true trades).2
    · exact ⟨sided_of_reached declared unopened stage, confidence_of_finished rest⟩
  obtain ⟨suggestion, built, cases⟩ := buildSuggestions_spec suggestionEnv symbol marketType
    returned modules price fun trades => (trading trades).2
  refine ⟨suggestion, built, ?_⟩
  rw [runsExecution_eq planned]
  rcases cases with ⟨trades, _, official, executable⟩ | ⟨still, advisory⟩
  · refine ⟨iff_of_true trades ⟨official, executable⟩, ?_⟩
    rw [official]
    rintro (trial | watch)
    · cases trial
    · cases watch
  · have idle : ¬ actionable returned = true := fun trades => still ⟨trades, (trading trades).1⟩
    refine ⟨iff_of_false idle fun executed => advisory.1 executed.1, fun _ => ?_⟩
    exact Bool.eq_false_iff.mpr idle

/-- The sample call is executed, and its suggestion is official. -/
theorem execution_matches_suggestion_sample :
    ∃ returned, sampleCall sampleArgs = .ok returned ∧ runsExecution returned = true ∧
      ∃ suggestion,
        buildSuggestions ⟨⟨0, 0, 0⟩, 0⟩ "AAPL" "equity" sampleDecision returned [] 100 =
            .ok [suggestion] ∧
          (runsExecution returned = true ↔
            suggestion.grade = .official ∧ suggestion.isExecutable = true) ∧
          (suggestion.grade = .trial ∨ suggestion.grade = .watch →
            runsExecution returned = false) := by
  obtain ⟨returned, called, executed⟩ :=
    exists_ok_of_read (sampleCall sampleArgs) runsExecution true (by with_unfolding_all decide)
  have unopened : Unopened sampleArgs := ⟨nofun, nofun⟩
  have declared : Declared sampleDecision.bias := by
    rw [Declared]
    decide
  exact ⟨returned, called, executed, execution_matches_suggestion declared unopened called
    ⟨⟨0, 0, 0⟩, 0⟩ "AAPL" "equity" [] 100⟩

end Executed

end TradeOS.Live
