import TradeOS.Api.Routes
import TradeOS.Risk.Totality

/-!
# The risk route

A request has no market data: the volume, the volatility and the Kelly rates of the call are
absent. So the size of an order is a share of the portfolio, cut to the position and to the
position limit (`tradeSize`), and of the limits only the loss of one trade can refuse it. The route
answers every request with that size, or with a veto that it explains (`calculateRisk_spec`).

The confidence scales the share, except at zero: an order of confidence zero has the size of the
position limit, twice the size of an order of full confidence.

The direction, the risk adjustment, the regime and the position cap of a request are never read
(`callRiskEngine_ignores`).
-/

set_option autoImplicit false

namespace TradeOS.Api

open Arbitration Risk Programs Numeric

/-! ## What the engine reads -/

section Reads

variable (env : RiskEnv) (utcnow : Timestamp) (req : RiskCalculateRequest)

theorem canonicalBias_decision : canonicalBias (req.decision utcnow) = req.bias.val := by
  have named : req.bias.val.text ≠ "" := by
    intro empty
    have listed := req.bias.property
    rw [empty] at listed
    exact absurd listed (by decide)
  exact if_pos named

/-- A decision matters to the engine for its bias, its confidence, its reason and its names. -/
theorem calculate_congr (engine : RiskEngine) {decision other : ArbitrationDecision}
    (portfolio : Portfolio) (marketContext : Option MarketContext) (args : CallArgs)
    (bias : canonicalBias decision = canonicalBias other)
    (confidence : decision.confidence = other.confidence)
    (reason : decision.noTradeReason = other.noTradeReason)
    (decisionId : decision.decisionId = other.decisionId)
    (symbol : decision.symbol = other.symbol) :
    calculate engine env decision portfolio marketContext args =
      calculate engine env other portfolio marketContext args := by
  have context : callContext env decision marketContext args =
      callContext env other marketContext args := by
    rw [callContext, callContext, symbol]
  have sized : sizeOrder env decision portfolio marketContext args =
      sizeOrder env other portfolio marketContext args := by
    unfold sizeOrder sizingInputs
    rw [bias, confidence, reason, decisionId, symbol, context]
  have finished : finishOrder engine env decision portfolio marketContext args =
      finishOrder engine env other portfolio marketContext args := by
    funext order
    unfold finishOrder filterArgs positionPlanOf executionPlanOf
    rw [confidence, reason, decisionId, symbol, context]
  unfold calculate
  rw [sized, finished]

/-- **The route reads neither the direction, the risk adjustment, the regime nor the position cap
of a request.** -/
theorem callRiskEngine_ignores (later : Timestamp) (direction target : Option RequestDirection)
    (riskAdjustment : UnitRational) (regime : Regime) (maxPositionPct : Option UnitRational)
    (timestamp : Option Timestamp) :
    callRiskEngine env later { req with
        direction := direction
        targetDirection := target
        riskAdjustment := riskAdjustment
        regime := regime
        maxPositionPct := maxPositionPct
        timestamp := timestamp } =
      callRiskEngine env utcnow req := by
  refine calculate_congr env {} _ none _ ?_ rfl rfl rfl rfl
  rw [canonicalBias_decision, canonicalBias_decision]

end Reads

/-! ## The size of an order -/

namespace RiskCalculateRequest

variable (req : RiskCalculateRequest)

/-- The price of the call: a cent at least. -/
def price : ℚ := max req.currentPrice.val minPrice

/-- The request exits or reduces a position. -/
def Closing : Prop := req.bias.val = .exitBias ∨ req.bias.val = .reduceRisk

instance : Decidable req.Closing := inferInstanceAs (Decidable (_ ∨ _))

/-- The share of the portfolio that an order starts from. -/
def share : ℚ := if 0 < req.confidence.val then 5 / 100 * req.confidence.val else 1

/-- The quantity of an order before the limits. -/
def wantedSize : ℚ :=
  let size := req.share * req.portfolioValue.val / req.price
  if req.Closing ∧ 0 < req.existingPosition then min size req.existingPosition else size

/-- The quantity of an order: what is wanted, cut to a tenth of the portfolio. -/
def tradeSize : ℚ := min req.wantedSize (req.portfolioValue.val * (1 / 10) / req.price)

/-- The request does not trade: its bias is idle, or it closes a position that is flat. -/
def Idle : Prop :=
  (req.bias.val = .noTrade ∨ req.bias.val = .holdBias) ∨
    (req.Closing ∧ req.existingDirection = .flat)

instance : Decidable req.Idle := inferInstanceAs (Decidable (_ ∨ _))

/-- The move from the entry price is worth more than two hundredths of the portfolio. -/
def LosesTooMuch : Prop :=
  0 < req.avgEntryPrice.val ∧
    2 / 100 < req.tradeSize * |req.price - req.avgEntryPrice.val| / req.portfolioValue.val

instance : Decidable req.LosesTooMuch := inferInstanceAs (Decidable (_ ∧ _))

/-- The route vetoes the request. -/
def Refused : Prop := req.Idle ∨ req.LosesTooMuch

instance : Decidable req.Refused := inferInstanceAs (Decidable (_ ∨ _))

variable {req}

theorem price_pos : 0 < req.price := lt_max_of_lt_right (by norm_num [minPrice])

theorem share_pos : 0 < req.share := by
  unfold share
  split
  · next confident => exact mul_pos (by norm_num) confident
  · exact zero_lt_one

theorem tradeSize_pos : 0 < req.tradeSize := by
  have value := req.portfolioValue.property
  have size : 0 < req.share * req.portfolioValue.val / req.price :=
    div_pos (mul_pos share_pos value) price_pos
  refine lt_min ?_ (div_pos (mul_pos value (by norm_num)) price_pos)
  unfold wantedSize
  split
  · next closing => exact lt_min size closing.2
  · exact size

end RiskCalculateRequest

section Call

variable {env : RiskEnv} {utcnow : Timestamp} {req : RiskCalculateRequest}

/-! ## The market of a request -/

section Market

variable (env utcnow req)

theorem context_volume :
    (callContext env (req.decision utcnow) none req.args).avgDailyVolume20d = 0 :=
  max_self 0

theorem context_volatility :
    (callContext env (req.decision utcnow) none req.args).realizedVol20d = 0 := by
  change min (max 0 0) 5 = (0 : ℚ)
  norm_num

theorem context_range : (callContext env (req.decision utcnow) none req.args).atr14 = 0 :=
  max_self 0

theorem no_volume : ¬ 0 < (callContext env (req.decision utcnow) none req.args).avgDailyVolume20d :=
  not_lt.mpr (context_volume env utcnow req).le

/-- An order moves a market without volume by nothing. -/
theorem no_impact (sqrt : ℚ → ℚ) (qty : ℚ) :
    impactBpsOf sqrt qty (callContext env (req.decision utcnow) none req.args) = 0 := by
  unfold impactBpsOf estimateSquareRootImpact
  rw [if_pos (.inl (not_lt.mp (no_volume env utcnow req)))]
  rfl

end Market

/-- A request trades exactly if the engine has a route for it. -/
theorem routed_iff_not_idle : Routed (req.decision utcnow) req.args ↔ ¬ req.Idle := by
  unfold Routed RiskCalculateRequest.Idle RiskCalculateRequest.Closing
  rw [canonicalBias_decision]
  change (_ ∧ ∃ taken, route req.bias.val (some req.existingDirection.direction) = .ok taken) ↔ _
  obtain ⟨⟨bias, listed⟩, rest⟩ : ∃ bias : RequestBias, bias = req.bias := ⟨_, rfl⟩
  rw [← rest]
  cases bias with
  | noTrade => simp
  | holdBias => simp
  | longBias => simp [route]
  | shortBias => simp [route]
  | reduceRisk => cases req.existingDirection <;> simp [route, RequestDirection.direction]
  | exitBias => cases req.existingDirection <;> simp [route, RequestDirection.direction]
  | other text unlisted => exact absurd listed unlisted

/-! ## The size of the call -/

theorem riskPerShare_request :
    riskPerShare (sizingInputs env (req.decision utcnow) req.portfolio none req.args) =
      req.price * (1 / 100) := by
  unfold riskPerShare
  have calm : ¬ 0 < (sizingInputs env (req.decision utcnow) req.portfolio none
      req.args).marketContext.atr14 := not_lt.mpr (context_range env utcnow req).le
  rw [if_neg calm]
  exact congrArg (req.price * ·) (max_self (1 / 100))

theorem sizedQuantity_request :
    sizedQuantity (sizingInputs env (req.decision utcnow) req.portfolio none req.args) =
      req.share * req.portfolioValue.val / req.price := by
  have calm : ¬ 0 < (sizingInputs env (req.decision utcnow) req.portfolio none
      req.args).marketContext.realizedVol20d := not_lt.mpr (context_volatility env utcnow req).le
  have kelly : kellyQuantity (sizingInputs env (req.decision utcnow) req.portfolio none
      req.args) = 0 := rfl
  unfold sizedQuantity RiskCalculateRequest.share
  rw [if_neg calm, kelly, if_neg (lt_irrefl 0), riskPerShare_request]
  change (if 0 < req.confidence.val then _ else _) = _
  split
  · change req.portfolioValue.val * baseFraction / req.price * req.confidence.val = _
    rw [baseFraction]
    ring
  · change req.portfolioValue.val * (1 / 100) / (req.price * (1 / 100)) = _
    rw [mul_div_mul_right _ _ (by norm_num), one_mul]

theorem orderQuantity_request :
    orderQuantity env (req.decision utcnow) req.portfolio none req.args = req.wantedSize := by
  unfold orderQuantity RiskCalculateRequest.wantedSize RiskCalculateRequest.Closing
  rw [sizedQuantity_request, canonicalBias_decision]
  rfl

theorem positionCap_request :
    positionCap defaultRiskLimits req.portfolioValue.val req.price =
      req.portfolioValue.val * (1 / 10) / req.price := by
  have price : max req.price minPrice = req.price := max_eq_left (le_max_right _ _)
  rw [positionCap, price]
  rfl

theorem callSize_request :
    callSize {} env (req.decision utcnow) req.portfolio none req.args = req.tradeSize := by
  have dry : ¬ 0 < (filterArgs env (req.decision utcnow) req.portfolio none req.args
      (orderSign (req.decision utcnow) req.args)).marketContext.avgDailyVolume20d :=
    no_volume env utcnow req
  unfold callSize tradedSize
  rw [if_neg fun liquid => dry liquid.1]
  unfold cappedSize
  dsimp only
  rw [if_neg dry, orderQuantity_request]
  change produced (FilterArgs.context _ defaultRiskLimits) correlationLimitFilter
    (min req.wantedSize (positionCap defaultRiskLimits req.portfolioValue.val req.price)) = _
  rw [positionCap_request]
  -- No correlation is known.
  exact produced_correlationLimit _ _ RiskCalculateRequest.tradeSize_pos

theorem sizeLeft_request :
    sizeLeft {} env (req.decision utcnow) req.portfolio none req.args = req.tradeSize := by
  have traded := @callSize_request env utcnow req
  have left : 0 < sizeLeft {} env (req.decision utcnow) req.portfolio none req.args := by
    rw [sizeLeft, ← not_le, filteredSize_nonpos_iff, not_le]
    exact RiskCalculateRequest.tradeSize_pos.trans_eq traded.symm
  exact (filteredSize_eq_tradedSize (cappedSize_pos left)).trans traded

/-- Only the loss of the trade can be too large. -/
theorem callRejected_request :
    CallRejected {} env (req.decision utcnow) req.portfolio none req.args ↔
      req.LosesTooMuch := by
  have checked : checkedQuantity {} env (req.decision utcnow) req.portfolio none req.args =
      req.tradeSize := by
    unfold checkedQuantity
    rw [orderQuantity_request]
    change min _ (positionCap defaultRiskLimits req.portfolioValue.val req.price) = _
    rw [positionCap_request]
    rfl
  unfold CallRejected LossRulesReject
  rw [checked]
  change ((0 < req.avgEntryPrice.val ∧ 0 < req.price ∧ 0 < req.portfolioValue.val ∧
    2 / 100 < req.tradeSize * |req.price - req.avgEntryPrice.val| / req.portfolioValue.val) ∨
      5 / 100 < (0 : ℚ) ∨ 15 / 100 ≤ (0 : ℚ)) ↔ _
  constructor
  · rintro (⟨entered, -, -, large⟩ | late | deep)
    · exact ⟨entered, large⟩
    · norm_num at late
    · norm_num at deep
  · rintro ⟨entered, large⟩
    exact .inl ⟨entered, RiskCalculateRequest.price_pos, req.portfolioValue.property, large⟩

/-- The prices of an order at a cent or more stay positive. -/
theorem pricesHold_request (direction : Direction) : PricesHold direction req.price 0 := by
  have cent : 1 / 100 ≤ req.price := le_max_right _ _
  have limit : limitFactor direction 0 = 1 := by
    unfold limitFactor
    split <;> norm_num
  have digits := le_roundTo_of_le 2 (q := req.price) 1 (by norm_num; exact cent)
  have rounded : 1 / 100 ≤ roundTo 2 req.price := le_trans (by norm_num) digits
  have factor : 99 / 100 ≤ worstFactor direction 0 := by
    unfold worstFactor
    split <;> norm_num
  constructor
  · rw [movedLimit, limit]
    linarith
  · rw [movedWorst, movedLimit, limit, mul_one]
    calc (1 : ℚ) / 200 < 1 / 100 * (99 / 100) := by norm_num
      _ ≤ roundTo 2 req.price * worstFactor direction 0 :=
          mul_le_mul rounded factor (by norm_num) (le_trans (by norm_num) rounded)

theorem openingHolds_request (sqrt : ℚ → ℚ) (direction : Direction) (size : ℚ) :
    OpeningHolds sqrt direction (callContext env (req.decision utcnow) none req.args) "medium"
      size := by
  unfold OpeningHolds
  rw [no_impact, context_volatility]
  constructor
  · exact fun _ => pricesHold_request direction
  · intro slicing
    have limit : openingAlgorithm 0 0 "medium" = .limit := by
      unfold openingAlgorithm
      norm_num
      exact fun same => absurd same (by decide)
    exact absurd limit slicing.2.1

/-! ## The plan of the call -/

theorem sizeOrder_unrouted {decision : ArbitrationDecision} {portfolio : Portfolio}
    {marketContext : Option MarketContext} {args : CallArgs} (unrouted : ¬ Routed decision args) :
    ∃ zero, sizeOrder env decision portfolio marketContext args = .ok (.inl zero) := by
  unfold sizeOrder
  dsimp only
  by_cases idle : canonicalBias decision = .noTrade ∨ canonicalBias decision = .holdBias
  · rw [if_pos idle]
    exact ⟨_, rfl⟩
  · rw [if_neg idle]
    cases routing : route (canonicalBias decision) args.existingDirection with
    | error reason => exact ⟨_, rfl⟩
    | ok taken => exact absurd ⟨idle, taken, routing⟩ unrouted

variable (utcnow req) in
/-- The engine plans every request: nothing if the route refuses it, its size otherwise. -/
theorem callRiskEngine_spec (rooted : ∀ q, 0 ≤ q → 0 ≤ env.planning.sqrt q) :
    ∃ returned, callRiskEngine env utcnow req = .ok returned ∧
      (returned.vetoTriggered = true ↔ req.Refused) ∧
      returned.finalQuantity.val = (if req.Refused then 0 else req.tradeSize) ∧
      (¬ req.Refused → returned.executionPlan.isSome = true) := by
  have valid := validMarket_callContext exactPrecise env (req.decision utcnow) req.args
  by_cases idle : req.Idle
  · have stops : ∃ zero, sizeOrder env (req.decision utcnow) req.portfolio none req.args =
        .ok (.inl zero) := sizeOrder_unrouted fun routed => routed_iff_not_idle.mp routed idle
    obtain ⟨zero, stopped⟩ := stops
    have ran : callRiskEngine env utcnow req = .ok zero := by
      unfold callRiskEngine calculate
      rw [stopped]
      rfl
    have refused : req.Refused := .inl idle
    obtain ⟨price, reason, rfl⟩ := sizeOrder_zero stopped
    rw [if_pos refused]
    exact ⟨_, ran, iff_of_true rfl refused, rfl, fun accepted => absurd refused accepted⟩
  have routed : Routed (req.decision utcnow) req.args := routed_iff_not_idle.mpr idle
  have sizing : Returns (sizeOrder env (req.decision utcnow) req.portfolio none req.args)
      fun _ => True :=
    (returns_sizeOrder_iff exactPrecise valid.price).mpr fun _ =>
      .inr fun undefined => undefined.1 rfl
  obtain ⟨stage, sized, -⟩ := sizing
  obtain ⟨order, rfl⟩ :=
    sizeOrder_reaches exactPrecise valid.price (not_or.mp routed.1) routed.2.choose_spec sized
  have finishes : Returns (finishOrder {} env (req.decision utcnow) req.portfolio none req.args
      order) fun _ => True :=
    (returns_finishOrder_iff exactPrecise valid rooted req.confidence.property sized).mpr
      fun _ _ _ => openingHolds_request _ _ _
  obtain ⟨returned, finished, -⟩ := finishes
  have ran : callRiskEngine env utcnow req = .ok returned := by
    unfold callRiskEngine calculate
    rw [sized]
    exact finished
  obtain ⟨filtered, done⟩ := finishOrder_eq_ok finished
  obtain ⟨other, filters, vetoed, size⟩ := runFilters_call exactPrecise valid {} sized
  obtain rfl : other = filtered := Except.ok.inj (filters.symm.trans done.filters)
  rw [sizeLeft_request, callRejected_request] at vetoed
  rw [sizeLeft_request] at size
  have refused : req.Refused ↔ other.veto = true := by
    rw [vetoed, or_iff_left (not_le.mpr RiskCalculateRequest.tradeSize_pos)]
    exact or_iff_right idle
  refine ⟨returned, ran, ?_, ?_, ?_⟩
  · rw [done.vetoTriggered, refused]
  · rw [done.finalQuantity, if_congr refused rfl rfl]
    split
    · rfl
    · next passes => exact size (Bool.eq_false_of_not_eq_true passes)
  · intro accepted
    have passes : other.veto = false := Bool.eq_false_of_not_eq_true (refused.not.mp accepted)
    obtain ⟨-, -, -, made, planned, -⟩ := calculate_traded ran (done.vetoTriggered.trans passes)
    rw [planned]
    rfl

end Call

/-! ## Explanations -/

section Explanations

variable {engine : RiskEngine} {env : RiskEnv} {decision : ArbitrationDecision}
  {portfolio : Portfolio} {marketContext : Option MarketContext} {args : CallArgs}
  {returned : PositionPlan}

theorem route_reason {bias : Bias} {existing : Option Direction} {reason : String}
    (unrouted : route bias existing = .error reason) : reason ≠ "" := by
  unfold route at unrouted
  split at unrouted
  · cases unrouted
  · cases unrouted
  · split at unrouted <;> cases unrouted
    decide
  · split at unrouted <;> cases unrouted
    decide
  · cases unrouted

/-- A zero plan says why. -/
theorem sizeOrder_reason
    (stopped : sizeOrder env decision portfolio marketContext args = .ok (.inl returned)) :
    ∃ reason, returned.vetoReasons = [reason] ∧ reason ≠ "" := by
  unfold sizeOrder at stopped
  dsimp only at stopped
  split at stopped
  · cases stopped
    refine ⟨_, rfl, ?_⟩
    split
    · decide
    · next given => exact given
  · split at stopped
    · next reason unrouted =>
        cases stopped
        exact ⟨reason, rfl, route_reason unrouted⟩
    · obtain ⟨sizing, -, rest⟩ := bind_eq_ok_iff.mp stopped
      split at rest
      · cases rest
        refine ⟨_, rfl, fun empty => ?_⟩
        have letters := congrArg String.length empty
        rw [String.length_append] at letters
        exact absurd letters (by simp)
      · cases rest

theorem collectVetoReasons_head {decisionReason vetoReason : Option String} {reason : String}
    (raised : vetoReason = some reason) (named : reason ≠ "") :
    ∃ head ∈ (collectVetoReasons decisionReason vetoReason).head?, head ≠ "" := by
  have reasons : ∀ item ∈ collectVetoReasons decisionReason vetoReason, item ≠ "" := by
    intro item member
    unfold collectVetoReasons at member
    rw [raised] at member
    dsimp only at member
    split at member
    · rcases List.mem_append.mp member with old | new
      · exact of_decide_eq_true (List.mem_filter.mp old).2
      · exact List.mem_singleton.mp new ▸ named
    · exact of_decide_eq_true (List.mem_filter.mp member).2
  cases listed : collectVetoReasons decisionReason vetoReason with
  | nil =>
      unfold collectVetoReasons at listed
      rw [raised] at listed
      dsimp only at listed
      split at listed
      · exact absurd listed (by simp)
      · next known =>
          rw [listed] at known
          exact absurd ⟨named, List.not_mem_nil⟩ known
  | cons head rest => exact ⟨head, rfl, reasons head (by rw [listed]; exact List.mem_cons_self ..)⟩

/-- A vetoed plan has a first reason. -/
theorem vetoReasons_head (ran : calculate engine env decision portfolio marketContext args =
    .ok returned) (veto : returned.vetoTriggered = true) :
    ∃ reason ∈ returned.vetoReasons.head?, reason ≠ "" := by
  obtain ⟨zero | order, sized, rest⟩ := bind_eq_ok_iff.mp ran
  · cases rest
    obtain ⟨reason, alone, named⟩ := sizeOrder_reason sized
    exact ⟨reason, by rw [alone]; rfl, named⟩
  · obtain ⟨filtered, finished⟩ := finishOrder_eq_ok rest
    rw [finished.vetoReasons]
    rcases (runFilters_veto finished.filters).1 with ⟨passes, -⟩ | ⟨-, reason, raised, named⟩
    · rw [finished.vetoTriggered, passes] at veto
      cases veto
    · exact collectVetoReasons_head raised named

/-- **The view of a plan says why it is vetoed, and only then.** -/
theorem vetoView_spec (ran : calculate engine env decision portfolio marketContext args =
    .ok returned) :
    if returned.vetoTriggered then
      ∃ reason, (vetoView returned).reason = some reason ∧ reason ≠ "" ∧
        (vetoView returned).source.isSome
    else vetoView returned = {} := by
  unfold vetoView
  split
  · next veto =>
      split
      · next lc failed =>
          refine ⟨_, rfl, ?_, rfl⟩
          split
          · intro empty
            have letters := congrArg String.length empty
            rw [String.length_append] at letters
            exact absurd letters (by simp)
          · next given => exact given
      · obtain ⟨reason, first, named⟩ := vetoReasons_head ran veto
        rw [Option.mem_def.mp first]
        dsimp only
        rw [if_neg named]
        exact ⟨reason, rfl, named, rfl⟩
  · rfl

end Explanations

theorem longBias_mem : Bias.longBias.text ∈ arbitrationBiasOptions := by decide

theorem one_mem_unit : (0 : ℚ) ≤ 1 ∧ (1 : ℚ) ≤ 1 := ⟨zero_le_one, le_rfl⟩

theorem samplePortfolio_pos : (0 : ℚ) < 100000 := by norm_num

theorem samplePrice_pos : (0 : ℚ) < 100 := by norm_num

theorem sampleEntry_nonneg : (0 : ℚ) ≤ 50 := by norm_num

/-- An order for a tenth of the portfolio, entered at half the price. -/
def sampleRequest : RiskCalculateRequest where
  decisionId := "arb-AAPL"
  symbol := "AAPL"
  bias := ⟨.longBias, longBias_mem⟩
  confidence := UnitRational.zero
  riskAdjustment := ⟨1, one_mem_unit⟩
  portfolioValue := ⟨100000, samplePortfolio_pos⟩
  currentPrice := ⟨100, samplePrice_pos⟩
  avgEntryPrice := ⟨50, sampleEntry_nonneg⟩

theorem sampleSqrt_nonneg (q : ℚ) : 0 ≤ sampleSqrt q :=
  div_nonneg (Nat.cast_nonneg _) (Nat.cast_nonneg _)

end TradeOS.Api
