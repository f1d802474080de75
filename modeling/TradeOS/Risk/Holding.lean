import TradeOS.Risk.Verdict

/-!
# Orders against the held position

Two promises about the position that a call is told about. An exit or a reduction
should not trade more than is held, and a position limit should count what is
held already.

The clamp of an exit looks only at a positive quantity, so a short position with
its negative quantity is not clamped (`reduction_within_iff`). The position limit
filter compares the order alone with the limit, so equal orders add up past it
(`position_limit_iff`). Both conditions are one predicate on the inputs: no bound
on the size of the order is at most a given quantity (`Exceeds`).
-/

set_option autoImplicit false

namespace TradeOS.Risk

open TradeOS.Chain TradeOS.Numeric

/-! ## The size of an order, bound by bound -/

section Size

variable (limits : RiskLimits) (args : FilterArgs)

/-- The share of an order that a breach of the correlation limit leaves; none
without a breach. -/
def correlationShare (context : FilterContext) : Option ℚ :=
  (resolvedCorrelation context).bind fun resolved =>
    if limits.maxCorrelation.val ≤ 0 ∨ |resolved| ≤ limits.maxCorrelation.val ∨
        sameDirection context = false then none
    else some (reductionRatio limits.maxCorrelation.val |resolved|)

/-- A quantity scaled to a share of it, with the six digits of the correlation
filter. -/
def decorrelated (share : Option ℚ) (qty : ℚ) : ℚ :=
  share.elim qty fun ratio => roundTo 6 (qty * ratio)

theorem reductionRatio_nonneg (maxCorr absCorr : ℚ) : 0 ≤ reductionRatio maxCorr absCorr :=
  le_max_of_le_left (by norm_num)

/-- The correlation filter in closed form. A rejection is a rounding to zero. -/
theorem produced_correlationLimit {qty : ℚ} (positive : 0 < qty) :
    produced (args.context limits) correlationLimitFilter qty =
      decorrelated (correlationShare limits (args.context limits)) qty := by
  rw [produced, apply_of_pos _ _ positive]
  simp only [correlationLimitFilter, correlationShare]
  show (if limits.maxCorrelation.val ≤ 0 then _ else _ : FilterResult).adjustedQty = _
  by_cases disabled : limits.maxCorrelation.val ≤ 0
  · rw [if_pos disabled]
    cases resolvedCorrelation (args.context limits) with
    | none => rfl
    | some resolved => simp [disabled, decorrelated, FilterResult.kept]
  · rw [if_neg disabled]
    cases resolvedCorrelation (args.context limits) with
    | none => rfl
    | some resolved =>
        simp only [Option.bind_some, disabled, false_or]
        by_cases small : |resolved| ≤ limits.maxCorrelation.val
        · simp [small, decorrelated, FilterResult.kept]
        · cases same : sameDirection (args.context limits) with
          | false => simp [small, decorrelated, FilterResult.kept]
          | true =>
              have rounded : 0 ≤ roundTo 6
                  (qty * reductionRatio limits.maxCorrelation.val |resolved|) :=
                roundTo_nonneg 6 (mul_nonneg positive.le (reductionRatio_nonneg _ _))
              simp only [small, decorrelated, if_false, Bool.not_true, Bool.false_eq_true,
                Bool.true_eq_false, or_self, Option.elim_some]
              split
              · rename_i zero
                exact le_antisymm rounded zero
              · rfl

/-- A quantity of at most six digits stays a bound after the correlation limit. -/
theorem decorrelated_le (context : FilterContext) {qty : ℚ} (nonneg : 0 ≤ qty) (n : ℤ)
    (below : qty ≤ n / 10 ^ 6) : decorrelated (correlationShare limits context) qty ≤ n / 10 ^ 6 := by
  cases share : correlationShare limits context with
  | none => exact below
  | some ratio =>
      obtain ⟨resolved, _, scaled⟩ := Option.bind_eq_some_iff.mp share
      split at scaled
      · cases scaled
      · rename_i breached
        have small : ratio ≤ 1 :=
          Option.some.inj scaled ▸
            reductionRatio_le_one (not_le.mp (not_or.mp (not_or.mp breached).2).1)
        refine roundTo_le_of_le 6 n ?_
        calc qty * ratio ≤ qty * 1 := mul_le_mul_of_nonneg_left small nonneg
          _ = qty := mul_one qty
          _ ≤ n / 10 ^ 6 := below

/-- Every bound on the size of an order is above `held`: the order, cut to the
position limit and by the correlation limit, the liquidity share of the daily
volume, and a tenth of the daily dollar volume. -/
structure Exceeds (order held : ℚ) : Prop where
  order : held < decorrelated (correlationShare limits (args.context limits))
    (min order (positionCap limits args.equity args.currentPrice))
  liquidity : 0 < args.marketContext.avgDailyVolume20d →
    held < args.marketContext.avgDailyVolume20d * liquidityShare (some limits)
  participation : 0 < args.marketContext.avgDailyVolume20d →
    0 < args.marketContext.currentPrice →
    held < args.marketContext.adv20dUsd * (1 / 10) / args.marketContext.currentPrice

theorem positionCap_pos (arith : PreciseRounding) {equity : ℚ} (price : ℚ) (positive : 0 < equity) :
    0 < positionCap limits equity price arith.toRounding := by
  have limit := arith.pos limits.maxPositionPct.property.1
  have least : 0 < arith.toRounding minPrice := arith.pos (by norm_num [minPrice])
  exact arith.pos (div_pos (arith.pos (mul_pos positive limit)) (lt_max_of_lt_right least))

variable {limits args}

/-- The bounds decide whether the filters leave more than `held`. -/
theorem lt_tradedSize_iff {order held : ℚ} (positive : 0 < order) (equity : 0 < args.equity) :
    held < tradedSize limits args order ↔ Exceeds limits args order held := by
  have cut : 0 < min order (positionCap limits args.equity args.currentPrice) :=
    lt_min positive (positionCap_pos limits exactPrecise args.currentPrice equity)
  have capped : held < cappedSize limits args order ↔
      held < decorrelated (correlationShare limits (args.context limits))
          (min order (positionCap limits args.equity args.currentPrice)) ∧
        (0 < args.marketContext.avgDailyVolume20d →
          held < args.marketContext.avgDailyVolume20d * liquidityShare (some limits)) := by
    simp only [cappedSize]
    rw [produced_correlationLimit limits args cut]
    split
    · rename_i traded
      simp [traded]
    · rename_i untraded
      simp [untraded]
  have size : held < tradedSize limits args order ↔
      held < cappedSize limits args order ∧
        (0 < args.marketContext.avgDailyVolume20d → 0 < args.marketContext.currentPrice →
          held < args.marketContext.adv20dUsd * (1 / 10) / args.marketContext.currentPrice) := by
    unfold tradedSize
    split
    · rename_i traded
      simp [traded.1, traded.2]
    · rename_i untraded
      exact (and_iff_left fun volume price => absurd ⟨volume, price⟩ untraded).symm
  rw [size, capped]
  exact ⟨fun bounds => ⟨bounds.1.1, bounds.1.2, bounds.2⟩,
    fun exceeds => ⟨⟨exceeds.order, exceeds.liquidity⟩, exceeds.participation⟩⟩

end Size

section Call

variable (engine : RiskEngine) (env : RiskEnv) (decision : ArbitrationDecision)
  (portfolio : Portfolio) (marketContext : Option MarketContext) (args : CallArgs)

/-- Every bound on the order of a call is above `held`. -/
def OrderExceeds (held : ℚ) : Prop :=
  Exceeds engine.riskLimits
    (filterArgs env decision portfolio marketContext args (orderSign decision args))
    (orderQuantity env decision portfolio marketContext args) held

variable {engine env decision portfolio marketContext args}

theorem orderQuantity_pos
    (price : 0 < (callContext env decision marketContext args).currentPrice) :
    0 < orderQuantity env decision portfolio marketContext args := by
  have size : 0 < sizedQuantity (sizingInputs env decision portfolio marketContext args) :=
    sizedQuantity_pos exactPrecise price portfolio.totalEquity.property
      (show (0 : ℚ) < 15 / 100 by norm_num)
  simp only [orderQuantity]
  split
  · rename_i clamped
    exact lt_min size clamped.2
  · exact size

theorem lt_callSize_iff (price : 0 < (callContext env decision marketContext args).currentPrice)
    (held : ℚ) :
    held < callSize engine env decision portfolio marketContext args ↔
      OrderExceeds engine env decision portfolio marketContext args held :=
  lt_tradedSize_iff (orderQuantity_pos price) portfolio.totalEquity.property

/-- A veto sets the quantity to zero. -/
theorem calculate_final_of_veto {returned : PositionPlan}
    (ran : calculate engine env decision portfolio marketContext args = .ok returned)
    (veto : returned.vetoTriggered = true) : returned.finalQuantity.val = 0 := by
  rcases calculate_cases ran with ⟨price, reason, rfl⟩ | ⟨order, filtered, _, finished⟩
  · rfl
  · rw [finished.finalQuantity, ← finished.vetoTriggered, veto]
    rfl

end Call

/-! ## Exits and reductions -/

section Reduction

variable (engine : RiskEngine) (env : RiskEnv) (decision : ArbitrationDecision)
  (portfolio : Portfolio) (marketContext : Option MarketContext) (args : CallArgs)

/-- **When an exit or a reduction trades at most what is held.** With a positive
price and no rejection by the loss rules, some bound on the order has to be at
most the held quantity. A positive quantity is such a bound, up to the six digits
of the correlation filter; for a quantity that is zero or negative the order is
not clamped. -/
theorem reduction_within_iff (reducing : Reducing decision args) (returned : PositionPlan)
    (ran : calculate engine env decision portfolio marketContext args = .ok returned) :
    returned.finalQuantity.val ≤ |args.existingPositionQty| ↔
      (0 < (callContext env decision marketContext args).currentPrice →
        ¬ CallRejected engine env decision portfolio marketContext args →
        ¬ OrderExceeds engine env decision portfolio marketContext args
          |args.existingPositionQty|) := by
  cases veto : returned.vetoTriggered with
  | true =>
      have none : returned.finalQuantity.val ≤ |args.existingPositionQty| := by
        rw [calculate_final_of_veto ran veto]
        exact abs_nonneg _
      refine iff_of_true none ?_
      intro price accepted exceeds
      rcases (calculate_veto_iff reducing price ran).mp veto with rejected | empty
      · exact accepted rejected
      · have more := (lt_callSize_iff price |args.existingPositionQty|).mpr exceeds
        exact absurd (more.trans_le empty) (not_lt.mpr (abs_nonneg _))
  | false =>
      obtain ⟨price, size, _⟩ := calculate_size ran veto
      have accepted : ¬ CallRejected engine env decision portfolio marketContext args := by
        intro rejected
        have flagged := (calculate_veto_iff reducing price ran).mpr (.inl rejected)
        rw [veto] at flagged
        cases flagged
      rw [size, ← not_lt, lt_callSize_iff price]
      exact ⟨fun within _ _ => within, fun within => within price accepted⟩

/-- A positive quantity of at most six digits is never exceeded. -/
theorem reduction_within_of_digits (reducing : Reducing decision args)
    (price : 0 < (callContext env decision marketContext args).currentPrice) (n : ℤ)
    (digits : args.existingPositionQty = n / 10 ^ 6) (held : 0 < args.existingPositionQty) :
    ¬ OrderExceeds engine env decision portfolio marketContext args
      |args.existingPositionQty| := by
  intro exceeds
  have clamped : orderQuantity env decision portfolio marketContext args ≤
      args.existingPositionQty := by
    simp only [orderQuantity]
    rw [if_pos ⟨reducing.bias, held⟩]
    exact min_le_right _ _
  have cap := positionCap_pos engine.riskLimits exactPrecise
    (callContext env decision marketContext args).currentPrice portfolio.totalEquity.property
  have cut : 0 ≤ checkedQuantity engine env decision portfolio marketContext args :=
    le_min (orderQuantity_pos price).le cap.le
  have below : checkedQuantity engine env decision portfolio marketContext args ≤ n / 10 ^ 6 :=
    (min_le_left _ _).trans (clamped.trans_eq digits)
  have within := decorrelated_le engine.riskLimits
    ((filterArgs env decision portfolio marketContext args (orderSign decision args)).context
      engine.riskLimits) cut n below
  have more := exceeds.order
  rw [abs_of_pos held, digits] at more
  exact absurd more (not_lt.mpr within)

end Reduction

theorem reduction_within_sample :
    ∃ returned, exitCall exitArgs = .ok returned ∧ returned.finalQuantity.val ≤ |50| := by
  obtain ⟨returned, ran, _⟩ := exists_ok_of_read (exitCall exitArgs)
    (fun plan => plan.vetoTriggered) false (by with_unfolding_all decide)
  refine ⟨returned, ran, (reduction_within_iff {} sampleEnv exitDecision samplePortfolio none
    exitArgs ⟨.inl rfl, .inl rfl⟩ returned ran).mpr fun _ _ exceeds => ?_⟩
  exact absurd exceeds.order (by with_unfolding_all decide)

/-- The exit of a short position of 50 shares. -/
def coverArgs : CallArgs :=
  { sampleArgs with existingPositionQty := -50, existingDirection := some .short }

/-- The cover of 50 shares sold short buys 100. -/
theorem cover_exceeds_held :
    ∃ returned, exitCall coverArgs = .ok returned ∧ Reducing exitDecision coverArgs ∧
      returned.finalQuantity.val = 100 ∧
      ¬ returned.finalQuantity.val ≤ |coverArgs.existingPositionQty| := by
  obtain ⟨returned, ran, quantity⟩ := exists_ok_of_read (exitCall coverArgs)
    (fun plan => plan.finalQuantity.val) 100 (by with_unfolding_all decide)
  refine ⟨returned, ran, ⟨.inl rfl, .inr rfl⟩, quantity, ?_⟩
  rw [quantity]
  with_unfolding_all decide

/-! ## Orders that add to a position -/

/-- A call with what it is given and what it returns. -/
structure PlannedCall where
  env : RiskEnv
  decision : ArbitrationDecision
  portfolio : Portfolio
  marketContext : Option MarketContext := none
  args : CallArgs
  returned : PositionPlan

/-- A call adds to a position of `held` shares on one side: it is told of that
position, it opens in its direction, and it returns a plan without a veto. -/
structure Adds (engine : RiskEngine) (side : Direction) (price equity held : ℚ)
    (call : PlannedCall) : Prop where
  bias : (side = .long ∧ canonicalBias call.decision = .longBias) ∨
    (side = .short ∧ canonicalBias call.decision = .shortBias)
  direction : call.args.existingDirection = some side
  quantity : |call.args.existingPositionQty| = held
  price : (callContext call.env call.decision call.marketContext call.args).currentPrice = price
  equity : call.portfolio.totalEquity.val = equity
  ran : calculate engine call.env call.decision call.portfolio call.marketContext call.args =
    .ok call.returned
  noVeto : call.returned.vetoTriggered = false

/-- The position after a plan is traded. -/
def traded (call : PlannedCall) (held : ℚ) : ℚ := held + call.returned.finalQuantity.val

/-- What the position limit leaves beside a held quantity. -/
def positionRoom (limits : RiskLimits) (price equity held : ℚ) : ℚ :=
  limits.maxPositionPct.val * equity / price - held

/-- Every bound on the order of a call is above the room that the position limit
leaves. -/
def ExceedsRoom (engine : RiskEngine) (price equity : ℚ) (s : Step PlannedCall ℚ) : Prop :=
  OrderExceeds engine s.stage.env s.stage.decision s.stage.portfolio s.stage.marketContext
    s.stage.args (positionRoom engine.riskLimits price equity s.before)

/-- One plan keeps the position within the limit exactly when a bound on its order
is within the room. -/
theorem traded_within_iff {engine : RiskEngine} {side : Direction} {price equity held : ℚ}
    {call : PlannedCall} (adds : Adds engine side price equity held call) :
    traded call held * price ≤ engine.riskLimits.maxPositionPct.val * equity ↔
      ¬ ExceedsRoom engine price equity ⟨call, held, traded call held⟩ := by
  obtain ⟨positive, size, _⟩ := calculate_size adds.ran adds.noVeto
  have priced : 0 < price := adds.price ▸ positive
  rw [ExceedsRoom, ← lt_callSize_iff positive, ← size, not_lt, positionRoom, le_sub_iff_add_le,
    le_div_iff₀ priced, traded, add_comm]

section Run

variable (engine : RiskEngine) (side : Direction) (price equity : ℚ)

/-- Every position of a run is within the limit exactly when every plan finds room
for its order. -/
theorem within_iff_room (calls : List PlannedCall) (held : ℚ)
    (adds : ∀ s ∈ steps traded calls held, Adds engine side price equity s.before s.stage) :
    (∀ s ∈ steps traded calls held,
        s.after * price ≤ engine.riskLimits.maxPositionPct.val * equity) ↔
      ∀ s ∈ steps traded calls held, ¬ ExceedsRoom engine price equity s := by
  induction calls generalizing held with
  | nil => simp
  | cons call calls ih =>
      rw [steps_cons, List.forall_mem_cons] at adds
      rw [steps_cons, List.forall_mem_cons, List.forall_mem_cons, traded_within_iff adds.1,
        ih _ adds.2]

/-- A run that starts within a limit stays within it exactly when every step keeps
the limit. -/
theorem within_iff_keeps (limit : ℚ) (calls : List PlannedCall) (held : ℚ)
    (start : held * price ≤ limit) :
    (∀ s ∈ steps traded calls held, s.after * price ≤ limit) ↔
      ∀ s ∈ steps traded calls held, s.before * price ≤ limit → s.after * price ≤ limit := by
  constructor
  · exact fun within s member _ => within s member
  · intro keeps
    induction calls generalizing held with
    | nil => simp
    | cons call calls ih =>
        rw [steps_cons, List.forall_mem_cons] at keeps ⊢
        have next := keeps.1 start
        exact ⟨next, ih _ next keeps.2⟩

/-- **A run of plans on one side keeps the position limit exactly when every plan
finds room for its order beside what is held.** The filter itself leaves room for
the order alone. -/
theorem position_limit_iff (calls : List PlannedCall) (held : ℚ)
    (adds : ∀ s ∈ steps traded calls held, Adds engine side price equity s.before s.stage)
    (start : held * price ≤ engine.riskLimits.maxPositionPct.val * equity) :
    ((∀ s ∈ steps traded calls held,
          s.before * price ≤ engine.riskLimits.maxPositionPct.val * equity →
            s.after * price ≤ engine.riskLimits.maxPositionPct.val * equity) ↔
        ∀ s ∈ steps traded calls held, ¬ ExceedsRoom engine price equity s) ∧
      ((∀ s ∈ steps traded calls held,
          s.after * price ≤ engine.riskLimits.maxPositionPct.val * equity) ↔
        ∀ s ∈ steps traded calls held, ¬ ExceedsRoom engine price equity s) := by
  have room := within_iff_room engine side price equity calls held adds
  refine ⟨?_, room⟩
  rw [← within_iff_keeps price _ calls held start]
  exact room

end Run

/-- A thin stock, of which an order takes 20 shares, with a long position. -/
def thinHeldArgs (held : ℚ) : CallArgs :=
  { sampleArgs with
    avgDailyVolume20d := 200
    existingPositionQty := held
    existingDirection := some .long }

/-- Two plans of 20 shares find room. -/
theorem position_limit_sample :
    ∃ first second, sampleCall (thinHeldArgs 0) = .ok first ∧
      sampleCall (thinHeldArgs 20) = .ok second ∧
      ∀ s ∈ steps traded
          [⟨sampleEnv, sampleDecision, samplePortfolio, none, thinHeldArgs 0, first⟩,
            ⟨sampleEnv, sampleDecision, samplePortfolio, none, thinHeldArgs 20, second⟩] 0,
        s.after * 100 ≤ defaultRiskLimits.maxPositionPct.val * 100000 := by
  obtain ⟨first, ran, read⟩ := exists_ok_of_read (sampleCall (thinHeldArgs 0))
    (fun plan => (plan.vetoTriggered, plan.finalQuantity.val)) (false, 20)
    (by with_unfolding_all decide)
  obtain ⟨second, reran, reread⟩ := exists_ok_of_read (sampleCall (thinHeldArgs 20))
    (fun plan => plan.vetoTriggered) false (by with_unfolding_all decide)
  obtain ⟨noVeto, quantity⟩ := Prod.mk.inj read
  have room : ¬ OrderExceeds {} sampleEnv sampleDecision samplePortfolio none (thinHeldArgs 0)
      (positionRoom defaultRiskLimits 100 100000 0) := fun exceeds =>
    absurd (exceeds.liquidity (by with_unfolding_all decide)) (by with_unfolding_all decide)
  have reroom : ¬ OrderExceeds {} sampleEnv sampleDecision samplePortfolio none (thinHeldArgs 20)
      (positionRoom defaultRiskLimits 100 100000 20) := fun exceeds =>
    absurd (exceeds.liquidity (by with_unfolding_all decide)) (by with_unfolding_all decide)
  have price : (callContext sampleEnv sampleDecision none (thinHeldArgs 0)).currentPrice = 100 := by
    with_unfolding_all decide
  have held : traded ⟨sampleEnv, sampleDecision, samplePortfolio, none, thinHeldArgs 0, first⟩ 0 =
      20 := by
    rw [traded, quantity, zero_add]
  refine ⟨first, second, ran, reran, (position_limit_iff {} .long 100 100000 _ 0 ?_ ?_).2.mpr ?_⟩
  · simp only [steps_cons, steps_nil, List.forall_mem_cons, held]
    refine ⟨?_, ?_, by simp⟩
    · exact ⟨.inl ⟨rfl, rfl⟩, rfl, abs_zero, price, rfl, ran, noVeto⟩
    · exact ⟨.inl ⟨rfl, rfl⟩, rfl, abs_of_pos (show (0 : ℚ) < 20 by norm_num), price, rfl, reran,
        reread⟩
  · with_unfolding_all decide
  · simp only [steps_cons, steps_nil, List.forall_mem_cons, held]
    exact ⟨room, reroom, by simp⟩

/-- A long position of 100 shares. -/
def heldArgs : CallArgs :=
  { sampleArgs with existingPositionQty := 100, existingDirection := some .long }

/-- With 100 shares held, which is the whole limit, another 100 are planned. -/
theorem position_limit_exceeded :
    ∃ returned, sampleCall heldArgs = .ok returned ∧ returned.vetoTriggered = false ∧
      heldArgs.existingPositionQty * 100 ≤
        defaultRiskLimits.maxPositionPct.val * samplePortfolio.totalEquity.val ∧
      returned.finalQuantity.val = 100 ∧
      ¬ (heldArgs.existingPositionQty + returned.finalQuantity.val) * 100 ≤
        defaultRiskLimits.maxPositionPct.val * samplePortfolio.totalEquity.val := by
  obtain ⟨returned, ran, read⟩ := exists_ok_of_read (sampleCall heldArgs)
    (fun plan => (plan.vetoTriggered, plan.finalQuantity.val)) (false, 100)
    (by with_unfolding_all decide)
  obtain ⟨noVeto, quantity⟩ := Prod.mk.inj read
  refine ⟨returned, ran, noVeto, by with_unfolding_all decide, quantity, ?_⟩
  rw [quantity]
  with_unfolding_all decide

end TradeOS.Risk
