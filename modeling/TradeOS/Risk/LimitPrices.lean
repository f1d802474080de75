import TradeOS.Risk.PlanChecks
import TradeOS.Risk.Trail

/-!
# Limit prices

The limit price of a plan moves away from the arrival price by one and a half times
the impact, and the worst price moves on from the limit price by the impact and
twenty basis points. Each product is rounded to the nearest cent, and every operation
to the nearest double.

A limit price is the double of a whole number of cents, so the second rounding never goes
back over it. The arrival price need not be: where the allowance is too small to carry it
over the middle of its cent, the limit price ends on the near side.
`prices_ordered_iff` gives the exact condition.
-/

set_option autoImplicit false

namespace TradeOS.Risk

open TradeOS.Numeric

/-! ## The side of the arrival price -/

section Cents

variable (fl : Rounding)

/-- A price with its allowance is rounded up to a cent that is not below the arrival price: it is
past the middle below that cent, or on that middle and the cent is even. -/
def CarriesUp (arrival moved : ℚ) : Prop :=
  ∃ cent : ℤ, arrival ≤ fl (cent / 100) ∧
    ((cent : ℚ) - 1 / 2 < moved * 100 ∨ (moved * 100 = cent - 1 / 2 ∧ cent % 2 = 0))

/-- A price less its allowance is rounded down to a cent that is not above the arrival price. -/
def CarriesDown (arrival moved : ℚ) : Prop :=
  ∃ cent : ℤ, fl (cent / 100) ≤ arrival ∧
    (moved * 100 < (cent : ℚ) + 1 / 2 ∨ (moved * 100 = cent + 1 / 2 ∧ cent % 2 = 0))

/-- The allowance carries the arrival price to the far side of its cent. -/
structure CarriesArrival (direction : Direction) (price impactBps : ℚ) : Prop where
  long : direction = .long → CarriesUp fl price (movedLimit .long price impactBps fl)
  short : direction = .short → CarriesDown fl price (movedLimit .short price impactBps fl)

theorem decimal_two (x : ℚ) : fl.decimal 2 x = fl ((roundHalfEven (x * 100) : ℚ) / 100) := by
  have hundred : (10 : ℚ) ^ 2 = 100 := by norm_num
  rw [Rounding.decimal, roundTo, hundred]

theorem arrival_le_limit_iff (arrival moved : ℚ) :
    arrival ≤ fl.decimal 2 moved ↔ CarriesUp fl arrival moved := by
  rw [decimal_two]
  constructor
  · intro below
    exact ⟨_, below, (le_roundHalfEven_iff _ _).mp le_rfl⟩
  · rintro ⟨cent, below, past⟩
    have counted : (cent : ℚ) ≤ roundHalfEven (moved * 100) := by
      exact_mod_cast (le_roundHalfEven_iff _ _).mpr past
    refine below.trans (fl.monotone ?_)
    exact div_le_div_of_nonneg_right counted (by norm_num)

theorem limit_le_arrival_iff (arrival moved : ℚ) :
    fl.decimal 2 moved ≤ arrival ↔ CarriesDown fl arrival moved := by
  rw [decimal_two]
  constructor
  · intro above
    exact ⟨_, above, (roundHalfEven_le_iff _ _).mp le_rfl⟩
  · rintro ⟨cent, above, past⟩
    have counted : (roundHalfEven (moved * 100) : ℚ) ≤ cent := by
      exact_mod_cast (roundHalfEven_le_iff _ _).mpr past
    refine (fl.monotone ?_).trans above
    exact div_le_div_of_nonneg_right counted (by norm_num)

end Cents

/-! ## The side of the worst price -/

section Moves

variable (fl : Rounding)

theorem le_mul_of_move {price move : ℚ} (priced : 0 ≤ price) (same : fl price = price)
    (up : 0 ≤ move) : price ≤ fl (price * fl (1 + fl move)) := by
  have factor : 1 ≤ fl (1 + fl move) := by
    have grown := fl.monotone (show 1 ≤ 1 + fl move by linarith [fl.nonneg up])
    rwa [fl.round_one] at grown
  calc price = fl price := same.symm
    _ ≤ fl (price * fl (1 + fl move)) := fl.monotone (le_mul_of_one_le_right priced factor)

theorem mul_le_of_move {price move : ℚ} (priced : 0 ≤ price) (same : fl price = price)
    (down : 0 ≤ move) : fl (price * fl (1 - fl move)) ≤ price := by
  have factor : fl (1 - fl move) ≤ 1 := fl.le_one (by linarith [fl.nonneg down])
  calc fl (price * fl (1 - fl move)) ≤ fl price :=
        fl.monotone (mul_le_of_le_one_right priced factor)
    _ = price := same

end Moves

variable (arith : CentRounding)

/-- A rounded price that was moved up and is rounded again is not below itself. -/
theorem limit_le_worst {moved move : ℚ} (positive : 0 < arith.decimal 2 moved) (up : 0 ≤ move) :
    arith.decimal 2 moved ≤ arith.decimal 2 (arith.toRounding
      (arith.decimal 2 moved * arith.toRounding (1 + arith.toRounding move))) := by
  have further := le_mul_of_move arith.toRounding positive.le (arith.round_round _) up
  calc arith.decimal 2 moved = arith.decimal 2 (arith.decimal 2 moved) :=
        (arith.cents_cents moved).symm
    _ ≤ _ := arith.decimal_mono 2 further

theorem worst_le_limit {moved move : ℚ} (positive : 0 < arith.decimal 2 moved) (down : 0 ≤ move) :
    arith.decimal 2 (arith.toRounding
      (arith.decimal 2 moved * arith.toRounding (1 - arith.toRounding move))) ≤
      arith.decimal 2 moved := by
  have further := mul_le_of_move arith.toRounding positive.le (arith.round_round _) down
  calc _ ≤ arith.decimal 2 (arith.decimal 2 moved) := arith.decimal_mono 2 further
    _ = arith.decimal 2 moved := arith.cents_cents moved

/-- A whole number of cents is on the right side without any allowance. -/
theorem carriesArrival_of_cents {direction : Direction} {price impactBps : ℚ} (priced : 0 < price)
    (impact : 0 ≤ impactBps) (cents : arith.decimal 2 price = price) :
    CarriesArrival arith.toRounding direction price impactBps := by
  have same : arith.toRounding price = price := by
    rw [← cents]
    exact arith.round_round _
  have slippage : 0 ≤ arith.toRounding (impactBps / 10000) * (3 / 2) :=
    mul_nonneg (arith.nonneg (div_nonneg impact (by norm_num))) (by norm_num)
  constructor
  · intro _
    rw [← arrival_le_limit_iff]
    have further := arith.decimal_mono 2 (le_mul_of_move arith.toRounding priced.le same slippage)
    rwa [cents] at further
  · intro _
    rw [← limit_le_arrival_iff]
    have further := arith.decimal_mono 2 (mul_le_of_move arith.toRounding priced.le same slippage)
    rwa [cents] at further

/-! ## The prices of a plan -/

/-- The limit price is between the arrival price and the worst price, on the side
of the direction. -/
structure PricesOrdered (direction : Direction) (arrival limit worst : ℚ) : Prop where
  long : direction = .long → arrival ≤ limit ∧ limit ≤ worst
  short : direction = .short → worst ≤ limit ∧ limit ≤ arrival

/-- A plan with a limit price has a worst price and an arrival price too, and they
are ordered. -/
def PlanOrdered (made : ExecutionPlan) : Prop :=
  ∃ arrival limit worst, made.arrivalPrice = some arrival ∧ made.limitPrice = some limit ∧
    made.worstPrice = some worst ∧
    PricesOrdered made.direction arrival.val limit.val worst.val

/-- The rounded prices of a direction are ordered exactly when the allowance carries
the arrival price: the worst price is always on the far side of the limit price. -/
theorem pricesOrdered_rounded_iff (direction : Direction) {price impactBps : ℚ}
    (impact : 0 ≤ impactBps)
    (positive : 0 < arith.decimal 2 (movedLimit direction price impactBps arith.toRounding)) :
    PricesOrdered direction price
        (arith.decimal 2 (movedLimit direction price impactBps arith.toRounding))
        (arith.decimal 2 (movedWorst direction
          (arith.decimal 2 (movedLimit direction price impactBps arith.toRounding)) impactBps
          arith.toRounding)) ↔
      CarriesArrival arith.toRounding direction price impactBps := by
  have move : 0 ≤ arith.toRounding (impactBps + 20) / 10000 :=
    div_nonneg (arith.nonneg (by linarith)) (by norm_num)
  cases direction with
  | long =>
      have beyond := limit_le_worst arith positive move
      have near := arrival_le_limit_iff arith.toRounding price
        (movedLimit .long price impactBps arith.toRounding)
      constructor
      · intro order
        exact ⟨fun _ => near.mp (order.long rfl).1, nofun⟩
      · intro carries
        exact ⟨fun _ => ⟨near.mpr (carries.long rfl), beyond⟩, nofun⟩
  | short =>
      have beyond := worst_le_limit arith positive move
      have near := limit_le_arrival_iff arith.toRounding price
        (movedLimit .short price impactBps arith.toRounding)
      constructor
      · intro order
        exact ⟨nofun, fun _ => near.mp (order.short rfl).2⟩
      · intro carries
        exact ⟨nofun, fun _ => ⟨beyond, near.mpr (carries.short rfl)⟩⟩
  | flat => exact iff_of_true ⟨nofun, nofun⟩ ⟨nofun, nofun⟩

/-- A limit price is a rounded one. -/
theorem computeLimitPrice_eq_some {direction : Direction} {price impactBps limit : ℚ}
    {algorithm : OrderType} {fl : Rounding}
    (limited : computeLimitPrice direction price impactBps algorithm fl = some limit) :
    limit = fl.decimal 2 (movedLimit direction price impactBps fl) := by
  unfold computeLimitPrice at limited
  split at limited
  · cases limited
  · exact (Option.some.inj limited).symm

theorem planOrdered_iff {made : ExecutionPlan} {arrival : NonnegRational}
    {limit worst : PositiveRational}
    (isArrival : made.arrivalPrice = some arrival) (isLimit : made.limitPrice = some limit)
    (isWorst : made.worstPrice = some worst) :
    PlanOrdered made ↔ PricesOrdered made.direction arrival.val limit.val worst.val := by
  constructor
  · rintro ⟨arrival', limit', worst', arrives, limits, worsts, order⟩
    rw [isArrival] at arrives
    rw [isLimit] at limits
    rw [isWorst] at worsts
    cases arrives
    cases limits
    cases worsts
    exact order
  · intro order
    exact ⟨arrival, limit, worst, isArrival, isLimit, isWorst, order⟩

section Plan

variable (env : PlanningEnv) (positionPlan : PositionPlan)
  (marketContext : Option MarketContext) (arrivalPrice : Option ℚ)
  (startTime : Option Timestamp) (urgency : String)

/-- **When the limit price is on the right side of the arrival price.** In every
plan with a limit price, the three prices are ordered exactly when the allowance
carries the arrival price to the far side of its cent. -/
theorem prices_ordered_iff (made : ExecutionPlan)
    (planned : plan env positionPlan marketContext arrivalPrice startTime urgency
      arith.toRounding = .ok made)
    (limited : made.limitPrice ≠ none) :
    PlanOrdered made ↔
      CarriesArrival arith.toRounding positionPlan.direction
        (planArrival marketContext arrivalPrice)
        (planImpact env positionPlan marketContext arith.toRounding) := by
  have holds := plan_eq_ok planned
  have impact : 0 ≤ planImpact env positionPlan marketContext arith.toRounding := by
    rw [← holds.estimatedImpactBps]
    exact made.estimatedImpactBps.property
  obtain ⟨limit, isLimit⟩ := Option.ne_none_iff_exists'.mp limited
  have computed := holds.limitPrice
  rw [isLimit, Option.map_some] at computed
  have rounded := computeLimitPrice_eq_some computed.symm
  have positive := limit.property
  have furthest := holds.worstPrice
  rw [← computed, worstPrice_of_limit _ _ _ positive] at furthest
  obtain ⟨worst, isWorst, worstVal⟩ := Option.map_eq_some_iff.mp furthest
  obtain ⟨arrival, isArrival, arrivalVal⟩ := Option.map_eq_some_iff.mp holds.arrivalPrice
  rw [rounded] at positive
  rw [planOrdered_iff isArrival isLimit isWorst, holds.direction, arrivalVal, worstVal, rounded]
  exact pricesOrdered_rounded_iff arith positionPlan.direction impact positive

end Plan

/-! ## Samples -/

/-- A long order of 100 shares. -/
def sampleOrder (direction : Direction) (qty : NonnegRational) : PositionPlan where
  planId := "pp-00000000"
  decisionId := "arb-AAPL-0"
  timestamp := 0
  symbol := "AAPL"
  bias := .longBias
  arbitrationConfidence := UnitRational.zero
  direction := direction
  sizingMethod := "volatility_targeting"
  baseQuantity := qty
  finalQuantity := qty
  notionalValue := NonnegRational.zero
  currentPrice := ⟨100, by norm_num⟩
  portfolioSnapshotEquity := NonnegRational.zero

/-- A market at a price whose volume is not known. -/
def quietMarket (price : ℚ) : MarketContext := buildMarketContext "AAPL" 0 price 0 0 0 0

/-- The plan of a long order of 100 shares, in doubles. -/
abbrev doublePlan (market : MarketContext) : Except RunError ExecutionPlan :=
  plan doubleEnv.planning (sampleOrder .long ⟨100, by norm_num⟩)
    (some market) none none "medium" binary64

/-- A market at a price of 100 in which an order of 100 shares has an impact of 25 basis points. -/
def feltMarket : MarketContext :=
  { quietMarket 100 with avgDailyVolume20d := 10000, adv20dUsd := 1000000, realizedVol20d := 1 / 4 }

/-- An order to buy at 100 has a limit price of 100.37, though 100.375 exactly would be rounded to
100.38. -/
theorem prices_ordered_sample :
    ∃ made, doublePlan feltMarket = .ok made ∧ made.estimatedImpactBps.val = 25 ∧
      made.limitPrice.map Subtype.val = some (binary64 (10037 / 100)) ∧ PlanOrdered made := by
  obtain ⟨made, planned, read⟩ := exists_ok_of_read (doublePlan feltMarket)
    (fun made => (made.estimatedImpactBps.val, made.limitPrice.map Subtype.val))
    (25, some (binary64 (10037 / 100))) (by decide +kernel)
  obtain ⟨impact, limits⟩ := Prod.mk.inj read
  have limited : made.limitPrice ≠ none := by
    intro none
    rw [none] at limits
    cases limits
  refine ⟨made, planned, impact, limits,
    (prices_ordered_iff binary64Cents _ _ _ _ _ _ made planned limited).mpr ?_⟩
  have price : planArrival (some feltMarket) none = 100 := by decide +kernel
  have cents : binary64.decimal 2 100 = 100 := by decide +kernel
  rw [price]
  refine carriesArrival_of_cents binary64Cents (by norm_num) ?_ cents
  exact (plan_eq_ok planned).estimatedImpactBps ▸ made.estimatedImpactBps.property

/-- The double nearest to 100.004. -/
def pastTheCent : ℚ := binary64 (100004 / 1000)

/-- An order to buy at an arrival price of 100.004 has a limit price of 100. -/
theorem limit_below_arrival :
    ∃ made, doublePlan (quietMarket pastTheCent) = .ok made ∧ made.direction = .long ∧
      made.arrivalPrice.map Subtype.val = some pastTheCent ∧
      made.limitPrice.map Subtype.val = some 100 ∧ ¬ PlanOrdered made := by
  obtain ⟨made, planned, read⟩ := exists_ok_of_read (doublePlan (quietMarket pastTheCent))
    (fun made => (made.direction, made.arrivalPrice.map Subtype.val,
      made.limitPrice.map Subtype.val)) (.long, some pastTheCent, some 100)
    (by decide +kernel)
  obtain ⟨side, arrives, limits⟩ : made.direction = .long ∧
      made.arrivalPrice.map Subtype.val = some pastTheCent ∧
      made.limitPrice.map Subtype.val = some 100 := by
    simpa only [Prod.mk.injEq] using read
  refine ⟨made, planned, side, arrives, limits, ?_⟩
  rintro ⟨arrival, limit, worst, isArrival, isLimit, _, ordered⟩
  rw [isArrival, Option.map_some] at arrives
  rw [isLimit, Option.map_some] at limits
  have near := (ordered.long side).1
  rw [Option.some.inj arrives, Option.some.inj limits] at near
  have past : 100 < pastTheCent := by decide +kernel
  exact absurd near past.not_ge

end TradeOS.Risk
