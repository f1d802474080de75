import TradeOS.Risk.SizingForm
import TradeOS.Risk.Trail

/-!
# Conviction and size

Two calls that open a long position and differ in the confidence of the decision
only. The chain weighs the base quantity by the confidence, but it takes a weight
of zero for a method that failed and goes on to the fixed fraction, which does not
look at the confidence. So a confidence of zero may buy more than a positive one.

`base_quantity_mono_iff` says when more confidence buys at least as much: always,
except where a zero confidence falls through to a fixed fraction that is above the
weighted quantity of the other call.
-/

set_option autoImplicit false

namespace TradeOS.Risk

open TradeOS.Numeric

/-! ## The base quantity of a long plan -/

section Call

variable {engine : RiskEngine} {env : RiskEnv} {decision : ArbitrationDecision}
  {portfolio : Portfolio} {marketContext : Option MarketContext} {args : CallArgs}

theorem orderQuantity_of_long (opens : canonicalBias decision = .longBias) :
    orderQuantity env decision portfolio marketContext args =
      sizedQuantity (sizingInputs env decision portfolio marketContext args) := by
  have keeps : ¬((canonicalBias decision = .exitBias ∨ canonicalBias decision = .reduceRisk) ∧
      0 < args.existingPositionQty) := by
    rw [opens]
    simp
  unfold orderQuantity
  dsimp only
  rw [if_neg keeps]

/-- The plan of a long decision has the quantity of the sizing chain, and none
without a positive price. -/
theorem calculate_baseQuantity (opens : canonicalBias decision = .longBias)
    {returned : PositionPlan}
    (ran : calculate engine env decision portfolio marketContext args = .ok returned) :
    returned.baseQuantity.val =
      if 0 < (callContext env decision marketContext args).currentPrice then
        sizedQuantity (sizingInputs env decision portfolio marketContext args)
      else 0 := by
  by_cases price : 0 < (callContext env decision marketContext args).currentPrice
  · rw [if_pos price]
    obtain ⟨stage, sized, _⟩ := bind_eq_ok_iff.mp ran
    have trades : canonicalBias decision ≠ .noTrade ∧ canonicalBias decision ≠ .holdBias := by
      rw [opens]
      simp
    have routed : route (canonicalBias decision) args.existingDirection =
        .ok ⟨.long, 1, .buy⟩ := by
      rw [opens]
      rfl
    obtain ⟨order, rfl⟩ := sizeOrder_reaches exactPrecise price trades routed sized
    obtain ⟨filtered, finished⟩ := finished_of_reached sized ran
    rw [finished.baseQuantity, (sizeOrder_quantity exactPrecise price sized).1,
      orderQuantity_of_long opens]
  · rw [if_neg price]
    rcases calculate_cases ran with ⟨_, _, rfl⟩ | ⟨order, filtered, _, finished⟩
    · rfl
    · exact absurd (finished.currentPrice ▸ returned.currentPrice.property) price

end Call

/-! ## Where the chain goes -/

/-- The Kelly inputs are given and, in exact arithmetic, bet on a gain. -/
def KellyBets (winRate avgWin avgLoss : Option ℚ) : Prop :=
  ∃ p win loss, winRate = some p ∧ avgWin = some win ∧ avgLoss = some loss ∧ 0 < loss ∧
    0 < (win / loss * p - (1 - p)) / (win / loss)

theorem kellyQuantity_pos_iff (inputs : SizingInputs)
    (price : 0 < inputs.marketContext.currentPrice) (equity : 0 < inputs.portfolioEquity) :
    0 < kellyQuantity inputs ↔
      KellyBets inputs.kellyWinRate inputs.kellyAvgWin inputs.kellyAvgLoss := by
  unfold kellyQuantity
  split
  · rename_i p win loss rate gain fall
    rw [rate, gain, fall]
    by_cases losses : loss ≤ 0
    · rw [if_pos losses]
      refine iff_of_false (lt_irrefl 0) ?_
      rintro ⟨_, _, _, _, _, same, positive, _⟩
      cases same
      exact absurd positive (not_lt.mpr losses)
    · rw [if_neg losses]
      dsimp only
      rw [div_pos_iff_of_pos_right price, mul_pos_iff_of_pos_left equity,
        div_pos_iff_of_pos_right zero_lt_two, lt_max_iff, or_iff_left (lt_irrefl 0)]
      constructor
      · intro bets
        exact ⟨p, win, loss, rfl, rfl, rfl, not_le.mp losses, bets⟩
      · rintro ⟨_, _, _, sameRate, sameWin, sameLoss, _, bets⟩
        cases sameRate
        cases sameWin
        cases sameLoss
        exact bets
  · rename_i missing
    refine iff_of_false (lt_irrefl 0) ?_
    rintro ⟨p, win, loss, rate, gain, fall, _⟩
    exact missing p win loss rate gain fall

/-- The weighted quantity is below the fixed fraction with a stop of one percent:
without a range always, else when five times the weighted range is below the
price. -/
theorem weighted_lt_fixed_iff {inputs : SizingInputs} {c : ℚ}
    (price : 0 < inputs.marketContext.currentPrice) (equity : 0 < inputs.portfolioEquity)
    (stop : inputs.stopDistancePct = 1 / 100) (unit : c ≤ 1) :
    baseQty inputs * c < inputs.portfolioEquity * (1 / 100) / riskPerShare inputs ↔
      inputs.marketContext.atr14 ≤ 0 ∨
        5 * c * inputs.marketContext.atr14 < inputs.marketContext.currentPrice := by
  have risk : 0 < riskPerShare inputs := riskPerShare_pos exactPrecise price
  have scale : baseQty inputs * c < inputs.portfolioEquity * (1 / 100) / riskPerShare inputs ↔
      5 * c * riskPerShare inputs < inputs.marketContext.currentPrice := by
    have share : 0 < inputs.portfolioEquity * (1 / 100) := mul_pos equity (by norm_num)
    have weighted : baseQty inputs * c =
        inputs.portfolioEquity * (1 / 100) * (5 * c) / inputs.marketContext.currentPrice := by
      simp only [baseQty, baseFraction]
      ring
    rw [weighted, div_lt_div_iff₀ price risk, mul_assoc, mul_lt_mul_iff_right₀ share]
  rw [scale, riskPerShare]
  by_cases range : 0 < inputs.marketContext.atr14
  · rw [if_pos range, mul_div_cancel₀ _ price.ne', or_iff_right (not_le.mpr range)]
  · rw [if_neg range, stop, max_self]
    refine iff_of_true ?_ (.inl (not_lt.mp range))
    nlinarith

/-! ## Two confidences -/

/-- A zero confidence falls through to a fixed fraction that is above the quantity
of a positive one. -/
structure FallsThrough (context : MarketContext) (args : CallArgs) (c₁ c₂ : ℚ) : Prop where
  price : 0 < context.currentPrice
  calm : context.realizedVol20d ≤ 0
  noBet : ¬ KellyBets args.kellyWinRate args.kellyAvgWin args.kellyAvgLoss
  zero : c₁ = 0
  positive : 0 < c₂
  range : context.atr14 ≤ 0 ∨ 5 * c₂ * context.atr14 < context.currentPrice

/-- The quantity of the chain past volatility targeting and Kelly. -/
theorem sizedQuantity_of_calm (inputs : SizingInputs)
    (calm : inputs.marketContext.realizedVol20d ≤ 0) (noKelly : ¬ 0 < kellyQuantity inputs) :
    sizedQuantity inputs =
      if 0 < inputs.directionConfidence then baseQty inputs * inputs.directionConfidence
      else inputs.portfolioEquity * (1 / 100) / riskPerShare inputs := by
  rw [sizedQuantity, if_neg (not_lt.mpr calm), if_neg noKelly]

/-- Volatility targeting and Kelly do not look at the confidence. -/
theorem sizedQuantity_confidence (inputs : SizingInputs) (c : ℚ)
    (sized : 0 < inputs.marketContext.realizedVol20d ∨ 0 < kellyQuantity inputs) :
    sizedQuantity { inputs with directionConfidence := c } = sizedQuantity inputs := by
  have same : kellyQuantity { inputs with directionConfidence := c } = kellyQuantity inputs := rfl
  unfold sizedQuantity
  rw [same]
  dsimp only
  by_cases volatile : 0 < inputs.marketContext.realizedVol20d
  · rw [if_pos volatile, if_pos volatile]
  · have bets : 0 < kellyQuantity inputs := sized.resolve_left volatile
    rw [if_neg volatile, if_neg volatile, if_pos bets, if_pos bets]

/-- A weighted quantity, or the fixed one where the weight is zero, grows with the
weight, except from a fixed quantity to a smaller weighted one. -/
theorem weightedOrFixed_le_iff {base fixed c₁ c₂ : ℚ} (positive : 0 < base) (nonneg : 0 ≤ c₁)
    (raised : c₁ ≤ c₂) :
    (if 0 < c₁ then base * c₁ else fixed) ≤ (if 0 < c₂ then base * c₂ else fixed) ↔
      ¬ (c₁ = 0 ∧ 0 < c₂ ∧ base * c₂ < fixed) := by
  rcases nonneg.lt_or_eq with weighted | zero
  · rw [if_pos weighted, if_pos (weighted.trans_le raised)]
    refine iff_of_true (mul_le_mul_of_nonneg_left raised positive.le) ?_
    rintro ⟨zero, _⟩
    exact weighted.ne' zero
  · subst zero
    rw [if_neg (lt_irrefl 0)]
    by_cases weighted : 0 < c₂
    · rw [if_pos weighted, ← not_lt]
      simp only [weighted, true_and]
    · rw [if_neg weighted]
      refine iff_of_true le_rfl ?_
      rintro ⟨_, above, _⟩
      exact weighted above

section Mono

variable (engine : RiskEngine) (env env' : RiskEnv) (decision : ArbitrationDecision)
  (portfolio : Portfolio) (marketContext : Option MarketContext) (args : CallArgs)

/-- The clock of a call has no part in the quantity. -/
theorem sizedQuantity_clock :
    sizedQuantity (sizingInputs env decision portfolio marketContext args) =
      sizedQuantity (sizingInputs env' decision portfolio marketContext args) := by
  cases marketContext with
  | none => rfl
  | some context => rfl

theorem currentPrice_clock (c : ℚ) :
    (callContext env' { decision with confidence := c } marketContext args).currentPrice =
      (callContext env decision marketContext args).currentPrice := by
  cases marketContext with
  | none => rfl
  | some context => rfl

/-- **When more conviction never buys less.** Two calls on a long decision whose
confidence is raised, at any two times: the first base quantity is at most the
second, except where a zero confidence falls through to the fixed fraction. -/
theorem base_quantity_mono_iff (opens : canonicalBias decision = .longBias) (c₁ c₂ : ℚ)
    (nonneg : 0 ≤ c₁) (raised : c₁ ≤ c₂) (unit : c₂ ≤ 1) (first second : PositionPlan)
    (ran : calculate engine env { decision with confidence := c₁ } portfolio marketContext args =
      .ok first)
    (reran : calculate engine env' { decision with confidence := c₂ } portfolio marketContext
      args = .ok second) :
    first.baseQuantity.val ≤ second.baseQuantity.val ↔
      ¬ FallsThrough (callContext env decision marketContext args) args c₁ c₂ := by
  let inputs := sizingInputs env decision portfolio marketContext args
  have quantity₁ : first.baseQuantity.val =
      if 0 < (callContext env decision marketContext args).currentPrice then
        sizedQuantity { inputs with directionConfidence := c₁ }
      else 0 := by
    have opened : canonicalBias { decision with confidence := c₁ } = .longBias := opens
    exact calculate_baseQuantity opened ran
  have quantity₂ : second.baseQuantity.val =
      if 0 < (callContext env decision marketContext args).currentPrice then
        sizedQuantity { inputs with directionConfidence := c₂ }
      else 0 := by
    have opened : canonicalBias { decision with confidence := c₂ } = .longBias := opens
    rw [calculate_baseQuantity opened reran, currentPrice_clock env env',
      sizedQuantity_clock env' env]
    rfl
  rw [quantity₁, quantity₂]
  by_cases price : 0 < (callContext env decision marketContext args).currentPrice
  · rw [if_pos price, if_pos price]
    have equity : 0 < inputs.portfolioEquity := portfolio.totalEquity.property
    have bets := kellyQuantity_pos_iff inputs price equity
    by_cases sized : 0 < inputs.marketContext.realizedVol20d ∨ 0 < kellyQuantity inputs
    · rw [sizedQuantity_confidence inputs c₁ sized, sizedQuantity_confidence inputs c₂ sized]
      refine iff_of_true le_rfl ?_
      intro falls
      rcases sized with volatile | kelly
      · exact absurd volatile (not_lt.mpr falls.calm)
      · exact falls.noBet (bets.mp kelly)
    · obtain ⟨volatile, noKelly⟩ := not_or.mp sized
      have calm : inputs.marketContext.realizedVol20d ≤ 0 := not_lt.mp volatile
      have base : 0 < baseQty inputs := baseQty_pos exactPrecise price equity
      have chain (c : ℚ) : sizedQuantity { inputs with directionConfidence := c } =
          if 0 < c then baseQty inputs * c
          else inputs.portfolioEquity * (1 / 100) / riskPerShare inputs :=
        sizedQuantity_of_calm { inputs with directionConfidence := c } calm noKelly
      rw [chain c₁, chain c₂, weightedOrFixed_le_iff base nonneg raised,
        weighted_lt_fixed_iff price equity rfl unit]
      refine not_congr ⟨?_, fun falls => ⟨falls.zero, falls.positive, falls.range⟩⟩
      rintro ⟨zero, positive, range⟩
      exact ⟨price, calm, fun bet => noKelly (bets.mpr bet), zero, positive, range⟩
  · rw [if_neg price, if_neg price]
    exact iff_of_true le_rfl fun falls => price falls.price

end Mono

/-! ## Samples -/

/-- The sample decision with another confidence. -/
def confidentDecision (c : ℚ) : ArbitrationDecision := { sampleDecision with confidence := c }

/-- A stock at a price of 100 whose volatility is not known. -/
def calmArgs : CallArgs := { sampleArgs with realizedVol20d := 0 }

/-- A confidence of one half buys 25 shares, and one of one 50. -/
theorem base_quantity_mono_sample :
    ∃ first second,
      calculate {} sampleEnv (confidentDecision (1 / 2)) samplePortfolio none calmArgs = .ok first ∧
      calculate {} sampleEnv (confidentDecision 1) samplePortfolio none calmArgs = .ok second ∧
      first.baseQuantity.val ≤ second.baseQuantity.val := by
  obtain ⟨first, ran, _⟩ := exists_ok_of_read
    (calculate {} sampleEnv (confidentDecision (1 / 2)) samplePortfolio none calmArgs)
    (fun plan => plan.baseQuantity.val) 25 (by with_unfolding_all decide)
  obtain ⟨second, reran, _⟩ := exists_ok_of_read
    (calculate {} sampleEnv (confidentDecision 1) samplePortfolio none calmArgs)
    (fun plan => plan.baseQuantity.val) 50 (by with_unfolding_all decide)
  refine ⟨first, second, ran, reran, ?_⟩
  refine (base_quantity_mono_iff {} sampleEnv sampleEnv sampleDecision samplePortfolio none
    calmArgs rfl (1 / 2) 1 (by norm_num) (by norm_num) le_rfl first second ran reran).mpr ?_
  intro falls
  exact absurd falls.zero (by norm_num)

/-- A confidence of zero buys the whole portfolio, 1000 shares, and one of one
half 25. -/
theorem conviction_drop :
    ∃ first second,
      calculate {} sampleEnv (confidentDecision 0) samplePortfolio none calmArgs = .ok first ∧
      calculate {} sampleEnv (confidentDecision (1 / 2)) samplePortfolio none calmArgs =
        .ok second ∧
      canonicalBias sampleDecision = .longBias ∧ (0 : ℚ) ≤ 1 / 2 ∧
      first.baseQuantity.val = 1000 ∧ second.baseQuantity.val = 25 ∧
      ¬ first.baseQuantity.val ≤ second.baseQuantity.val := by
  obtain ⟨first, ran, quantity⟩ := exists_ok_of_read
    (calculate {} sampleEnv (confidentDecision 0) samplePortfolio none calmArgs)
    (fun plan => plan.baseQuantity.val) 1000 (by with_unfolding_all decide)
  obtain ⟨second, reran, requantity⟩ := exists_ok_of_read
    (calculate {} sampleEnv (confidentDecision (1 / 2)) samplePortfolio none calmArgs)
    (fun plan => plan.baseQuantity.val) 25 (by with_unfolding_all decide)
  refine ⟨first, second, ran, reran, rfl, by norm_num, quantity, requantity, ?_⟩
  rw [quantity, requantity]
  norm_num

end TradeOS.Risk
