import TradeOS.Execution.Simulation

/-!
# The fills of limit orders

The simulation fills every order at once. The price of a limit order stands for the arrival
price, so the slippage moves the fill away from the limit, to the side that the limit excludes,
although the fill is marked as a passive one.

What is left of the limit is decided by the rounding of the fill to ten-thousandths:
`fill_within_limit_iff` says exactly when it brings the moved price back. For a limit and a
slippage of few decimals this is the case when the limit times the slippage in basis points is
below one half (`keepsLimit_iff_of_short`), so in practice only without a slippage.
-/

set_option autoImplicit false

namespace TradeOS.Execution

open TradeOS.Numeric

/-! ## Prices and limits -/

/-- A price is no worse than a limit, for a side. -/
def WithinLimit : Side → ℚ → ℚ → Prop
  | .buy, limit, price => price ≤ limit
  | .sell, limit, price => limit ≤ price

/-- A number that is rounded to a whole one not above a bound: below the middle over the last
whole number that the bound has, or on it if that number is even. -/
def RoundsBelow (bound q : ℚ) : Prop :=
  q < (⌊bound⌋ : ℚ) + 1 / 2 ∨ (q = ⌊bound⌋ + 1 / 2 ∧ ⌊bound⌋ % 2 = 0)

/-- A number that is rounded to a whole one not below a bound. -/
def RoundsAbove (bound q : ℚ) : Prop :=
  (⌈bound⌉ : ℚ) - 1 / 2 < q ∨ (q = ⌈bound⌉ - 1 / 2 ∧ ⌈bound⌉ % 2 = 0)

/-- A moved price that the rounding to ten-thousandths takes back to its limit. -/
def KeepsLimit : Side → ℚ → ℚ → Prop
  | .buy, limit, moved => RoundsBelow (limit * 10 ^ 4) (moved * 10 ^ 4)
  | .sell, limit, moved => RoundsAbove (limit * 10 ^ 4) (moved * 10 ^ 4)

theorem withinLimit_roundTo_iff (side : Side) (limit moved : ℚ) :
    WithinLimit side limit (roundTo 4 moved) ↔ KeepsLimit side limit moved := by
  cases side with
  | buy =>
      rw [WithinLimit, KeepsLimit, roundTo_le_iff, roundHalfEven_le_iff]
      rfl
  | sell =>
      rw [WithinLimit, KeepsLimit, le_roundTo_iff, le_roundHalfEven_iff]
      rfl

/-- An arrival price after a slippage in basis points, up for a buyer and down for a seller. -/
def slippedPrice (arith : Arithmetic) (side : Side) (arrival slippageBps : ℚ) : ℚ :=
  let slippage := arith.div slippageBps 10000
  arith.mul arrival (arith.add 1 (if side = .buy then slippage else arith.neg slippage))

theorem quantize_eq_some {q rounded : ℚ} (quantized : decimalContext.quantize q = some rounded) :
    rounded = roundTo 4 q := by
  simp only [decimalContext] at quantized
  split at quantized
  · exact (Option.some.inj quantized).symm
  · cases quantized

/-! ## The fill of a submission -/

/-- An intent of type limit, with its positive price. -/
structure LimitIntent (intent : ExecutionIntent) (limit : ℚ) : Prop where
  orderType : intent.orderType = .limit
  price : intent.price = some limit
  positive : 0 < limit

section Fill

variable {engine : SimulationExecutionEngine} {env : CallEnv} {intent : ExecutionIntent}
  {limit : ℚ} {fill : FillRecord}

/-- The limit is the arrival price of its order. -/
theorem LimitIntent.arrivalPrice_eq (limited : LimitIntent intent limit) :
    arrivalPrice intent = some limit := by
  simp only [arrivalPrice, limited.price, if_neg limited.positive.ne']

/-- The fill of a limit order is at the slipped limit. -/
theorem LimitIntent.fillPrice_eq (limited : LimitIntent intent limit) {venue orderId : String}
    (built : buildFill decimalContext venue env intent orderId = some fill) :
    ∃ slippageBps, metadataDecimal intent "estimated_slippage_bps" 1 = some slippageBps ∧
      fill.fillPrice = roundTo 4 (slippedPrice decimalContext intent.side limit slippageBps) := by
  simp only [buildFill, Option.bind_eq_bind, Option.bind_eq_some_iff,
    limited.arrivalPrice_eq] at built
  obtain ⟨_, arrival, slippageBps, slippage, _, _, fillPrice, quantized, _, _, made⟩ := built
  cases arrival
  cases made
  exact ⟨slippageBps, slippage, quantize_eq_some quantized⟩

theorem filled_fills (fill : FillRecord) : (filled engine env intent fill).fills =
    Function.update engine.fills env.orderId (some [fill]) :=
  rfl

/-- A submission whose order has a fill, where it had none before, has built that fill. -/
theorem built_of_recorded (fresh : engine.fills env.orderId = none)
    (recorded : (submitIntent decimalContext engine env intent).1.fills env.orderId =
      some [fill]) : buildFill decimalContext engine.venue env intent env.orderId = some fill := by
  have outcome := submitIntent_cases decimalContext engine env intent
  revert recorded
  generalize submitIntent decimalContext engine env intent = result at outcome ⊢
  intro recorded
  cases outcome with
  | refused => simp [fresh] at recorded
  | unfilled => simp [accepted, SimulationExecutionEngine.storeOrder, fresh] at recorded
  | unsettled _ built =>
      rw [filled_fills, Function.update_self] at recorded
      rw [built, List.singleton_inj.mp (Option.some.inj recorded)]
  | settled _ built =>
      rw [settled_fills, Function.update_self] at recorded
      rw [built, List.singleton_inj.mp (Option.some.inj recorded)]

/-- The report of a submission has the price of the fill. -/
theorem avgFillPrice_of_built
    (built : buildFill decimalContext engine.venue env intent env.orderId = some fill)
    {report : ExecutionReport}
    (reported : (submitIntent decimalContext engine env intent).2 = .ok report) :
    report.avgFillPrice = some fill.fillPrice := by
  have passed := submitIntent_eq_ok decimalContext engine env intent (Prod.ext rfl reported)
  obtain ⟨-, made, position, rebuilt, updated, -⟩ := passed
  cases built.symm.trans rebuilt
  simp only [submitIntent, built, updated] at reported
  split_ifs at reported
  cases reported
  rfl

end Fill

/-! ## Fills within the limit -/

/-- **The recorded fill of a limit order and the price of its report are within the limit
exactly if the rounding takes the slipped limit back to it.** -/
theorem fill_within_limit_iff (engine : SimulationExecutionEngine) (env : CallEnv)
    (intent : ExecutionIntent) (limit : ℚ) (limited : LimitIntent intent limit) (fill : FillRecord)
    (fresh : engine.fills env.orderId = none)
    (recorded : (submitIntent decimalContext engine env intent).1.fills env.orderId =
      some [fill]) :
    ∃ slippageBps, metadataDecimal intent "estimated_slippage_bps" 1 = some slippageBps ∧
      ((WithinLimit intent.side limit fill.fillPrice ∧
          ∀ report, (submitIntent decimalContext engine env intent).2 = .ok report →
            ∀ price ∈ report.avgFillPrice, WithinLimit intent.side limit price) ↔
        KeepsLimit intent.side limit
          (slippedPrice decimalContext intent.side limit slippageBps)) := by
  have built := built_of_recorded fresh recorded
  obtain ⟨slippageBps, slippage, price⟩ := limited.fillPrice_eq built
  refine ⟨slippageBps, slippage, ?_⟩
  rw [← withinLimit_roundTo_iff, ← price, and_iff_left_iff_imp]
  intro within report reported reportedPrice listed
  rw [avgFillPrice_of_built built reported] at listed
  exact Option.some.inj listed ▸ within

/-- A limit order over one unit at a price of a hundred. -/
def limitIntent : ExecutionIntent := { sampleIntent .buy 1 100 with orderType := .limit }

/-- The fill of that order. -/
def limitFill : FillRecord where
  recordId := "fill-1"
  orderId := "sim-ord-1"
  intentId := "intent"
  symbol := "AAPL"
  side := .buy
  filledQty := 1
  fillPrice := 10001 / 100
  fees := 1 / 100
  venue := some "SIMULATED"
  tradeId := some "sim-fill-1"
  liquiditySide := some .maker
  filledAt := 2
  arrivalPrice := 100
  simulatedSlippageBps := 1

theorem limitIntent_limited : LimitIntent limitIntent 100 := ⟨rfl, rfl, by norm_num⟩

theorem limitFill_recorded : (submitIntent decimalContext (SimulationExecutionEngine.start {})
    (sampleCallEnv "1") limitIntent).1.fills (sampleCallEnv "1").orderId = some [limitFill] := by
  decide +kernel

theorem fill_within_limit_sample :
    ∃ slippageBps, metadataDecimal limitIntent "estimated_slippage_bps" 1 = some slippageBps ∧
      ((WithinLimit .buy 100 limitFill.fillPrice ∧
          ∀ report, (submitIntent decimalContext (SimulationExecutionEngine.start {})
              (sampleCallEnv "1") limitIntent).2 = .ok report →
            ∀ price ∈ report.avgFillPrice, WithinLimit .buy 100 price) ↔
        KeepsLimit .buy 100 (slippedPrice decimalContext .buy 100 slippageBps)) :=
  fill_within_limit_iff (SimulationExecutionEngine.start {}) (sampleCallEnv "1") limitIntent 100
    limitIntent_limited limitFill rfl limitFill_recorded

/-- Without any metadata the buyer pays one basis point more than the limit. -/
theorem fill_beyond_limit :
    ¬ ∀ (engine : SimulationExecutionEngine) (env : CallEnv) (intent : ExecutionIntent)
      (limit : ℚ) (fill : FillRecord), LimitIntent intent limit →
        engine.fills env.orderId = none →
        (submitIntent decimalContext engine env intent).1.fills env.orderId = some [fill] →
          WithinLimit intent.side limit fill.fillPrice := by
  intro within
  have kept := within (SimulationExecutionEngine.start {}) (sampleCallEnv "1") limitIntent 100
    limitFill limitIntent_limited rfl limitFill_recorded
  have paid : (10001 / 100 : ℚ) ≤ 100 := kept
  norm_num at paid

/-! ## Limits of few decimals -/

section Short

variable {n m : ℤ}

theorem round_short {k : ℤ} (short : |k| < 10 ^ 28) (d : ℕ) :
    decimalContext.round (k / 10 ^ d) = k / 10 ^ d := by
  refine roundSignificant_eq_self k (-d) ?_ (by exact_mod_cast short)
  rw [zpow_neg, zpow_natCast, div_eq_mul_inv]

/-- In twenty-eight digits nothing of the slipped price is lost. -/
theorem slippedPrice_of_short (side : Side) (positive : 0 < n)
    (short : n * (10 ^ 8 + |m|) < 10 ^ 28) :
    slippedPrice decimalContext side (n / 10 ^ 4) (m / 10 ^ 4) * 10 ^ 4 =
      if side = .buy then n + (n / 10 ^ 4 : ℚ) * (m / 10 ^ 4)
      else n - (n / 10 ^ 4 : ℚ) * (m / 10 ^ 4) := by
  have least : (1 : ℤ) ≤ n := positive
  have small : 10 ^ 8 + |m| < 10 ^ 28 := by
    refine lt_of_le_of_lt ?_ short
    exact le_mul_of_one_le_left (by positivity) least
  have slip : |m| < 10 ^ 28 := by linarith
  have divided : decimalContext.div (m / 10 ^ 4) 10000 = m / 10 ^ 8 := by
    refine Eq.trans (congrArg decimalContext.round ?_) (round_short slip 8)
    ring
  have negated : decimalContext.neg (m / 10 ^ 8) = (-m : ℤ) / 10 ^ 8 := by
    refine Eq.trans (congrArg decimalContext.round ?_) (round_short ((abs_neg m).trans_lt slip) 8)
    push_cast
    ring
  have moved (k : ℤ) (bound : |k| ≤ |m|) :
      decimalContext.mul (n / 10 ^ 4) (decimalContext.add 1 (k / 10 ^ 8)) =
        (n * (10 ^ 8 + k) : ℤ) / 10 ^ 12 := by
    have factor : |10 ^ 8 + k| ≤ 10 ^ 8 + |m| :=
      (abs_add_le _ _).trans (add_le_add (abs_of_nonneg (by norm_num)).le bound)
    have product : |n * (10 ^ 8 + k)| < 10 ^ 28 := by
      rw [abs_mul, abs_of_pos positive]
      exact lt_of_le_of_lt (mul_le_mul_of_nonneg_left factor positive.le) short
    have added : decimalContext.add 1 (k / 10 ^ 8) = (10 ^ 8 + k : ℤ) / 10 ^ 8 := by
      refine Eq.trans (congrArg decimalContext.round ?_) (round_short (factor.trans_lt small) 8)
      push_cast
      ring
    rw [added]
    refine Eq.trans (congrArg decimalContext.round ?_) (round_short product 12)
    push_cast
    ring
  simp only [slippedPrice, divided, negated]
  split
  · rw [moved m le_rfl]
    push_cast
    ring
  · rw [moved (-m) (abs_neg m).le]
    push_cast
    ring

/-- **A limit of four decimals is kept exactly if the slippage moves it by less than half a
ten-thousandth**, or by just this half from an even number of them. -/
theorem keepsLimit_iff_of_short (side : Side) (positive : 0 < n)
    (short : n * (10 ^ 8 + |m|) < 10 ^ 28) :
    KeepsLimit side (n / 10 ^ 4) (slippedPrice decimalContext side (n / 10 ^ 4) (m / 10 ^ 4)) ↔
      (n / 10 ^ 4 : ℚ) * (m / 10 ^ 4) < 1 / 2 ∨
        ((n / 10 ^ 4 : ℚ) * (m / 10 ^ 4) = 1 / 2 ∧ n % 2 = 0) := by
  have scale : (n : ℚ) / 10 ^ 4 * 10 ^ 4 = n := div_mul_cancel₀ _ (by norm_num)
  have moved := slippedPrice_of_short side positive short
  cases side with
  | buy =>
      rw [KeepsLimit, RoundsBelow, moved, scale, Int.floor_intCast, if_pos rfl]
      simp only [add_lt_add_iff_left, add_right_inj]
  | sell =>
      rw [KeepsLimit, RoundsAbove, moved, scale, Int.ceil_intCast, if_neg (by decide)]
      simp only [sub_lt_sub_iff_left, sub_right_inj]

end Short

end TradeOS.Execution
