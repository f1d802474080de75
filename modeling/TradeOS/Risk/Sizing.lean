import TradeOS.Risk.Schemas

/-!
# Position sizing

The six calculators of `core/risk/calculators` and the chain that picks one of
their results: volatility targeting when it gives a positive quantity, else the
first positive quantity in the order of the chain.

The base class does not hand the regime name on to the calculators, so the
regime-based one always sees its default.

The arithmetic of the floats is a parameter, `fl`; where none is given, it is exact.
-/

set_option autoImplicit false

namespace TradeOS.Risk

open TradeOS.Numeric

/-- What the chain passes to every calculator. -/
structure SizingInputs where
  portfolioEquity : ℚ
  directionConfidence : ℚ
  marketContext : MarketContext
  stopDistancePct : ℚ := 2 / 100
  targetAnnualVol : ℚ := 15 / 100
  regimeMultiplier : Option ℚ := none
  drawdownRatio : ℚ := 0
  kellyWinRate : Option ℚ := none
  kellyAvgWin : Option ℚ := none
  kellyAvgLoss : Option ℚ := none

/-- The result of a calculator. -/
structure SizingResult where
  qty : ℚ
  confidence : ℚ
  rationale : String
  method : String

/-- `_zero`: the result of a calculator that cannot size. -/
def zeroSizing (method reason : String) : SizingResult where
  qty := 0
  confidence := 0
  rationale := reason
  method := method

/-! ## The calculators -/

def volatilityTargeting (inputs : SizingInputs) (fl : Rounding := exactRounding) : SizingResult :=
  let price := inputs.marketContext.currentPrice
  let realizedVol := inputs.marketContext.realizedVol20d
  if price ≤ 0 then zeroSizing "volatility_targeting" "price <= 0"
  else if realizedVol ≤ 0 then
    zeroSizing "volatility_targeting"
      ("realized_vol=" ++ formatDefault realizedVol ++ " <= 0, 无法计算")
  else
    let qty := fl (fl (inputs.portfolioEquity * inputs.targetAnnualVol) / fl (price * realizedVol))
    { qty := max qty 0
      confidence := min (fl (inputs.directionConfidence + fl (1 / 10))) 1
      rationale := "VolTargeting: $" ++ formatGrouped inputs.portfolioEquity ++ " × " ++
        formatFixed 0 (fl (inputs.targetAnnualVol * 100)) ++ "% / ($" ++ formatDefault price ++
        " × " ++ formatFixed 0 (fl (realizedVol * 100)) ++ "%) = " ++ formatFixed 0 qty ++ " shares"
      method := "volatility_targeting" }

/-- Half Kelly. An average win of zero divides by zero. -/
def kellyFraction (inputs : SizingInputs) (fl : Rounding := exactRounding) :
    Except RunError SizingResult :=
  match inputs.kellyWinRate, inputs.kellyAvgWin, inputs.kellyAvgLoss with
  | some p, some avgWin, some avgLoss =>
      let price := inputs.marketContext.currentPrice
      if price ≤ 0 then .ok (zeroSizing "kelly" "price <= 0")
      else if avgLoss ≤ 0 then .ok (zeroSizing "kelly" "kelly_avg_loss <= 0")
      else
        let b := fl (avgWin / avgLoss)
        let q := fl (1 - p)
        if b = 0 then .error .zeroDivision
        else
          let kelly := fl (fl (fl (b * p) - q) / b)
          let fraction := fl (max kelly 0 / 2)
          let qty := fl (fl (inputs.portfolioEquity * fraction) / price)
          .ok
            { qty := max qty 0
              confidence := min (fl (inputs.directionConfidence + fl (5 / 100))) 1
              rationale := "Kelly: win_rate=" ++ formatPercent 1 p ++ ", b=" ++ formatFixed 2 b ++
                ", Kelly=" ++ formatFixed 3 kelly ++ ", half-Kelly=" ++ formatFixed 3 fraction ++
                ", qty=" ++ formatFixed 0 qty ++ " shares"
              method := "kelly" }
  | _, _, _ => .ok (zeroSizing "kelly" "Kelly: 缺少历史数据（win_rate/avg_win/avg_loss）")

/-- The share of the portfolio that the last resorts start from. -/
def baseFraction : ℚ := 5 / 100

/-- The quantity that the base fraction buys. -/
def baseQty (inputs : SizingInputs) (fl : Rounding := exactRounding) : ℚ :=
  fl (fl (inputs.portfolioEquity * fl baseFraction) / inputs.marketContext.currentPrice)

def convictionWeighted (inputs : SizingInputs) (fl : Rounding := exactRounding) : SizingResult :=
  if inputs.marketContext.currentPrice ≤ 0 then zeroSizing "conviction_weighted" "price <= 0"
  else
    let qty := fl (baseQty inputs fl * inputs.directionConfidence)
    { qty := max qty 0
      confidence := inputs.directionConfidence
      rationale := "ConvictionWeighted: " ++ formatPercent 0 baseFraction ++
        " portfolio × confidence=" ++ formatFixed 2 inputs.directionConfidence ++ " = " ++
        formatFixed 0 qty ++ " shares"
      method := "conviction_weighted" }

def fixedFraction (inputs : SizingInputs) (fl : Rounding := exactRounding) : SizingResult :=
  let price := inputs.marketContext.currentPrice
  let atr := inputs.marketContext.atr14
  if price ≤ 0 then zeroSizing "fixed_fraction" "price <= 0"
  else
    let stopDistance :=
      if 0 < atr then fl (atr / price) else max inputs.stopDistancePct (fl (1 / 100))
    let dollarRisk := fl (inputs.portfolioEquity * fl (1 / 100))
    let dollarRiskPerShare := fl (price * stopDistance)
    if dollarRiskPerShare ≤ 0 then zeroSizing "fixed_fraction" "dollar_risk_per_share <= 0"
    else
      let qty := fl (dollarRisk / dollarRiskPerShare)
      { qty := max qty 0
        confidence := 1 / 2
        rationale := "FixedFraction: $" ++ formatFixed 0 dollarRisk ++ " risk / $" ++
          formatFixed 2 dollarRiskPerShare ++ " per share = " ++ formatFixed 0 qty ++ " shares"
        method := "fixed_fraction" }

def drawdownAdjusted (inputs : SizingInputs) (fl : Rounding := exactRounding) : SizingResult :=
  if inputs.marketContext.currentPrice ≤ 0 then zeroSizing "drawdown_adjusted" "price <= 0"
  else
    let adjFactor := max 0 (fl (1 - inputs.drawdownRatio))
    let qty := fl (baseQty inputs fl * adjFactor)
    { qty := max qty 0
      confidence := fl (inputs.directionConfidence * adjFactor)
      rationale := "DrawdownAdjusted: drawdown=" ++ formatPercent 1 inputs.drawdownRatio ++
        ", factor=" ++ formatPercent 1 adjFactor ++ ", qty=" ++ formatFixed 0 qty ++ " shares"
      method := "drawdown_adjusted" }

/-- The size multipliers of the market regimes. -/
def sizeMultipliers : List (String × ℚ) :=
  [("trending_up", 12 / 10), ("trending_down", 8 / 10), ("ranging", 1), ("volatile", 5 / 10),
    ("unknown", 8 / 10)]

def regimeBased (inputs : SizingInputs) (regimeName : String := "unknown")
    (fl : Rounding := exactRounding) : SizingResult :=
  if inputs.marketContext.currentPrice ≤ 0 then zeroSizing "regime_based" "price <= 0"
  else
    let multiplier :=
      inputs.regimeMultiplier.getD (fl ((sizeMultipliers.lookup regimeName).getD (8 / 10)))
    let qty := fl (baseQty inputs fl * multiplier)
    { qty := max qty 0
      confidence := fl (inputs.directionConfidence * multiplier)
      rationale := "RegimeBased: regime=" ++ regimeName ++ ", multiplier=" ++
        formatFixed 2 multiplier ++ ", qty=" ++ formatFixed 0 qty ++ " shares"
      method := "regime_based" }

/-! ## The chain -/

/-- A calculator under the name the chain knows it by. -/
structure SizingCalculator where
  name : String
  calculate : SizingInputs → Except RunError SizingResult

/-- The calculators in the order of the chain. -/
def sizingCalculators (fl : Rounding := exactRounding) : List SizingCalculator :=
  [⟨"volatility_targeting", fun inputs => .ok (volatilityTargeting inputs fl)⟩,
    ⟨"kelly", fun inputs => kellyFraction inputs fl⟩,
    ⟨"conviction_weighted", fun inputs => .ok (convictionWeighted inputs fl)⟩,
    ⟨"fixed_fraction", fun inputs => .ok (fixedFraction inputs fl)⟩,
    ⟨"drawdown_adjusted", fun inputs => .ok (drawdownAdjusted inputs fl)⟩,
    ⟨"regime_based", fun inputs => .ok (regimeBased inputs "unknown" fl)⟩]

/-- The loop over the calculators, with the results so far. -/
def sizingLoop (inputs : SizingInputs) :
    List SizingCalculator → List SizingResult → Except RunError SizingResult
  | [], results =>
      .ok ((results.find? fun r => 0 < r.qty).getD
        (zeroSizing "none" "all sizing methods returned 0"))
  | calculator :: rest, results => do
      let result ← calculator.calculate inputs
      if calculator.name = "volatility_targeting" ∧ 0 < result.qty then return result
      else sizingLoop inputs rest (results ++ [result])

/-- `_run_sizing_chain`. -/
def runSizingChain (inputs : SizingInputs) (fl : Rounding := exactRounding) :
    Except RunError SizingResult :=
  sizingLoop inputs (sizingCalculators fl) []

end TradeOS.Risk
