import TradeOS.Risk.Schemas

/-!
# Risk filters

The seven filters of `core/risk/filters`. A filter receives a quantity and the
context of the call and returns the adjusted quantity with its verdict. `apply`
short-circuits a quantity that is not positive.

The engine passes neither the urgency nor an estimated slippage to the filters,
so these two fields of the context keep the defaults of the filters that read
them.

The arithmetic of the floats is a parameter, `fl`; where none is given, it is exact.
-/

set_option autoImplicit false

namespace TradeOS.Risk

open TradeOS.Numeric

/-- The result of one filter. -/
structure FilterResult where
  passed : Bool
  adjustedQty : ℚ
  limitCheckPassed : Bool
  mode : FilterMode := .pass
  details : String := ""

/-- Within the limit: the quantity is kept. -/
def FilterResult.kept (qty : ℚ) (details : String) : FilterResult :=
  ⟨true, qty, true, .pass, details⟩

/-- Cut to a limit, without a rejection. -/
def FilterResult.cut (qty : ℚ) (details : String) : FilterResult :=
  ⟨true, qty, true, .cap, details⟩

/-- Rejected. -/
def FilterResult.rejected (details : String) : FilterResult :=
  ⟨false, 0, false, .veto, details⟩

/-- The keyword arguments of the filters. -/
structure FilterContext where
  directionSign : ℤ
  riskLimits : Option RiskLimits := none
  symbol : String
  portfolioEquity : ℚ
  currentPrice : ℚ
  marketContext : Option MarketContext := none
  existingPositionQty : ℚ
  existingPositionSymbols : List String
  existingDirections : List ℤ
  correlationMatrix : List ((String × String) × ℚ)
  correlationValue : Option ℚ
  avgEntryPrice : ℚ
  dailyLossPct : ℚ
  currentDrawdownPct : ℚ
  urgency : String := "medium"
  estimatedSlippageBps : ℚ := 0

/-- A risk filter: its name and its verdict on a positive quantity. -/
structure RiskFilter where
  name : String
  filter : FilterContext → ℚ → FilterResult

/-- `RiskFilter.apply`. -/
def RiskFilter.apply (f : RiskFilter) (context : FilterContext) (qty : ℚ) : FilterResult :=
  if qty ≤ 0 then FilterResult.kept 0 "qty=0, skip filter" else f.filter context qty

/-! ## Position, loss and drawdown limits -/

/-- The largest quantity that the position limit allows. -/
def positionCap (limits : RiskLimits) (equity price : ℚ) (fl : Rounding := exactRounding) : ℚ :=
  fl (fl (equity * fl limits.maxPositionPct.val) / max price (fl minPrice))

def positionLimitFilter (fl : Rounding := exactRounding) : RiskFilter where
  name := "max_position_pct"
  filter context qty :=
    match context.riskLimits with
    | none => FilterResult.kept qty "no risk_limits"
    | some limits =>
        let limit := fl limits.maxPositionPct.val
        let limitQty := positionCap limits context.portfolioEquity context.currentPrice fl
        if qty ≤ limitQty then
          FilterResult.kept qty ("qty=" ++ formatFixed 0 qty ++ " <= limit=" ++
            formatFixed 0 limitQty ++ " (" ++ formatPercent 1 limit ++ ")")
        else
          FilterResult.cut limitQty ("capped: " ++ formatFixed 0 qty ++ " → " ++
            formatFixed 0 limitQty ++ " (limit=" ++ formatPercent 1 limit ++ ")")

/-- The loss of one trade, when it exceeds its limit. -/
def tradeLossReason (limits : RiskLimits) (context : FilterContext) (qty : ℚ)
    (fl : Rounding := exactRounding) : Option String :=
  let limitTrade := fl limits.maxLossPctPerTrade.val
  let potentialLoss := fl (qty * |fl (context.currentPrice - context.avgEntryPrice)|)
  let lossPct := fl (potentialLoss / context.portfolioEquity)
  if 0 < context.avgEntryPrice ∧ 0 < context.currentPrice ∧ 0 < potentialLoss ∧
      0 < context.portfolioEquity ∧ limitTrade < lossPct then
    some ("单笔损失 " ++ formatPercent 2 lossPct ++ " > 限额 " ++ formatPercent 2 limitTrade)
  else none

/-- The loss of the day, when it exceeds its limit. -/
def dailyLossReason (limits : RiskLimits) (context : FilterContext)
    (fl : Rounding := exactRounding) : Option String :=
  let limitDay := fl limits.maxLossPctPerDay.val
  if 0 < limitDay ∧ limitDay < context.dailyLossPct then
    some ("日亏损 " ++ formatPercent 2 context.dailyLossPct ++ " > 限额 " ++
      formatPercent 2 limitDay)
  else none

def lossLimitFilter (fl : Rounding := exactRounding) : RiskFilter where
  name := "loss_limit"
  filter context qty :=
    match context.riskLimits with
    | none => FilterResult.kept qty "no risk_limits"
    | some limits =>
        let reasons := (tradeLossReason limits context qty fl).toList ++
          (dailyLossReason limits context fl).toList
        if reasons ≠ [] then
          let details := "; ".intercalate reasons
          FilterResult.rejected (if details = "" then "loss_limit veto" else details)
        else
          FilterResult.kept qty
            ("loss checks passed (daily=" ++ formatPercent 2 context.dailyLossPct ++ ")")

def drawdownLimitFilter (fl : Rounding := exactRounding) : RiskFilter where
  name := "max_drawdown_pct"
  filter context qty :=
    match context.riskLimits with
    | none => FilterResult.kept qty "no risk_limits"
    | some limits =>
        let limit := fl limits.maxDrawdownPct.val
        let drawdown := context.currentDrawdownPct
        if limit ≤ drawdown then
          FilterResult.rejected
            ("drawdown " ++ formatPercent 2 drawdown ++ " >= limit " ++ formatPercent 2 limit)
        else
          FilterResult.kept qty
            ("drawdown " ++ formatPercent 2 drawdown ++ " < limit " ++ formatPercent 2 limit)

/-! ## Correlation limit -/

/-- The entry of a pair of symbols, in either order. -/
def pairCorrelation (matrix : List ((String × String) × ℚ)) (symbol existing : String) :
    Option ℚ :=
  (matrix.lookup (symbol, existing)).or (matrix.lookup (existing, symbol))

/-- The correlation that the filter checks: the given value, else the largest
absolute entry between the symbol and an existing position. -/
def resolvedCorrelation (context : FilterContext) : Option ℚ :=
  match context.correlationValue with
  | some value => some value
  | none =>
      if context.correlationMatrix ≠ [] ∧ context.symbol ≠ "" ∧
          context.existingPositionSymbols ≠ [] then
        context.existingPositionSymbols.foldl
          (fun resolved existing =>
            match pairCorrelation context.correlationMatrix context.symbol existing with
            | none => resolved
            | some value => some (max |value| |resolved.getD 0|))
          none
      else none

/-- Some existing position has the direction of the order; without existing
positions the answer is yes. -/
def sameDirection (context : FilterContext) : Bool :=
  context.existingDirections = [] ∨
    ∃ existing ∈ context.existingDirections,
      (existing = -1 ∨ existing = 1) ∧ existing = context.directionSign

/-- The share of the quantity that a breach leaves. -/
def reductionRatio (maxCorr absCorr : ℚ) (fl : Rounding := exactRounding) : ℚ :=
  let overflow := fl (fl (absCorr - maxCorr) / max (fl (1 - maxCorr)) (fl (1 / 10 ^ 6)))
  max (1 / 4) (fl (1 - min overflow 1))

def correlationLimitFilter (fl : Rounding := exactRounding) : RiskFilter where
  name := "max_correlation"
  filter context qty :=
    match context.riskLimits with
    | none => FilterResult.kept qty "no risk limits configured"
    | some limits =>
        let maxCorr := fl limits.maxCorrelation.val
        if maxCorr ≤ 0 then FilterResult.kept qty "max_correlation disabled"
        else
          match resolvedCorrelation context with
          | none => FilterResult.kept qty "no correlation data"
          | some resolved =>
              let absCorr := |resolved|
              if absCorr ≤ maxCorr then
                FilterResult.kept qty ("correlation " ++ formatFixed 3 absCorr ++
                  " within threshold " ++ formatFixed 3 maxCorr)
              else if !sameDirection context then
                FilterResult.kept qty ("correlation " ++ formatFixed 3 absCorr ++
                  " breached but exposure offsets existing positions")
              else
                let adjusted := fl.decimal 6 (fl (qty * reductionRatio maxCorr absCorr fl))
                let breach := "correlation " ++ formatFixed 3 absCorr ++ " exceeds threshold " ++
                  formatFixed 3 maxCorr
                if adjusted ≤ 0 then FilterResult.rejected (breach ++ "; vetoed")
                else
                  { passed := true
                    adjustedQty := adjusted
                    limitCheckPassed := false
                    mode := .cap
                    details := breach ++ "; qty reduced to " ++ formatDefault adjusted }

/-! ## Liquidity, participation and slippage -/

/-- The share of the daily volume that the liquidity cap allows at most. -/
def liquidityMaxParticipation : ℚ := 20 / 100

/-- The share of the daily volume that the liquidity cap allows. -/
def liquidityShare (riskLimits : Option RiskLimits) (fl : Rounding := exactRounding) : ℚ :=
  match riskLimits with
  | none => fl liquidityMaxParticipation
  | some limits =>
      min (fl (fl limits.maxOrderSizePct.val * 10)) (fl liquidityMaxParticipation)

def liquidityCapFilter (fl : Rounding := exactRounding) : RiskFilter where
  name := "liquidity_cap"
  filter context qty :=
    match context.marketContext with
    | none => FilterResult.kept qty "no market_context"
    | some market =>
        let adv := market.avgDailyVolume20d
        if adv ≤ 0 then FilterResult.kept qty ("adv=" ++ formatDefault adv ++ ", no cap")
        else
          let maxShare := liquidityShare context.riskLimits fl
          let maxQty := fl (adv * maxShare)
          if qty ≤ maxQty then
            FilterResult.kept qty ("qty=" ++ formatFixed 0 qty ++ " <= adv_cap=" ++
              formatFixed 0 maxQty ++ " (" ++ formatPercent 0 maxShare ++ " ADV)")
          else
            FilterResult.cut maxQty ("liquidity cap: " ++ formatFixed 0 qty ++ " → " ++
              formatFixed 0 maxQty ++ " (" ++ formatPercent 0 maxShare ++ " ADV)")

/-- The participation limits of the urgencies; the filter and the planner hold
the same table. -/
def maxParticipationTable : List (String × ℚ) :=
  [("low", 5 / 100), ("medium", 10 / 100), ("high", 20 / 100)]

/-- The participation limit of an urgency, `0.10` when it is not listed. -/
def maxParticipation (urgency : String) : ℚ := (maxParticipationTable.lookup urgency).getD (1 / 10)

def participationRateFilter (fl : Rounding := exactRounding) : RiskFilter where
  name := "participation_rate"
  filter context qty :=
    match context.marketContext with
    | none => FilterResult.kept qty "no market_context"
    | some market =>
        let price := market.currentPrice
        if market.avgDailyVolume20d ≤ 0 ∨ price ≤ 0 then FilterResult.kept qty "no adv or price"
        else
          let notional := fl (qty * price)
          let participation := fl (notional / max market.adv20dUsd notional)
          let maxPr := fl (maxParticipation context.urgency)
          if participation ≤ maxPr then
            FilterResult.kept qty ("participation=" ++ formatPercent 2 participation ++
              " <= limit=" ++ formatPercent 2 maxPr)
          else
            let capped := fl (fl (market.adv20dUsd * maxPr) / price)
            FilterResult.cut capped ("participation cap: " ++ formatFixed 0 qty ++ " → " ++
              formatFixed 0 capped ++ " (rate=" ++ formatPercent 2 participation ++ " > " ++
              formatPercent 2 maxPr ++ ")")

def slippageLimitFilter (fl : Rounding := exactRounding) : RiskFilter where
  name := "max_slippage_bps"
  filter context qty :=
    match context.riskLimits with
    | none => FilterResult.kept qty "no risk_limits"
    | some limits =>
        let maxSlippage := fl limits.maxSlippageBps.val
        let estimated := context.estimatedSlippageBps
        if estimated ≤ maxSlippage then
          FilterResult.kept qty ("slippage=" ++ formatFixed 1 estimated ++ "bps <= limit=" ++
            formatFixed 1 maxSlippage ++ "bps")
        else
          FilterResult.rejected ("slippage veto: est=" ++ formatFixed 1 estimated ++
            "bps > limit=" ++ formatFixed 1 maxSlippage ++ "bps")

/-- The filters in the order the engine runs them. -/
def riskFilters (fl : Rounding := exactRounding) : List RiskFilter :=
  [positionLimitFilter fl, lossLimitFilter fl, drawdownLimitFilter fl, correlationLimitFilter fl,
    liquidityCapFilter fl, participationRateFilter fl, slippageLimitFilter fl]

/-- The limit that a filter name denotes among the risk limits, `0` when the
limits have no field of that name. -/
def limitValue (limits : RiskLimits) (name : String) : ℚ :=
  if name = "max_position_pct" then limits.maxPositionPct.val
  else if name = "max_drawdown_pct" then limits.maxDrawdownPct.val
  else if name = "max_correlation" then limits.maxCorrelation.val
  else if name = "max_slippage_bps" then limits.maxSlippageBps.val
  else 0

end TradeOS.Risk
