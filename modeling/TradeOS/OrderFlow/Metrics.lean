import TradeOS.Data.MarketData
import TradeOS.Numeric.Binary64
import TradeOS.Risk.Schemas

/-!
# The metrics of the order flow engine

One function for each part of the analysis: the order book, the delta, the volume-weighted price,
large trades, absorption, sweeps, stop zones and the quality of execution. Each is a function of the
data of one call; only the delta is also told what was accumulated before.

The square root of a standard deviation is a parameter. The delta, which the engine adds up from
call to call, is computed in a rounded arithmetic, and the other metrics exactly.
-/

set_option autoImplicit false

namespace TradeOS.OrderFlow

open Numeric MarketData
open Execution (Side)
open Risk (ExecutionQuality)

/-- The mean of a column. -/
def mean (values : List ℚ) : ℚ := values.sum / values.length

/-- The last values of a column, as `[-count:]` for a positive count. -/
def lastOf (count : ℕ) (values : List ℚ) : List ℚ := values.drop (values.length - count)

/-- The largest value of a column. -/
def largest (values : List ℚ) : ℚ := values.foldl max (values.headD 0)

/-- The smallest value of a column. -/
def smallest (values : List ℚ) : ℚ := values.foldl min (values.headD 0)

/-! ## The order book -/

structure BookMetrics where
  imbalance : ℚ
  bidPressure : ℚ
  askPressure : ℚ
  spread : ℚ
  midPrice : ℚ
  totalBidDepth : ℚ
  totalAskDepth : ℚ
  depthRatio : ℚ
  topBidVolume : ℚ
  topAskVolume : ℚ
  topImbalance : ℚ

/-- A part of a total, or another value where the total is not positive. -/
def share (part total default : ℚ) : ℚ := if 0 < total then part / total else default

/-- `analyze_book`. -/
def analyzeBook (snapshot : OrderBookSnapshot) : BookMetrics :=
  let totalBid := (snapshot.bids.map Prod.snd).sum
  let totalAsk := (snapshot.asks.map Prod.snd).sum
  let totalDepth := totalBid + totalAsk
  let (bestBid, topBid) := snapshot.bids.headD (0, 0)
  let (bestAsk, topAsk) := snapshot.asks.headD (0, 0)
  { imbalance := roundTo 4 (share (totalBid - totalAsk) totalDepth 0)
    bidPressure := roundTo 4 (share totalBid totalDepth (1 / 2))
    askPressure := roundTo 4 (share totalAsk totalDepth (1 / 2))
    spread := roundTo 6 (if 0 < bestAsk then bestAsk - bestBid else 0)
    midPrice := if 0 < bestAsk then (bestBid + bestAsk) / 2 else 0
    totalBidDepth := totalBid
    totalAskDepth := totalAsk
    depthRatio := roundTo 4 (share totalBid totalDepth (1 / 2))
    topBidVolume := topBid
    topAskVolume := topAsk
    topImbalance := roundTo 4 (share (topBid - topAsk) (topBid + topAsk) 0) }

/-! ## The delta -/

structure DeltaMetrics where
  delta : ℚ
  cumDelta : ℚ
  buyVolume : ℚ
  sellVolume : ℚ
  buyCount : ℕ
  sellCount : ℕ
  aggressiveBuyRatio : ℚ
  aggressiveSellRatio : ℚ
  tradeCount : ℕ

/-- The volumes and counts of the loop over the trades. -/
structure Flow where
  buyVolume : ℚ := 0
  sellVolume : ℚ := 0
  buyCount : ℕ := 0
  sellCount : ℕ := 0

section Delta

variable (fl : Rounding)

/-- One round of the loop. -/
def Flow.add (flow : Flow) (trade : TradePrint) : Flow :=
  if trade.side = .buy ∨ trade.isBuySideTaker = some true then
    { flow with
      buyVolume := fl (flow.buyVolume + trade.size.val)
      buyCount := flow.buyCount + 1 }
  else if trade.side = .sell ∨ trade.isBuySideTaker = some false then
    { flow with
      sellVolume := fl (flow.sellVolume + trade.size.val)
      sellCount := flow.sellCount + 1 }
  else
    { buyVolume := fl (flow.buyVolume + fl (trade.size.val / 2))
      sellVolume := fl (flow.sellVolume + fl (trade.size.val / 2))
      buyCount := flow.buyCount + 1
      sellCount := flow.sellCount + 1 }

/-- The flow of the trades. -/
def flowOf (trades : List TradePrint) : Flow := trades.foldl (Flow.add fl) {}

/-- The bought volume less the sold volume. -/
def Flow.delta (flow : Flow) : ℚ := fl (flow.buyVolume - flow.sellVolume)

/-- `calc_delta`. -/
def calcDelta (trades : List TradePrint) (prevCumDelta : ℚ) : DeltaMetrics :=
  let flow := flowOf fl trades
  let totalVolume := fl (flow.buyVolume + flow.sellVolume)
  { delta := fl.decimal 2 (flow.delta fl)
    cumDelta := fl.decimal 2 (fl (prevCumDelta + flow.delta fl))
    buyVolume := fl.decimal 2 flow.buyVolume
    sellVolume := fl.decimal 2 flow.sellVolume
    buyCount := flow.buyCount
    sellCount := flow.sellCount
    aggressiveBuyRatio := fl.decimal 4 (fl (share flow.buyVolume totalVolume (1 / 2)))
    aggressiveSellRatio := fl.decimal 4 (fl (share flow.sellVolume totalVolume (1 / 2)))
    tradeCount := flow.buyCount + flow.sellCount }

end Delta

/-! ## The volume-weighted price -/

structure VWAPMetrics where
  vwap : ℚ := 0
  deviation : ℚ := 0
  deviationAbs : ℚ := 0
  currentPrice : ℚ := 0
  volumeWeightedPrice : ℚ := 0

/-- The metrics of prices with their volumes, at a current price. -/
def vwapOf (prices volumes : List ℚ) (currentPrice : ℚ) : VWAPMetrics :=
  if volumes.sum = 0 then { currentPrice := currentPrice }
  else
    let vwap := (List.zipWith (· * ·) prices volumes).sum / volumes.sum
    let deviation := if 0 < vwap then (currentPrice - vwap) / vwap else 0
    { vwap := roundTo 4 vwap
      deviation := roundTo 6 deviation
      deviationAbs := roundTo 6 |deviation|
      currentPrice := roundTo 4 currentPrice
      volumeWeightedPrice := roundTo 4 vwap }

/-- The columns of the bars of a call. -/
structure BarColumns where
  highs : List ℚ
  lows : List ℚ
  closes : List ℚ
  volumes : List ℚ

/-- The columns of the bars. -/
def columnsOf (bars : List MarketBar) : BarColumns where
  highs := bars.map fun bar => bar.high.val
  lows := bars.map fun bar => bar.low.val
  closes := bars.map fun bar => bar.close.val
  volumes := bars.map fun bar => bar.volume.val

/-- `calc_vwap_from_bars`. -/
def calcVwapFromBars (columns : BarColumns) : VWAPMetrics :=
  match columns.closes.getLast? with
  | none => {}
  | some current =>
      let typicalPrices := List.zipWith (fun pair close => (pair + close) / 3)
        (List.zipWith (· + ·) columns.highs columns.lows) columns.closes
      vwapOf typicalPrices columns.volumes current

/-- `calc_vwap_from_trades`. -/
def calcVwapFromTrades (prices sizes : List ℚ) : VWAPMetrics :=
  match prices.getLast? with
  | none => {}
  | some current => vwapOf prices sizes current

/-! ## Large trades -/

structure LargeTradeMetrics where
  largeTradeCount : ℕ
  largeTradeVolume : ℚ
  totalVolume : ℚ
  concentrationRatio : ℚ
  avgTradeSize : ℚ
  largeMultiplier : ℚ

/-- `detect_large_trades`, for at least one trade. -/
def detectLargeTrades (trades : List TradePrint) (largeMultiplier : ℚ) : LargeTradeMetrics :=
  let sizes := trades.map fun trade => trade.size.val
  let avgSize := mean sizes
  let large := sizes.filter fun size => avgSize * largeMultiplier ≤ size
  { largeTradeCount := large.length
    largeTradeVolume := roundTo 2 large.sum
    totalVolume := roundTo 2 sizes.sum
    concentrationRatio := roundTo 4 (share large.sum sizes.sum 0)
    avgTradeSize := roundTo 2 avgSize
    largeMultiplier := largeMultiplier }

/-! ## Absorption -/

inductive AbsorptionDirection where
  | buyAbsorbed
  | sellAbsorbed
  | none
  deriving DecidableEq, Repr

structure AbsorptionMetrics where
  absorptionScore : ℚ := 0
  absorbedAtPrice : Option ℚ := none
  absorbedVolume : ℚ := 0
  direction : AbsorptionDirection := .none

/-- The volume of the trades of one side. -/
def volumeOn (p : TradePrint → Bool) (trades : List TradePrint) : ℚ :=
  ((trades.filter p).map fun trade => trade.size.val).sum

/-- The direction of more bought or more sold volume, by a factor. -/
def absorbedSide (factor buyVolume sellVolume : ℚ) : AbsorptionDirection :=
  if sellVolume * factor < buyVolume then .sellAbsorbed
  else if buyVolume * factor < sellVolume then .buyAbsorbed
  else .none

/-- The number of price buckets. -/
def buckets : ℕ := 10

/-- The bucket of a price. -/
def bucketOf (minPrice bucketSize price : ℚ) : ℕ :=
  min ⌊(price - minPrice) / bucketSize⌋.toNat (buckets - 1)

/-- `detect_absorption`, for at least one trade. -/
def detectAbsorption (trades : List TradePrint) (volumeThresholdRatio : ℚ) : AbsorptionMetrics :=
  let prices := trades.map fun trade => trade.price.val
  let minPrice := smallest prices
  let priceRange := largest prices - minPrice
  let bought : TradePrint → Bool := fun trade => trade.side = .buy
  if priceRange = 0 then
    let totalVolume := volumeOn (fun _ => true) trades
    let buyVolume := volumeOn bought trades
    { absorptionScore := min 1 (totalVolume / 10000)
      absorbedAtPrice := some minPrice
      absorbedVolume := totalVolume
      direction := absorbedSide 1 buyVolume (totalVolume - buyVolume) }
  else
    let bucketSize := priceRange / buckets
    let inBucket (k : ℕ) : TradePrint → Bool := fun trade =>
      bucketOf minPrice bucketSize trade.price.val = k
    let bucketVolumes := (List.range buckets).map fun k => volumeOn (inBucket k) trades
    let maxVolume := largest bucketVolumes
    let maxIndex := bucketVolumes.findIdx fun volume => volume = maxVolume
    let avgVolume := bucketVolumes.sum / buckets
    if maxVolume < avgVolume * volumeThresholdRatio then {}
    else
      let buyVolume := volumeOn (fun trade => inBucket maxIndex trade && bought trade) trades
      let sellVolume := volumeOn (fun trade => inBucket maxIndex trade && !bought trade) trades
      { absorptionScore := roundTo 3 (min 1 ((maxVolume - avgVolume) / (avgVolume + 1)))
        absorbedAtPrice := some (roundTo 4 (minPrice + (maxIndex + 1 / 2) * bucketSize))
        absorbedVolume := roundTo 2 maxVolume
        direction := if buyVolume + sellVolume = 0 then .none
          else absorbedSide (3 / 2) buyVolume sellVolume }

/-- A bar of the window of `detect_absorption_from_bars`. -/
structure WindowBar where
  high : ℚ
  low : ℚ
  close : ℚ
  volume : ℚ

/-- The last bars of the columns. -/
def windowBars (count : ℕ) (columns : BarColumns) : List WindowBar :=
  List.zipWith (fun (prices : ℚ × ℚ) (rest : ℚ × ℚ) => ⟨prices.1, prices.2, rest.1, rest.2⟩)
    ((lastOf count columns.highs).zip (lastOf count columns.lows))
    ((lastOf count columns.closes).zip (lastOf count columns.volumes))

/-- Where the close of a bar says the volume was absorbed. -/
def closeDirection (bar : WindowBar) : AbsorptionDirection :=
  let range := bar.high - bar.low
  if 0 < range then
    let closePosition := (bar.close - bar.low) / range
    if closePosition < 3 / 10 then .buyAbsorbed
    else if 7 / 10 < closePosition then .sellAbsorbed
    else .none
  else .none

/-- `detect_absorption_from_bars`, with its default window of ten bars and ratio of two. -/
def detectAbsorptionFromBars (columns : BarColumns) : AbsorptionMetrics :=
  if columns.closes.length < 10 then {}
  else
    let bars := windowBars 10 columns
    let avgRange := mean (bars.map fun bar => bar.high - bar.low)
    let avgVolume := mean (bars.map WindowBar.volume)
    let quiet := bars.filter fun bar =>
      bar.high - bar.low < avgRange / 2 ∧ avgVolume * 2 < bar.volume
    match quiet.getLast? with
    | none => {}
    | some bar =>
        { absorptionScore := roundTo 3 (min 1 (bar.volume / (avgVolume * 2)))
          absorbedAtPrice := some (roundTo 4 bar.close)
          absorbedVolume := roundTo 2 bar.volume
          direction := closeDirection bar }

/-! ## Sweeps -/

inductive SweepDirection where
  | up
  | down
  | none
  deriving DecidableEq, Repr

structure SweepMetrics where
  sweepDetected : Bool
  sweepDirection : SweepDirection
  sweepMagnitude : ℚ
  sweepVolume : ℚ
  sweepPriceStart : ℚ
  sweepPriceEnd : ℚ
  confidence : ℚ

theorem defaultThreshold_pos : (0 : ℚ) < 2 / 100 := by norm_num

theorem defaultSpikeRatio_pos : (0 : ℚ) < 2 := by norm_num

/-- What `detect_sweep_from_bars` is told by the configuration. -/
structure SweepConfig where
  lookback : ℕ := 5
  priceMoveThreshold : PositiveRational := ⟨2 / 100, defaultThreshold_pos⟩
  volumeSpikeRatio : PositiveRational := ⟨2, defaultSpikeRatio_pos⟩
  positive : 0 < lookback := by decide

/-- `detect_sweep_from_bars`, for at least as many bars as it looks back. -/
def detectSweepFromBars (config : SweepConfig) (columns : BarColumns) : SweepMetrics :=
  let closes := lastOf config.lookback columns.closes
  let maxHigh := largest (lastOf config.lookback columns.highs)
  let minLow := smallest (lastOf config.lookback columns.lows)
  let maxVolume := largest (lastOf config.lookback columns.volumes)
  let startPrice := closes.headD 0
  let upMove := share (maxHigh - startPrice) startPrice 0
  let downMove := share (startPrice - minLow) startPrice 0
  let spike := share maxVolume (mean columns.volumes) 1
  let threshold := config.priceMoveThreshold.val
  let ratio := config.volumeSpikeRatio.val
  let confidence (size : ℚ) := min 1 (size / threshold * (spike / ratio) * (1 / 2))
  let result (direction : SweepDirection) (magnitude priceEnd confidence : ℚ) : SweepMetrics :=
    { sweepDetected := direction ≠ .none
      sweepDirection := direction
      sweepMagnitude := roundTo 4 magnitude
      sweepVolume := roundTo 2 maxVolume
      sweepPriceStart := roundTo 4 startPrice
      sweepPriceEnd := roundTo 4 priceEnd
      confidence := roundTo 3 confidence }
  if threshold ≤ upMove ∧ ratio ≤ spike then result .up upMove maxHigh (confidence upMove)
  else if threshold ≤ downMove ∧ ratio ≤ spike then
    result .down downMove minLow (confidence downMove)
  else result .none 0 (closes.getLastD 0) 0

/-- The bars with their second bar after, if that is in the window. -/
def reversals : List WindowBar → List (ℚ × ℚ) → ℚ → List (ℚ × ℚ)
  | bar :: next :: later :: rest, zones, threshold =>
      let found := threshold < bar.volume ∧ later.close < bar.high ∧ bar.low < later.close
      reversals (next :: later :: rest) (if found then zones ++ [(bar.low, bar.high)] else zones)
        threshold
  | _, zones, _ => zones

/-- `detect_stop_hunt_zones` over the last twenty bars. -/
def detectStopHuntZones (columns : BarColumns) : List (ℚ × ℚ) :=
  if columns.closes.length < 20 then []
  else
    let bars := windowBars 20 columns
    reversals bars [] (mean (bars.map WindowBar.volume) * 3)

/-! ## Execution quality -/

structure ExecutionMetrics where
  expectedSlippage : ℚ
  executionCondition : ExecutionQuality
  availableLiquidity : ℚ
  marketImpact : ℚ

/-- Taking levels until an order is filled: the filled size and its cost, as they are computed. -/
def fillLevels (fl : Rounding) (orderSize : ℚ) : List (ℚ × ℚ) → ℚ → ℚ → ℚ × ℚ
  | [], filled, cost => (filled, cost)
  | (price, size) :: levels, filled, cost =>
      let fill := min size (fl (orderSize - filled))
      let spent := fl (cost + fl (fill * price))
      if orderSize ≤ fl (filled + fill) then (fl (filled + fill), spent)
      else fillLevels fl orderSize levels (fl (filled + fill)) spent

/-- The rating of a slippage. -/
def slippageQuality (bps : ℚ) : ExecutionQuality :=
  if bps < 5 then .excellent
  else if bps < 15 then .good
  else if bps < 50 then .fair
  else .poor

/-- The levels that an order of a side consumes. -/
def consumedLevels (snapshot : OrderBookSnapshot) (side : String) : List (ℚ × ℚ) :=
  if side = "buy" then snapshot.asks else snapshot.bids

/-- The slippage of an average price, in basis points of the best one. -/
def slippageBps (avgPrice bestPrice : ℚ) (fl : Rounding := exactRounding) : ℚ :=
  fl (fl (share |fl (avgPrice - bestPrice)| bestPrice 0) * 10000)

/-- `estimate_execution_quality`, with the rounding of its result. The slippage, from which the
rating follows, is computed in an arithmetic of its own. -/
def estimateWith (round : ℕ → ℚ → ℚ) (snapshot : Option OrderBookSnapshot) (orderSize : ℚ)
    (side : String) (fl : Rounding := exactRounding) : ExecutionMetrics :=
  match snapshot with
  | none => ⟨50, .fair, 0, 0⟩
  | some snapshot =>
      if snapshot.bids.isEmpty ∨ snapshot.asks.isEmpty then ⟨50, .fair, 0, 0⟩
      else
        let levels := consumedLevels snapshot side
        let (filled, totalCost) := fillLevels fl orderSize levels 0 0
        if filled = 0 then ⟨100, .poor, 0, 0⟩
        else
          let bestPrice := (levels.headD (0, 0)).1
          let slippage := slippageBps (fl (totalCost / filled)) bestPrice fl
          let availableLiquidity := (levels.map Prod.snd).sum
          { expectedSlippage := round 1 slippage
            executionCondition := slippageQuality slippage
            availableLiquidity := round 2 availableLiquidity
            marketImpact := round 4 (share orderSize availableLiquidity 1) }

/-- What the engine asks for: the estimate of a bought size. -/
def estimateExecutionQuality (snapshot : OrderBookSnapshot) (orderSize : ℚ) : ExecutionMetrics :=
  estimateWith roundTo (some snapshot) orderSize "buy"

/-- The standard deviation of a column. -/
def deviation (sqrt : ℚ → ℚ) (values : List ℚ) : ℚ :=
  sqrt (mean (values.map fun x => (x - mean values) * (x - mean values)))

/-- `estimate_slippage_from_bars`, for at least one bar. -/
def estimateSlippageFromBars (sqrt : ℚ → ℚ) (volumes : List ℚ) : ℚ :=
  let spread := if 1 < volumes.length then deviation sqrt volumes else 0
  roundTo 1 (5 + share spread (mean volumes) 1 * 10)

end TradeOS.OrderFlow
