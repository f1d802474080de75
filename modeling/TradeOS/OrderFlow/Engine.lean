import TradeOS.OrderFlow.Metrics

/-!
# The order flow engine

`analyze` reads the bars, the order book and the trades of one call, computes the metrics and builds
a signal. The engine keeps one number between calls, the cumulative delta: it is added to the delta
of the trades, and it is the cumulative delta of a call without trades.

`batch_analyze` analyses the entries of a map one after the other on the same engine, and reports a
failure as a neutral signal with the error.

What the validation of a dictionary returns, and the readings of the clock, are part of the input.
The order book and the trades of the keyword arguments are those of the whole batch.
-/

set_option autoImplicit false

namespace TradeOS.OrderFlow

open Numeric MarketData
open Risk (ExecutionQuality)
open Store (TimeFrame)

/-! ## Inputs -/

/-- What an analysis raises. -/
inductive Failure where
  | field (error : RunError)
  | validation (text : String)
  | attribute (typeName name : String)
  deriving DecidableEq

/-- An item where a record is expected: the record, a dictionary with the outcome of its validation,
or another value. -/
inductive Item (ρ : Type) where
  | record (value : ρ)
  | fields (validated : Except String ρ)
  | other

/-- `_to_bars`, `_to_trades`: the records, and the dictionaries that become records. -/
def toRecords {ρ : Type} : List (Item ρ) → Except Failure (List ρ)
  | [] => .ok []
  | .record value :: items => do
      let rest ← toRecords items
      return value :: rest
  | .fields (.ok value) :: items => do
      let rest ← toRecords items
      return value :: rest
  | .fields (.error text) :: _ => .error (.validation text)
  | .other :: items => toRecords items

/-- `_to_order_book`. -/
def toOrderBook : Item OrderBookSnapshot → Except Failure (Option OrderBookSnapshot)
  | .record book => .ok (some book)
  | .fields (.ok book) => .ok (some book)
  | .fields (.error text) => .error (.validation text)
  | .other => .ok none

/-- An element of a list: a bar, a trade, a dictionary, or a value of another type. -/
inductive Element where
  | bar (bar : MarketBar)
  | trade (trade : TradePrint)
  | fields (validated : Except String MarketBar)
  | other (typeName : String)

namespace Element

/-- The name of the type. -/
def typeName : Element → String
  | bar _ => "MarketBar"
  | trade _ => "TradePrint"
  | fields _ => "dict"
  | other typeName => typeName

/-- An element that is used as a bar. -/
def asBar : Element → Except Failure MarketBar
  | .bar value => .ok value
  | element => .error (.attribute element.typeName "open")

/-- An element that is used as a trade. -/
def asTrade : Element → Except Failure TradePrint
  | .trade value => .ok value
  | element => .error (.attribute element.typeName "side")

/-- The item of a list that begins with neither a bar nor a trade. -/
def item : Element → Item MarketBar
  | .bar value => .record value
  | .trade _ => .other
  | .fields validated => .fields validated
  | .other _ => .other

end Element

/-- The data of one symbol. -/
inductive Data where
  | none
  | entries (bars : Option (List (Item MarketBar))) (orderBook : Option (Item OrderBookSnapshot))
      (trades : Option (List (Item TradePrint)))
  | list (elements : List Element)
  | other

/-- The keyword arguments of a call. -/
structure Keywords where
  orderBook : Option OrderBookSnapshot := none
  trades : List TradePrint := []

/-- What `_parse_input` returns. -/
structure Input where
  bars : List MarketBar := []
  book : Option OrderBookSnapshot := none
  trades : List TradePrint := []
  isProxy : Bool

/-- An input with the mode that follows from it. -/
def inputOf (bars : List MarketBar) (book : Option OrderBookSnapshot) (trades : List TradePrint) :
    Input :=
  ⟨bars, book, trades, book.isNone && trades.isEmpty⟩

/-- `_parse_input`. The elements of a list are used as what its first element is. -/
def parseInput (keywords : Keywords) : Data → Except Failure Input
  | .none => .ok ⟨[], keywords.orderBook, keywords.trades, true⟩
  | .entries bars orderBook trades => do
      let bars ← toRecords (bars.getD [])
      let book ← match keywords.orderBook, orderBook with
        | some book, _ => pure (some book)
        | none, some item => toOrderBook item
        | none, none => pure none
      let trades ← if keywords.trades.isEmpty then toRecords (trades.getD []) else
        pure keywords.trades
      return inputOf bars book trades
  | .list (.bar first :: elements) => do
      let rest ← elements.mapM Element.asBar
      return inputOf (first :: rest) keywords.orderBook keywords.trades
  | .list (.trade first :: elements) => do
      let rest ← elements.mapM Element.asTrade
      return inputOf [] keywords.orderBook (first :: rest)
  | .list elements => do
      let bars ← toRecords (elements.map Element.item)
      return inputOf bars keywords.orderBook keywords.trades
  | .other => .ok (inputOf [] keywords.orderBook keywords.trades)

/-! ## The signal -/

structure BookDetail where
  totalBidDepth : ℚ
  totalAskDepth : ℚ
  spread : ℚ

structure DeltaDetail where
  buyVolume : ℚ
  sellVolume : ℚ
  aggressiveBuyRatio : ℚ
  aggressiveSellRatio : ℚ

structure VwapDetail where
  vwap : ℚ
  deviation : ℚ

structure LargeTradeDetail where
  count : ℕ
  concentration : ℚ

structure AbsorptionDetail where
  score : ℚ
  direction : AbsorptionDirection
  price : Option ℚ

structure SweepDetail where
  detected : Bool
  direction : SweepDirection
  magnitude : ℚ

/-- The metadata of a signal: the details of an analysis, or the error of one that failed. -/
inductive Metadata where
  | details (proxy : Bool) (bookImbalance : Option BookDetail) (delta : Option DeltaDetail)
      (vwap : Option VwapDetail) (largeTrade : Option LargeTradeDetail)
      (absorption : Option AbsorptionDetail) (sweep : Option SweepDetail)
  | error (raised : Failure)

structure OrderFlowSignal where
  symbol : String
  timestamp : Timestamp
  timeframe : TimeFrame
  bookImbalance : ℚ := 0
  bidPressure : ℚ := 0
  askPressure : ℚ := 0
  delta : ℚ := 0
  cumDelta : ℚ := 0
  absorptionScore : UnitRational := UnitRational.zero
  liquiditySweep : Bool := false
  expectedSlippage : NonnegRational := NonnegRational.zero
  executionCondition : ExecutionQuality := .fair
  stopHuntZones : List (ℚ × ℚ) := []
  metadata : Metadata

/-- What the engine is configured with. -/
structure Config where
  largeTradeMultiplier : ℚ := 3
  absorptionVolumeRatio : ℚ := 3
  sweep : SweepConfig := {}

/-- The metrics of one call. -/
structure Metrics where
  book : Option BookMetrics
  delta : Option DeltaMetrics
  vwap : Option VWAPMetrics
  largeTrades : Option LargeTradeMetrics
  absorption : Option AbsorptionMetrics
  sweep : Option SweepMetrics
  execution : Option ExecutionMetrics
  stopZones : List (ℚ × ℚ)

section Analyze

variable (fl : Rounding) (sqrt : ℚ → ℚ) (config : Config)

/-- The metrics of an input, after a cumulative delta. -/
def metricsOf (cumDelta : ℚ) (input : Input) : Metrics :=
  let columns := columnsOf input.bars
  let anyTrades := !input.trades.isEmpty
  let anyBars := !input.bars.isEmpty
  { book := input.book.map analyzeBook
    delta := if anyTrades then some (calcDelta fl input.trades cumDelta) else none
    vwap :=
      if anyBars then some (calcVwapFromBars columns)
      else if anyTrades then
        some (calcVwapFromTrades (input.trades.map fun trade => trade.price.val)
          (input.trades.map fun trade => trade.size.val))
      else none
    largeTrades :=
      if anyTrades then some (detectLargeTrades input.trades config.largeTradeMultiplier) else none
    absorption :=
      if anyTrades then some (detectAbsorption input.trades config.absorptionVolumeRatio)
      else if anyBars then some (detectAbsorptionFromBars columns)
      else none
    sweep :=
      if config.sweep.lookback ≤ input.bars.length then
        some (detectSweepFromBars config.sweep columns)
      else none
    execution :=
      match input.book with
      | some book => some (estimateExecutionQuality book 100)
      | none =>
          if anyBars then
            some ⟨estimateSlippageFromBars sqrt columns.volumes, .fair, mean columns.volumes, 0⟩
          else none
    stopZones := detectStopHuntZones columns }

/-- The details of the metrics. -/
def Metrics.metadata (metrics : Metrics) (isProxy : Bool) : Metadata :=
  .details isProxy
    (metrics.book.map fun book => ⟨book.totalBidDepth, book.totalAskDepth, book.spread⟩)
    (metrics.delta.map fun delta =>
      ⟨delta.buyVolume, delta.sellVolume, delta.aggressiveBuyRatio, delta.aggressiveSellRatio⟩)
    (metrics.vwap.map fun vwap => ⟨vwap.vwap, vwap.deviation⟩)
    (metrics.largeTrades.map fun large => ⟨large.largeTradeCount, large.concentrationRatio⟩)
    (metrics.absorption.map fun absorption =>
      ⟨absorption.absorptionScore, absorption.direction, absorption.absorbedAtPrice⟩)
    (metrics.sweep.map fun sweep =>
      ⟨sweep.sweepDetected, sweep.sweepDirection, sweep.sweepMagnitude⟩)

/-- The field checks of a signal. -/
def checked {p : ℚ → Prop} [DecidablePred p] (path : String) (q : ℚ) :
    Except Failure {q // p q} :=
  (check path q).mapError .field

/-- `_build_signal`, for an engine with a cumulative delta. -/
def buildSignal (symbol : String) (timestamp : Timestamp) (timeframe : TimeFrame)
    (metrics : Metrics) (isProxy : Bool) (cumDelta : ℚ) : Except Failure OrderFlowSignal := do
  let absorptionScore ← checked "OrderFlowSignal.absorption_score"
    (roundTo 3 (metrics.absorption.elim 0 AbsorptionMetrics.absorptionScore))
  let expectedSlippage ← checked "OrderFlowSignal.expected_slippage"
    (roundTo 1 (metrics.execution.elim 50 ExecutionMetrics.expectedSlippage))
  return {
    symbol := symbol
    timestamp := timestamp
    timeframe := timeframe
    bookImbalance := roundTo 4 (metrics.book.elim 0 BookMetrics.imbalance)
    bidPressure := roundTo 4 (metrics.book.elim (1 / 2) BookMetrics.bidPressure)
    askPressure := roundTo 4 (metrics.book.elim (1 / 2) BookMetrics.askPressure)
    delta := fl.decimal 2 (metrics.delta.elim 0 DeltaMetrics.delta)
    cumDelta := fl.decimal 2 (metrics.delta.elim cumDelta DeltaMetrics.cumDelta)
    absorptionScore := absorptionScore
    liquiditySweep := metrics.sweep.elim false SweepMetrics.sweepDetected
    expectedSlippage := expectedSlippage
    executionCondition := metrics.execution.elim .fair ExecutionMetrics.executionCondition
    stopHuntZones := metrics.stopZones
    metadata := metrics.metadata isProxy }

/-- `analyze`, of an engine with a cumulative delta: the signal, and the new cumulative delta. -/
def analyze (keywords : Keywords) (utcnow : Timestamp) (cumDelta : ℚ) (data : Data) :
    Except Failure (OrderFlowSignal × ℚ) := do
  let input ← parseInput keywords data
  let metrics := metricsOf fl sqrt config cumDelta input
  let (symbol, timeframe) := match input.bars.head? with
    | some bar => (bar.symbol, bar.timeframe)
    | none => ("", .m1)
  let timestamp := (input.bars.getLast?.map MarketBar.timestamp).getD utcnow
  let signal ← buildSignal fl symbol timestamp timeframe metrics input.isProxy cumDelta
  return (signal, metrics.delta.elim cumDelta DeltaMetrics.cumDelta)

/-- One entry of a batch: the symbol, its data, and the clock at its analysis. -/
structure Entry where
  symbol : String
  data : Data
  utcnow : Timestamp

/-- The result for an entry, and the cumulative delta after it. -/
def analyzeEntry (keywords : Keywords) (cumDelta : ℚ) (entry : Entry) : OrderFlowSignal × ℚ :=
  match analyze fl sqrt config keywords entry.utcnow cumDelta entry.data with
  | .ok result => result
  | .error raised =>
      ({ symbol := entry.symbol
         timestamp := entry.utcnow
         timeframe := .m1
         metadata := .error raised }, cumDelta)

/-- `batch_analyze`: the results by symbol. -/
def batchAnalyze (keywords : Keywords) : ℚ → List Entry → List (String × OrderFlowSignal)
  | _, [] => []
  | cumDelta, entry :: entries =>
      let (signal, next) := analyzeEntry fl sqrt config keywords cumDelta entry
      (entry.symbol, signal) :: batchAnalyze keywords next entries

end Analyze

end TradeOS.OrderFlow
