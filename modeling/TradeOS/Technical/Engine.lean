import TradeOS.Data.MarketData
import TradeOS.Technical.Candles
import TradeOS.Technical.Levels

/-!
# The technical engine

`analyze` checks that there are at least twenty bars, computes the indicators, scans for patterns
and levels, and draws a signal from the last entries of all these columns.

The volumes, which no indicator reads, and the analysis that the engine remembers are left out.
-/

set_option autoImplicit false

namespace TradeOS.Technical

open Numeric Numeric.Extended Programs CheckedArray MarketData
open Store (TimeFrame)

/-! ## Configuration and input -/

structure MacdConfig where
  fast : ℕ := 12
  slow : ℕ := 26
  signal : ℕ := 9

structure BollingerConfig where
  period : ℕ := 20
  stdDev : ℚ := 2

/-- The configuration, with the values of `DEFAULT_CONFIG`. -/
structure Config where
  maPeriods : List ℕ := [5, 20, 60, 120]
  adxPeriod : ℕ := 14
  macd : MacdConfig := {}
  rsiPeriod : ℕ := 14
  atrPeriod : ℕ := 14
  bollinger : BollingerConfig := {}
  patternWindow : ℕ := 5
  levelLookback : ℕ := 100

/-- What an analysis raises. -/
inductive Failure where
  | value (text : String)
  | validation (text : String)
  | array (error : ArrayError)
  | field (error : RunError)
  deriving DecidableEq

/-- An element of the input: a bar, a dictionary with the outcome of its validation, or a value of
another type. -/
inductive BarItem where
  | bar (bar : MarketBar)
  | fields (validated : Except String MarketBar)
  | other (typeName : String)

/-- The data of a call: none, or the items of a list. A dictionary is its entry `bars`, or the one
item that it is itself, and any other value is one item. -/
inductive Data where
  | none
  | items (items : List BarItem)

def BarItem.toBar : BarItem → Except Failure MarketBar
  | .bar value => .ok value
  | .fields (.ok value) => .ok value
  | .fields (.error text) => .error (.validation text)
  | .other typeName => .error (.value ("Unsupported bar type: " ++ typeName))

/-- `_check_bars`. -/
def checkBars (minLength : ℕ) : Data → Except Failure (List MarketBar)
  | .none => .error (.value "Input data is None")
  | .items items =>
      if items.isEmpty then .error (.value "Input bars list is empty")
      else if items.length < minLength then
        .error (.value ("Insufficient bars: got " ++ toString items.length ++
          ", need at least " ++ toString minLength))
      else items.mapM BarItem.toBar

/-- The price columns of the bars. -/
structure PriceColumns where
  opens : List ℚ
  highs : List ℚ
  lows : List ℚ
  closes : List ℚ

def priceColumns (bars : List MarketBar) : PriceColumns where
  opens := bars.map fun bar => bar.opening.val
  highs := bars.map fun bar => bar.high.val
  lows := bars.map fun bar => bar.low.val
  closes := bars.map fun bar => bar.close.val

/-! ## Indicators -/

structure Indicators where
  ma : List (ℕ × Column)
  adx : AdxData
  macd : MacdData
  rsi : Column
  kdj : KdjData
  cci : Column
  atr : Column
  bollinger : BollingerData

/-- The moving average of a period, no values if there is none. -/
def Indicators.maOf (indicators : Indicators) (period : ℕ) : Column :=
  (indicators.ma.lookup period).getD []

section Analyze

variable (sqrt : ℚ → ℚ) (config : Config)

/-- `_calc_indicators`. -/
def calcIndicators (columns : PriceColumns) : Except ArrayError Indicators := do
  let ma ← config.maPeriods.mapM fun period => do
    let column ← sma columns.closes period
    return (period, column)
  let adxData ← adx columns.highs columns.lows columns.closes config.adxPeriod
  let macdData ← macd columns.closes config.macd.fast config.macd.slow config.macd.signal
  let rsiColumn ← rsi columns.closes config.rsiPeriod
  let kdjData ← kdj columns.highs columns.lows columns.closes
  let cciColumn ← cci columns.highs columns.lows columns.closes
  let atrColumn ← atr columns.highs columns.lows columns.closes config.atrPeriod
  let bands ← bollingerBands sqrt columns.closes config.bollinger.period config.bollinger.stdDev
  return ⟨ma, adxData, macdData, rsiColumn, kdjData, cciColumn, atrColumn, bands⟩

end Analyze

/-- `_detect_levels`: the levels of the last bars. -/
def detectLevels (lookback : ℕ) (columns : PriceColumns) : Except ArrayError (List Level) :=
  let count := min lookback columns.closes.length
  detectSupportResistance (columns.highs.rtake count) (columns.lows.rtake count)
    (columns.closes.rtake count)

/-! ## States -/

inductive TrendState where
  | up
  | down
  | sideways
  deriving DecidableEq, Repr

def TrendState.value : TrendState → String
  | up => "up"
  | down => "down"
  | sideways => "sideways"

inductive MomentumState where
  | strengthening
  | weakening
  | neutral
  deriving DecidableEq, Repr

def MomentumState.value : MomentumState → String
  | strengthening => "strengthening"
  | weakening => "weakening"
  | neutral => "neutral"

inductive VolatilityState where
  | expanding
  | contracting
  | neutral
  deriving DecidableEq, Repr

def VolatilityState.value : VolatilityState → String
  | expanding => "expanding"
  | contracting => "contracting"
  | neutral => "neutral"

/-- A number above another one; NaN is not above anything. -/
def gt (x y : Extended) : Bool := lt y x

/-- `momentum_state`. -/
def momentumState (rsi macdHist : Extended) : MomentumState :=
  if rsi = nan ∨ macdHist = nan then .neutral
  else if gt rsi (fin 60) && gt macdHist (fin 0) then .strengthening
  else if lt rsi (fin 40) && lt macdHist (fin 0) then .weakening
  else .neutral

/-- `volatility_state`. -/
def volatilityState (atr atrMa bbWidth : Extended) : VolatilityState :=
  if atr = nan ∨ atrMa = nan ∨ bbWidth = nan then .neutral
  else if gt atr (atrMa * fin (12 / 10)) && gt bbWidth (fin (15 / 100)) then .expanding
  else if lt atr (atrMa * fin (8 / 10)) && lt bbWidth (fin (5 / 100)) then .contracting
  else .neutral

/-- `_determine_trend`. -/
def determineTrend (indicators : Indicators) (idx : ℕ) : Except ArrayError TrendState := do
  let ma5 := indicators.maOf 5
  if ma5.length ≤ idx then return .sideways
  else
    let value5 ← readAt ma5 idx
    if value5 = nan then return .sideways
    else
      let value20 ← readAt (indicators.maOf 20) idx
      if value20 = nan then return .sideways
      else
        let value60 ← readAt (indicators.maOf 60) idx
        if value60 = nan then return .sideways
        else if gt value5 value20 && gt value20 value60 then return .up
        else if lt value5 value20 && lt value20 value60 then return .down
        else return .sideways

/-- An entry of a column, or a default behind its end. -/
def readOr (default : Extended) (column : Column) (idx : ℕ) : Except ArrayError Extended :=
  if idx < column.length then readAt column idx else return default

/-- `_determine_momentum`. -/
def determineMomentum (indicators : Indicators) (idx : ℕ) : Except ArrayError MomentumState := do
  if indicators.rsi.length ≤ idx then return .neutral
  else
    let rsiVal ← readAt indicators.rsi idx
    let histVal ← readOr nan indicators.macd.histogram idx
    return momentumState rsiVal histVal

/-- `_determine_volatility`. -/
def determineVolatility (indicators : Indicators) (idx : ℕ) :
    Except ArrayError VolatilityState := do
  if indicators.atr.length ≤ idx then return .neutral
  else
    let atrVal ← readAt indicators.atr idx
    let atrMa := mean (slice indicators.atr (idx - 20) (idx + 1))
    let bbWidth ← readOr nan indicators.bollinger.bandwidth idx
    return volatilityState atrVal atrMa bbWidth

/-- `_determine_regime`. -/
def determineRegime (indicators : Indicators) (idx : ℕ) : Except ArrayError Regime := do
  if indicators.adx.adx.length ≤ idx then return .unknown
  else
    let adxVal ← readAt indicators.adx.adx idx
    let rsiVal ← readAt indicators.rsi idx
    return if adxVal = nan ∨ rsiVal = nan then .unknown
      else if gt adxVal (fin 25) then
        if gt rsiVal (fin 55) then .trendingUp
        else if lt rsiVal (fin 45) then .trendingDown
        else .ranging
      else if gt rsiVal (fin 65) then .volatile
      else if lt rsiVal (fin 35) then .volatile
      else .ranging

/-! ## Direction and scores -/

/-- What a pattern adds to the score of a direction. -/
def signedConfidence (direction : PatternDirection) (confidence : ℚ) : ℚ :=
  match direction with
  | .bullish => confidence
  | .bearish => -confidence
  | .neutral => 0

/-- The score of `_calc_direction_confidence`, divided by the number of its parts. -/
def netScore (trend : TrendState) (momentum : MomentumState) (pattern : Option Pattern)
    (candle : Option CandlePattern) : ℚ :=
  let trendPart : ℚ := match trend with
    | .up => 1
    | .down => -1
    | .sideways => 0
  let momentumPart : ℚ := match momentum with
    | .strengthening => if trend = .up then 1 / 2 else -(1 / 2)
    | .weakening => if trend = .up then -(1 / 2) else 1 / 2
    | .neutral => 0
  let patternPart := pattern.elim 0 fun p => signedConfidence p.direction p.confidence
  let candlePart := candle.elim 0 fun c => signedConfidence c.direction (c.confidence * (1 / 2))
  let count : ℕ := 2 + pattern.elim 0 (fun _ => 1) + candle.elim 0 (fun _ => 1)
  (trendPart + momentumPart + patternPart + candlePart) / count

/-- `_calc_direction_confidence`. -/
def calcDirectionConfidence (trend : TrendState) (momentum : MomentumState)
    (pattern : Option Pattern) (candle : Option CandlePattern) : Direction × ℚ :=
  let net := netScore trend momentum pattern candle
  let confident := min (95 / 100) (1 / 2 + |net| * (1 / 2))
  if 3 / 10 < net then (.long, roundTo 3 confident)
  else if net < -(3 / 10) then (.short, roundTo 3 confident)
  else (.flat, roundTo 3 (3 / 10))

/-- The scores to enter and to exit, for a direction. -/
def entryExitScores (rsiVal histVal : Extended) : Direction → ℚ × ℚ
  | .long =>
      (if lt rsiVal (fin 50) && lt histVal (fin 0) then 7 / 10 else 5 / 10,
        if gt rsiVal (fin 70) then 7 / 10 else 4 / 10)
  | .short =>
      (if gt rsiVal (fin 50) && gt histVal (fin 0) then 7 / 10 else 5 / 10,
        if lt rsiVal (fin 30) then 7 / 10 else 4 / 10)
  | .flat => (3 / 10, 3 / 10)

/-- `_calc_entry_exit_scores`. -/
def calcEntryExitScores (indicators : Indicators) (direction : Direction) (idx : ℕ) :
    Except ArrayError (ℚ × ℚ) := do
  if indicators.rsi.length ≤ idx then return (1 / 2, 1 / 2)
  else
    let rsiVal ← readAt indicators.rsi idx
    let histVal ← readOr (fin 0) indicators.macd.histogram idx
    let scores := entryExitScores (fillNan (fin 50) rsiVal) histVal direction
    return (roundTo 2 scores.1, roundTo 2 scores.2)

/-- `_score_trend`. -/
def scoreTrend (trend : TrendState) (adxVal : Extended) : Extended :=
  let base : ℚ := match trend with
    | .up => 3 / 10
    | .down => -(3 / 10)
    | .sideways => 0
  if adxVal = nan then fin 0
  else round 2 (fin base + smaller (fin (7 / 10)) (adxVal / fin 100))

/-- `_score_momentum`. -/
def scoreMomentum (rsiVal : Extended) : Extended :=
  if rsiVal = nan then fin 0 else round 2 (abs (rsiVal - fin 50) / fin 50)

/-- `_score_volatility`. -/
def scoreVolatility (bbWidth : Extended) : Extended :=
  if bbWidth = nan then fin 0 else round 2 (smaller (fin 1) bbWidth)

/-- `_build_reasoning`. -/
def buildReasoning (trend : TrendState) (momentum : MomentumState) (volatility : VolatilityState)
    (chartPattern candlePattern : Option String) : String :=
  " | ".intercalate (["趋势=" ++ trend.value, "动量=" ++ momentum.value,
    "波动率=" ++ volatility.value] ++ (chartPattern.map fun name => "图表形态=" ++ name).toList ++
    (candlePattern.map fun name => "K线形态=" ++ name).toList)

/-! ## The signal -/

structure ModuleScores where
  trend : Extended
  momentum : Extended
  volatility : Extended
  patterns : ℚ
  candles : ℚ

structure Metadata where
  config : Config
  adx : Option Extended
  rsi : Option Extended
  atr : Option Extended

structure TechnicalSignal where
  engineName : String
  symbol : String
  timestamp : Timestamp
  timeframe : TimeFrame
  direction : Direction
  confidence : UnitRational
  regime : Regime
  entryScore : UnitRational
  exitScore : UnitRational
  trend : TrendState
  momentum : MomentumState
  volatilityState : VolatilityState
  chartPattern : Option String
  candlePattern : Option String
  supportLevels : List ℚ
  resistanceLevels : List ℚ
  moduleScores : ModuleScores
  reasoning : String
  metadata : Metadata

/-- What `_synthesize_signal` returns. -/
structure Synthesis where
  direction : Direction
  confidence : ℚ
  regime : Regime
  entryScore : ℚ
  exitScore : ℚ
  trend : TrendState
  momentum : MomentumState
  volatilityState : VolatilityState
  chartPattern : Option String
  candlePattern : Option String
  supportLevels : List ℚ
  resistanceLevels : List ℚ
  moduleScores : ModuleScores
  reasoning : String
  adx : Option Extended
  rsi : Option Extended
  atr : Option Extended

/-- A number, or none for NaN. -/
def numberOf (x : Extended) : Option Extended := if x = nan then none else some x

/-- `_synthesize_signal`, at the last of `n` bars. -/
def synthesizeSignal (indicators : Indicators) (patterns : List Pattern)
    (candlePatterns : List CandlePattern) (levels : List Level × List Level) (n : ℕ) :
    Except ArrayError Synthesis := do
  let idx := n - 1
  let trend ← determineTrend indicators idx
  let momentum ← determineMomentum indicators idx
  let volatility ← determineVolatility indicators idx
  let pattern := patterns.head?
  let candle := candlePatterns.head?
  let (direction, confidence) := calcDirectionConfidence trend momentum pattern candle
  let regime ← determineRegime indicators idx
  let scores ← calcEntryExitScores indicators direction idx
  let adxVal ← readAt indicators.adx.adx idx
  let rsiVal ← readAt indicators.rsi idx
  let _ ← readAt indicators.macd.histogram idx
  let bbWidth ← readAt indicators.bollinger.bandwidth idx
  let atrVal ← readAt indicators.atr idx
  return {
    direction := direction
    confidence := confidence
    regime := regime
    entryScore := scores.1
    exitScore := scores.2
    trend := trend
    momentum := momentum
    volatilityState := volatility
    chartPattern := pattern.map Pattern.name
    candlePattern := candle.map CandlePattern.name
    supportLevels := levels.1.map Level.price
    resistanceLevels := levels.2.map Level.price
    moduleScores :=
      { trend := scoreTrend trend adxVal
        momentum := scoreMomentum rsiVal
        volatility := scoreVolatility bbWidth
        patterns := pattern.elim 0 Pattern.confidence
        candles := candle.elim 0 CandlePattern.confidence }
    reasoning := buildReasoning trend momentum volatility (pattern.map Pattern.name)
      (candle.map CandlePattern.name)
    adx := numberOf adxVal
    rsi := numberOf rsiVal
    atr := numberOf atrVal }

/-- What `analyze` does with the price columns. -/
def analyzeColumns (sqrt : ℚ → ℚ) (config : Config) (columns : PriceColumns) :
    Except ArrayError Synthesis := do
  let indicators ← calcIndicators sqrt config columns
  let patterns ← scanPatterns columns.closes config.patternWindow
  let candlePatterns ← scanCandlePatterns exactRounding columns.opens columns.closes
    columns.highs columns.lows
  let levels ← detectLevels config.levelLookback columns
  let currentPrice ← readAt columns.closes (columns.closes.length - 1)
  synthesizeSignal indicators patterns candlePatterns (getNearestLevels levels currentPrice)
    columns.closes.length

/-- The field checks of a signal. -/
def checked {p : ℚ → Prop} [DecidablePred p] (path : String) (q : ℚ) :
    Except Failure {q // p q} :=
  (check path q).mapError .field

/-- `analyze`. -/
def analyze (sqrt : ℚ → ℚ) (config : Config) (data : Data) : Except Failure TechnicalSignal := do
  let bars ← checkBars 20 data
  let first ← (readAt bars 0).mapError .array
  let last ← (readAt bars (bars.length - 1)).mapError .array
  let signal ← (analyzeColumns sqrt config (priceColumns bars)).mapError .array
  let confidence ← checked "TechnicalSignal.confidence" signal.confidence
  let entryScore ← checked "TechnicalSignal.entry_score" signal.entryScore
  let exitScore ← checked "TechnicalSignal.exit_score" signal.exitScore
  return {
    engineName := "technical"
    symbol := first.symbol
    timestamp := last.timestamp
    timeframe := first.timeframe
    direction := signal.direction
    confidence := confidence
    regime := signal.regime
    entryScore := entryScore
    exitScore := exitScore
    trend := signal.trend
    momentum := signal.momentum
    volatilityState := signal.volatilityState
    chartPattern := signal.chartPattern
    candlePattern := signal.candlePattern
    supportLevels := signal.supportLevels
    resistanceLevels := signal.resistanceLevels
    moduleScores := signal.moduleScores
    reasoning := signal.reasoning
    metadata := ⟨config, signal.adx, signal.rsi, signal.atr⟩ }

end TradeOS.Technical
