import TradeOS.Macro.Metrics
import TradeOS.OrderFlow.Engine

/-!
# The macro engine

`analyze` reads the bars and the events of one call, computes the metrics and builds a signal.
`batch_analyze` analyses the entries of a map, and reports a failure as a signal of unknown regime.

What the validation of a dictionary returns, the readings of the clock, and the order in which sets
are run through are part of the input. A level of the VIX is a number.
-/

set_option autoImplicit false

namespace TradeOS.Macro

open Numeric OrderFlow MarketData FirstMatch

/-! ## Inputs -/

/-- An event, without the figures that the engine does not read. -/
structure MacroEvent where
  timestamp : Timestamp
  eventName : String
  country : String
  impact : String

/-- What an analysis raises. -/
inductive Failure where
  | field (error : RunError)
  | validation (text : String)
  | type (text : String)
  | attribute (typeName name : String)
  deriving DecidableEq

/-- An element of a list: a bar, or a value of another type. -/
inductive Element where
  | bar (bar : MarketBar)
  | other (typeName : String)

/-- The data of one symbol. -/
inductive Data where
  | none
  | entries (bars : Option (List (Item MarketBar))) (events : Option (List (Item MacroEvent)))
  | list (elements : List Element)
  | other

/-- The keyword arguments of a call. -/
structure Keywords where
  macroEvents : List MacroEvent := []
  vixLevel : Option ℚ := none

/-- What `_parse_input` returns. -/
structure Input where
  bars : List MarketBar := []
  events : List MacroEvent := []
  isProxy : Bool

/-- `_to_bars`: the bars, and the dictionaries that become bars. -/
def toBars : List (Item MarketBar) → Except Failure (List MarketBar)
  | [] => .ok []
  | .record bar :: items => do
      let rest ← toBars items
      return bar :: rest
  | .fields (.ok bar) :: items => do
      let rest ← toBars items
      return bar :: rest
  | .fields (.error text) :: _ => .error (.validation text)
  | .other :: items => toBars items

/-- An event, or a dictionary that becomes one. -/
def toEvent : Item MacroEvent → Except Failure MacroEvent
  | .record event => .ok event
  | .fields (.ok event) => .ok event
  | .fields (.error text) => .error (.validation text)
  | .other => .error (.type "argument after ** must be a mapping")

/-- An element that is used as a bar. -/
def Element.asBar : Element → Except Failure MarketBar
  | .bar value => .ok value
  | .other typeName => .error (.attribute typeName "high")

/-- `_parse_input`. -/
def parseInput (keywords : Keywords) : Data → Except Failure Input
  | .none => .ok ⟨[], keywords.macroEvents, true⟩
  | .entries bars events => do
      let bars ← toBars (bars.getD [])
      let events ← if keywords.macroEvents.isEmpty then (events.getD []).mapM toEvent else
        pure keywords.macroEvents
      return ⟨bars, events, events.isEmpty⟩
  | .list (.bar first :: elements) => do
      let rest ← elements.mapM Element.asBar
      return ⟨first :: rest, keywords.macroEvents, keywords.macroEvents.isEmpty⟩
  | .list _ => .ok ⟨[], keywords.macroEvents, keywords.macroEvents.isEmpty⟩
  | .other => .ok ⟨[], keywords.macroEvents, keywords.macroEvents.isEmpty⟩

/-! ## The signal -/

structure InflationDetail where
  shockScore : ℚ
  direction : InflationDirection
  unexpected : Bool

structure LiquidityDetail where
  condition : Condition
  score : ℚ
  isProxy : Bool

structure RegimeDetail where
  macroRegime : MacroRegime
  growthOutlook : Growth
  inflationOutlook : InflationOutlook

/-- The metadata of a signal: the details of an analysis, or the error of one that failed. -/
inductive Metadata where
  | details (proxy : Bool) (rate : RatePressure) (inflation : InflationDetail)
      (liquidity : LiquidityDetail) (shock : EventShock) (regime : RegimeDetail)
  | error (raised : Failure)

/-- `MacroSignal`, with all that an analysis sets. -/
structure Signal extends MacroSignal where
  timestamp : Timestamp
  regime : Regime
  dominantThemes : List String := []
  equityBias : String := "neutral"
  bondBias : String := "neutral"
  commodityBias : String := "neutral"
  fxBias : List (String × String) := []
  vixLevel : Option NonnegRational := none
  highImpactEvents : List String := []
  metadata : Metadata

/-- What the engine is configured with. -/
structure Config where
  lookback : ℕ := 60
  volumeLookback : ℕ := 20
  two_le_lookback : 2 ≤ lookback := by decide
  two_le_volumeLookback : 2 ≤ volumeLookback := by decide

/-- The metrics of one call. -/
structure Metrics where
  rate : RatePressure
  inflation : InflationShock
  liquidity : LiquidityCondition
  shock : EventShock
  regime : MacroRegimeMetrics

/-- The return of the last day. -/
def returns1d (closes : List ℚ) : ℚ :=
  match lastOf 2 closes with
  | [previous, last] => (last - previous) / previous
  | _ => 0

/-- The volatility of the last twenty returns, or of all if there are fewer. -/
def volatility20d (sqrt : ℚ → ℚ) (closes : List ℚ) : Option ℚ :=
  if closes = [] then some (1 / 100)
  else
    let returns := returnsOf closes
    if 20 ≤ returns.length then std sqrt (lastOf 20 returns) else std sqrt returns

/-- `_estimate_vix`. -/
def estimateVix (sqrt : ℚ → ℚ) : Option ℚ → ℚ
  | none => 80
  | some volatility => min 80 (volatility * sqrt 252 * 100)

/-- The event that the rate pressure is read from: the first of high impact, or else the first. -/
def rateEvent (events : List MacroEvent) : Option MacroEvent :=
  let rateEvents := events.filter fun event =>
    mentionsAny (lower event.eventName) ["rate", "fed", "ecb", "boe", "货币政策", "fomc"]
  (rateEvents.find? fun event => event.impact = "high").or rateEvents.head?

/-- `_analyze_rate`. -/
def analyzeRate (events : List MacroEvent) (returns1d : ℚ) (volatility20d : Option ℚ) :
    RatePressure :=
  match rateEvent events with
  | some event => parseMacroEventRate event.eventName event.impact
  | none => calcRatePressureProxy returns1d volatility20d .stable

/-- `_analyze_inflation`. Its events are not read: both branches return the proxy. -/
def analyzeInflation (volatility20d : Option ℚ) : InflationShock :=
  calcInflationShockProxy volatility20d

/-- `_analyze_liquidity`. -/
def analyzeLiquidity (sqrt : ℚ → ℚ) (config : Config) (columns : BarColumns) :
    LiquidityCondition :=
  if columns.closes = [] then unknownLiquidity
  else calcLiquidityFromBars sqrt columns config.volumeLookback

/-- The first event of high impact. -/
def shockEvent (events : List MacroEvent) : Option MacroEvent :=
  events.find? fun event => event.impact = "high"

/-- `_analyze_shock`. -/
def analyzeShock (order : SetOrder String) (events : List MacroEvent) (returns1d : ℚ)
    (volatility20d : Option ℚ) : EventShock :=
  match shockEvent events with
  | some event => calcEventShock order event.eventName event.impact none none
  | none => calcShockFromReturns returns1d volatility20d

/-- `_analyze_regime`. -/
def analyzeRegime (sqrt : ℚ → ℚ) (config : Config) (events : List MacroEvent)
    (columns : BarColumns) (rate : RatePressure) (inflation : InflationShock)
    (liquidity : LiquidityCondition) : MacroRegimeMetrics :=
  if events ≠ [] ∧ ¬ ∀ volume ∈ columns.volumes, volume = 0 then
    detectRegimeFromMacroEvents rate inflation liquidity
  else if config.lookback ≤ columns.closes.length then
    detectMacroRegimeProxy sqrt columns config.lookback
  else undeterminedRegime

/-- The metrics of an input. -/
def metricsOf (sqrt : ℚ → ℚ) (config : Config) (order : SetOrder String) (input : Input) :
    Metrics :=
  let columns := columnsOf input.bars
  let returns1d := returns1d columns.closes
  let volatility20d := volatility20d sqrt columns.closes
  let rate := analyzeRate input.events returns1d volatility20d
  let inflation := analyzeInflation volatility20d
  let liquidity := analyzeLiquidity sqrt config columns
  { rate := rate
    inflation := inflation
    liquidity := liquidity
    shock := analyzeShock order input.events returns1d volatility20d
    regime := analyzeRegime sqrt config input.events columns rate inflation liquidity }

/-! ## What the metrics say -/

/-- The word of a regime. -/
def MacroRegime.theme : MacroRegime → String
  | .riskOn => "risk_on"
  | .riskOff => "risk_off"
  | .stagflation => "stagflation"
  | .deflationary => "deflationary"
  | .neutral => "neutral"

/-- The themes of the metrics, without repetitions. -/
def themesOf (metrics : Metrics) : List String :=
  let rate := match metrics.rate.rateDirection with
    | .hiking => ["rate_hike"]
    | .cutting => ["rate_cut"]
    | .onHold => []
  let inflation := match metrics.inflation.direction with
    | .hot => ["inflation"]
    | .cold => ["deflation"]
    | .neutral => []
  let surprise := if metrics.inflation.unexpected then ["inflation_surprise"] else []
  let shock := if 6 / 10 < metrics.shock.shockScore then [metrics.shock.category] else []
  (rate ++ inflation ++ surprise ++ shock ++ [metrics.regime.regime.theme]).dedup

/-- `_extract_themes`: the themes in the order of a set. -/
def extractThemes (order : SetOrder String) (metrics : Metrics) : List String :=
  order.val (themesOf metrics)

structure AssetBiases where
  equity : String := "neutral"
  bond : String := "neutral"
  commodity : String := "neutral"
  fx : String := "neutral"

namespace AssetBiases

/-- The biases of a regime. -/
def ofRegime : MacroRegime → AssetBiases
  | .riskOn => { equity := "bullish", commodity := "bullish" }
  | .riskOff => { equity := "bearish", bond := "bullish" }
  | _ => {}

/-- The biases after inflation. -/
def inflate (biases : AssetBiases) : InflationDirection → AssetBiases
  | .hot => { biases with equity := "bearish", bond := "bearish", commodity := "bullish" }
  | _ => biases

/-- The biases after the rates. -/
def rated (biases : AssetBiases) : RateDirection → AssetBiases
  | .hiking => { biases with bond := "bearish", equity := "bearish" }
  | .cutting => { biases with bond := "bullish" }
  | .onHold => biases

/-- The biases after the liquidity. -/
def drained (biases : AssetBiases) : Condition → AssetBiases
  | .strained | .crisis => { biases with equity := "bearish" }
  | _ => biases

/-- The biases after one asset that a shock affects. -/
def affected (biases : AssetBiases) : Asset × Impact → AssetBiases
  | (.equity, impact) => { biases with equity := impact.word }
  | (.bond, impact) => { biases with bond := impact.word }
  | (.commodity, impact) => { biases with commodity := impact.word }
  | (.fx, impact) => { biases with fx := impact.word }

end AssetBiases

/-- `_calc_asset_biases`. -/
def calcAssetBiases (metrics : Metrics) : AssetBiases :=
  metrics.shock.affectedAssets.foldl AssetBiases.affected
    ((((AssetBiases.ofRegime metrics.regime.regime).inflate metrics.inflation.direction).rated
      metrics.rate.rateDirection).drained metrics.liquidity.condition)

/-- `_map_regime`. -/
def mapRegime : MacroRegime → Regime
  | .riskOn => .trendingUp
  | .riskOff => .trendingDown
  | .stagflation => .volatile
  | .deflationary => .trendingDown
  | .neutral => .ranging

/-- The details of the metrics. -/
def Metrics.metadata (metrics : Metrics) (isProxy : Bool) : Metadata :=
  .details isProxy metrics.rate
    ⟨metrics.inflation.shockScore, metrics.inflation.direction, metrics.inflation.unexpected⟩
    ⟨metrics.liquidity.condition, metrics.liquidity.score, metrics.liquidity.isProxy⟩
    metrics.shock
    ⟨metrics.regime.regime, metrics.regime.growthOutlook, metrics.regime.inflationOutlook⟩

/-! ## The analysis -/

section Analyze

variable (sqrt : ℚ → ℚ) (config : Config) (order : SetOrder String) (keywords : Keywords)

/-- The field checks of a signal. -/
def checked {p : ℚ → Prop} [DecidablePred p] (path : String) (q : ℚ) :
    Except Failure {q // p q} :=
  (check path q).mapError .field

/-- The signal of the metrics, with the fields that were checked. -/
def signalOf (timestamp : Timestamp) (input : Input) (metrics : Metrics)
    (regimeConfidence : UnitRational) (vixLevel : NonnegRational) : Signal :=
  let biases := calcAssetBiases metrics
  { regimeConfidence := regimeConfidence
    riskOn := metrics.regime.regime = .riskOn ∨ metrics.regime.regime = .neutral
    timestamp := timestamp
    regime := mapRegime metrics.regime.regime
    dominantThemes := extractThemes order metrics
    equityBias := biases.equity
    bondBias := biases.bond
    commodityBias := biases.commodity
    fxBias := [("DXY", biases.fx)]
    vixLevel := some vixLevel
    highImpactEvents :=
      (input.events.filter fun event => event.impact = "high").map MacroEvent.eventName
    metadata := metrics.metadata input.isProxy }

/-- The signal of the metrics, after its field checks. -/
def buildSignal (timestamp : Timestamp) (vix : ℚ) (input : Input) (metrics : Metrics) :
    Except Failure Signal := do
  let regimeConfidence ← checked "MacroSignal.regime_confidence" metrics.regime.confidence
  let vixLevel ← checked "MacroSignal.vix_level" (roundTo 2 vix)
  return signalOf order timestamp input metrics regimeConfidence vixLevel

/-- The analysis of an input. -/
def analyzeInput (utcnow : Timestamp) (input : Input) : Except Failure Signal :=
  let vix := keywords.vixLevel.getD
    (estimateVix sqrt (volatility20d sqrt (columnsOf input.bars).closes))
  buildSignal order ((input.bars.getLast?.map MarketBar.timestamp).getD utcnow) vix input
    (metricsOf sqrt config order input)

/-- `analyze`. -/
def analyze (utcnow : Timestamp) (data : Data) : Except Failure Signal := do
  let input ← parseInput keywords data
  analyzeInput sqrt config order keywords utcnow input

/-- One entry of a batch: the symbol, its data, and the clock at its analysis. -/
structure Entry where
  symbol : String
  data : Data
  utcnow : Timestamp

theorem half_mem_unit : (0 : ℚ) ≤ 1 / 2 ∧ (1 / 2 : ℚ) ≤ 1 := by norm_num

/-- The signal of an analysis that failed. -/
def failedSignal (utcnow : Timestamp) (raised : Failure) : Signal where
  regimeConfidence := ⟨1 / 2, half_mem_unit⟩
  timestamp := utcnow
  regime := .unknown
  metadata := .error raised

/-- The result for an entry. -/
def analyzeEntry (entry : Entry) : Signal :=
  match analyze sqrt config order keywords entry.utcnow entry.data with
  | .ok signal => signal
  | .error raised => failedSignal entry.utcnow raised

/-- `batch_analyze`: the results by symbol. -/
def batchAnalyze (entries : List Entry) : List (String × Signal) :=
  entries.map fun entry => (entry.symbol, analyzeEntry sqrt config order keywords entry)

end Analyze

end TradeOS.Macro
