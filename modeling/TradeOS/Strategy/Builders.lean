import TradeOS.Data.Indexing
import TradeOS.Numeric.Extended
import TradeOS.Strategy.Composer

/-!
# Strategy builders

The four builders turn a list of bars into signal bundles: each of them checks that the list is
long enough, computes what it needs ahead of its loop, and goes through the bars from some
position on. A bar yields at most one bundle.

The parameters of a builder are a dict whose entries may be missing; which default stands in, and
which missing entry is an error, differs from one builder to the next. The id and the time of a
bundle are left out, and the square root is a parameter.
-/

set_option autoImplicit false

namespace TradeOS.Strategy

open Numeric Indexing

/-! ## Bars, bundles and errors -/

/-- The entries of a record of market data that the builders read. A missing volume is read as
zero. -/
structure PriceBar where
  high : ℚ
  low : ℚ
  close : ℚ
  volume : ℚ := 0
  deriving DecidableEq

/-- What a builder can raise. -/
inductive BuilderError where
  | keyError (key : String)
  | indexError
  | zeroDivision
  | emptySequence
  | typeError
  deriving DecidableEq

/-- A value of the metadata of a bundle. -/
inductive MetadataValue where
  | text (text : String)
  | number (value : Extended)
  | flag (set : Bool)
  deriving DecidableEq

/-- The bundle that a builder makes. -/
structure BuilderBundle extends StrategySignalBundle where
  sourceStrategyId : String
  symbol : String
  metadata : List (String × MetadataValue)

/-- `_make_bundle`: strength and confidence are cut to the unit interval. -/
def makeBundle (strategyId symbol : String) (direction : Direction) (strength confidence : ℚ)
    (metadata : List (String × MetadataValue)) : BuilderBundle where
  direction := direction
  strength := UnitRational.clamp strength
  confidence := UnitRational.clamp confidence
  sourceStrategyId := strategyId
  symbol := symbol
  metadata := metadata

/-- The bundles that a call of `generate_signals` appends, with the positions of their bars, and
the error that ends it if there is one. -/
abbrev Emission := List (ℤ × BuilderBundle) × Option BuilderError

/-- `generate_signals` returns what it has appended, unless it raised. -/
def Emission.result (emission : Emission) : Except BuilderError (List BuilderBundle) :=
  match emission.2 with
  | some error => .error error
  | none => .ok (emission.1.map Prod.snd)

/-- A loop over what was computed ahead of it. -/
def loopAfter {σ : Type} (setup : Except BuilderError σ) (loop : σ → Emission) : Emission :=
  match setup with
  | .error error => ([], some error)
  | .ok computed => loop computed

/-- A quotient. -/
def quotient (a b : ℚ) : Except BuilderError ℚ :=
  if b = 0 then .error .zeroDivision else .ok (a / b)

/-- `xs[i]`. -/
def readItem {α : Type} (xs : List α) (i : ℤ) : Except BuilderError α :=
  match item xs i with
  | some x => .ok x
  | none => .error .indexError

/-- The mean volume of a window of bars. -/
def averageVolume (window : List PriceBar) : Except BuilderError ℚ :=
  quotient (window.map PriceBar.volume).sum window.length

/-- A ratio to the mean volume, or zero where that is not positive. -/
def volumeRatio (volume average : ℚ) : ℚ := if 0 < average then volume / average else 0

/-! ## Reversal -/

/-- The parameters of a reversal strategy, with periods of some type. -/
structure ReversalParamsOf (π : Type) where
  strategyId : Option String := none
  returnPeriod : Option π := none
  longThreshold : Option ℚ := none
  shortThreshold : Option ℚ := none
  volMaPeriod : Option π := none
  volRatioThreshold : Option ℚ := none

/-- The parameters of a reversal strategy, with periods in bars. -/
abbrev ReversalParams := ReversalParamsOf ℤ

namespace ReversalParams

variable (params : ReversalParams)

def period : ℤ := params.returnPeriod.getD 5

def volPeriod : ℤ := params.volMaPeriod.getD 20

def lt : ℚ := params.longThreshold.getD (-(3 / 100))

def st : ℚ := params.shortThreshold.getD (3 / 100)

/-- `validate_params`. -/
def validateParams : Bool :=
  2 ≤ params.period ∧ params.lt < 0 ∧ 0 < params.st ∧ 5 ≤ params.volPeriod

/-- The direction and the strength that a return gives. -/
def reaction (ret : ℚ) : Except BuilderError (Option (Direction × ℚ)) :=
  if ret < params.lt then do
    let excess ← quotient |ret| |params.lt|
    return some (.long, min 1 (1 / 2 + excess * (3 / 10)))
  else if params.st < ret then do
    let excess ← quotient |ret| |params.st|
    return some (.short, min 1 (1 / 2 + excess * (3 / 10)))
  else return none

/-- The body of the loop of `generate_signals`. -/
def signalAt (symbol : String) (data : List PriceBar) (i : ℤ) :
    Except BuilderError (Option BuilderBundle) := do
  let bar ← readItem data i
  let earlier ← readItem data (i - params.period)
  let ret ← quotient (bar.close - earlier.close) earlier.close
  match ← params.reaction ret with
  | none => return none
  | some (direction, strength) =>
      let avgVol ← averageVolume (slice data (i - params.volPeriod) i)
      let volAtrophy : Bool :=
        0 < avgVol ∧ bar.volume < avgVol * params.volRatioThreshold.getD (7 / 10)
      let strength := if volAtrophy then min 1 (strength + 2 / 10) else strength
      return some <| makeBundle (params.strategyId.getD "reversal") symbol direction strength
        (if volAtrophy then strength * (8 / 10) else strength * (6 / 10))
        [("signal_type", .text "reversal"),
          (toString params.period ++ "d_return", .number (.fin ret)),
          ("vol_atrophy", .flag volAtrophy),
          ("vol_ratio", .number (.fin (volumeRatio bar.volume avgVol))),
          ("close", .number (.fin bar.close))]

/-- The bars that `generate_signals` asks for. -/
def guard : ℤ := max params.period params.volPeriod + 1

/-- `generate_signals`. -/
def emission (symbol : String) (data : List PriceBar) : Emission :=
  if (data.length : ℤ) < params.guard then ([], none)
  else emit (params.signalAt symbol data) (range params.volPeriod data.length)

end ReversalParams

/-! ## Breakout -/

/-- The parameters of a breakout strategy, with periods of some type. -/
structure BreakoutParamsOf (π : Type) where
  strategyId : Option String := none
  lookbackPeriod : Option π := none
  volPeriod? : Option π := none
  volThreshold? : Option ℚ := none

/-- The parameters of a breakout strategy, with periods in bars. -/
abbrev BreakoutParams := BreakoutParamsOf ℤ

namespace BreakoutParams

variable (params : BreakoutParams)

def lookback : ℤ := params.lookbackPeriod.getD 20

def volPeriod : ℤ := params.volPeriod?.getD 20

def volThreshold : ℚ := params.volThreshold?.getD (12 / 10)

/-- `validate_params`. -/
def validateParams : Bool :=
  5 ≤ params.lookback ∧ 5 ≤ params.volPeriod ∧ 1 ≤ params.volThreshold

/-- The direction and the strength of a close outside the range of the window. -/
def penetration (close periodHigh periodLow : ℚ) (volConfirmed : Bool) :
    Except BuilderError (Option (Direction × ℚ)) :=
  let strengthOf (penetration : ℚ) : ℚ :=
    let strength := min 1 (1 / 2 + penetration * 10)
    if volConfirmed then min 1 (strength + 15 / 100) else strength
  if periodHigh < close then do
    let penetration ← quotient (close - periodHigh) periodHigh
    return some (.long, strengthOf penetration)
  else if close < periodLow then do
    let penetration ← quotient (periodLow - close) close
    return some (.short, strengthOf penetration)
  else return none

/-- `max` or `min` of a list, which has to have an entry. -/
def extreme (choose : ℚ → ℚ → ℚ) : List ℚ → Except BuilderError ℚ
  | [] => .error .emptySequence
  | x :: rest => .ok (rest.foldl choose x)

/-- The body of the loop of `generate_signals`. -/
def signalAt (symbol : String) (data : List PriceBar) (i : ℤ) :
    Except BuilderError (Option BuilderBundle) := do
  let window := slice data (i - params.lookback) i
  let periodHigh ← extreme max (window.map PriceBar.high)
  let periodLow ← extreme min (window.map PriceBar.low)
  let bar ← readItem data i
  let avgVol ← averageVolume (slice data (i - params.volPeriod) i)
  let volConfirmed : Bool := 0 < avgVol ∧ avgVol * params.volThreshold < bar.volume
  match ← penetration bar.close periodHigh periodLow volConfirmed with
  | none => return none
  | some (direction, strength) =>
      return some <| makeBundle (params.strategyId.getD "breakout") symbol direction strength
        (if volConfirmed then strength * (8 / 10) else strength * (6 / 10))
        [("signal_type", .text "breakout"),
          ("period_high", .number (.fin periodHigh)),
          ("period_low", .number (.fin periodLow)),
          ("close", .number (.fin bar.close)),
          ("vol_confirmed", .flag volConfirmed),
          ("vol_ratio", .number (.fin (volumeRatio bar.volume avgVol)))]

/-- The bars that `generate_signals` asks for. -/
def guard : ℤ := params.lookback + params.volPeriod

/-- `generate_signals`. -/
def emission (symbol : String) (data : List PriceBar) : Emission :=
  if (data.length : ℤ) < params.guard then ([], none)
  else emit (params.signalAt symbol data) (range params.lookback data.length)

end BreakoutParams

/-! ## Mean reversion -/

/-- The parameters of a mean reversion strategy, merged into the defaults, with periods of some
type. -/
structure MeanReversionParamsOf (π : Type) where
  strategyId : String := "mean_reversion"
  rsiPeriod : π
  oversold : ℚ := 30
  overbought : ℚ := 70
  bbPeriod : π
  bbStd : ℚ := 2

/-- The parameters of a mean reversion strategy, with periods in bars. -/
abbrev MeanReversionParams := MeanReversionParamsOf ℤ

/-- The bands around a close. -/
structure Band where
  upper : Extended
  middle : Extended
  lower : Extended
  deriving DecidableEq

/-- The change of the close from the bar before a position to the bar there. -/
def changeAt (data : List PriceBar) (j : ℤ) : Except BuilderError ℚ := do
  let bar ← readItem data j
  let previous ← readItem data (j - 1)
  return bar.close - previous.close

/-- The gains among some changes. -/
def gains (changes : List ℚ) : ℚ := (changes.filter fun change => 0 < change).sum

/-- The losses among some changes. -/
def losses (changes : List ℚ) : ℚ :=
  ((changes.filter fun change => ¬ 0 < change).map fun change => |change|).sum

/-- The relative strength of the changes of a period. -/
def strengthIndex (changes : List ℚ) (period : ℤ) : Except BuilderError ℚ := do
  let avgGain ← quotient (gains changes) period
  let avgLoss ← quotient (losses changes) period
  if avgLoss = 0 then return 100
  else do
    let rs ← quotient avgGain avgLoss
    let share ← quotient 100 (1 + rs)
    return 100 - share

/-- An entry of `_compute_rsi`. -/
def rsiAt (data : List PriceBar) (period i : ℤ) : Except BuilderError ℚ :=
  if i < period then return 50
  else do
    let changes ← (range (i - period + 1) (i + 1)).mapM (changeAt data)
    strengthIndex changes period

/-- `_compute_rsi`. -/
def computeRsi (data : List PriceBar) (period : ℤ) : Except BuilderError (List ℚ) :=
  (range 0 data.length).mapM (rsiAt data period)

section Bands

variable (root : ℚ → ℚ)

/-- An entry of `_compute_bollinger`. -/
def bandAt (data : List PriceBar) (period : ℤ) (stdMult : ℚ) (i : ℤ) :
    Except BuilderError Band :=
  if i < period - 1 then return ⟨.nan, .nan, .nan⟩
  else do
    let window := (slice data (i - period + 1) (i + 1)).map PriceBar.close
    let mean ← quotient window.sum period
    let variance ← quotient (window.map fun x => (x - mean) ^ 2).sum period
    let std := root variance
    return ⟨.fin (mean + stdMult * std), .fin mean, .fin (mean - stdMult * std)⟩

/-- `_compute_bollinger`. -/
def computeBollinger (data : List PriceBar) (period : ℤ) (stdMult : ℚ) :
    Except BuilderError (List Band) :=
  (range 0 data.length).mapM (bandAt root data period stdMult)

/-- The side on which a close has reached a band: one below, minus one above. -/
def bbSignal (band : Band) (close : ℚ) : ℤ :=
  if band.upper = .nan ∨ band.lower = .nan then 0
  else if Extended.le (.fin close) band.lower then 1
  else if Extended.le band.upper (.fin close) then -1
  else 0

namespace MeanReversionParams

variable (params : MeanReversionParams)

/-- `validate_params`. -/
def validateParams : Bool :=
  5 ≤ params.rsiPeriod ∧ 0 < params.oversold ∧ params.oversold < params.overbought ∧
    params.overbought < 100 ∧ 5 ≤ params.bbPeriod

/-- The direction and the strength that an index and a band signal give. -/
def reaction (rsi : ℚ) (bbSignal : ℤ) : Except BuilderError (Option (Direction × ℚ)) :=
  if rsi < params.oversold then do
    let depth ← quotient (params.oversold - rsi) params.oversold
    let strength := 6 / 10 + depth * (3 / 10)
    return some (.long, if bbSignal = 1 then min 1 (strength + 2 / 10) else strength)
  else if params.overbought < rsi then do
    let height ← quotient (rsi - params.overbought) (100 - params.overbought)
    let strength := 6 / 10 + height * (3 / 10)
    return some (.short, if bbSignal = -1 then min 1 (strength + 2 / 10) else strength)
  else return none

/-- The body of the loop of `generate_signals`. -/
def signalAt (symbol : String) (data : List PriceBar) (rsi : List ℚ) (bands : List Band) (i : ℤ) :
    Except BuilderError (Option BuilderBundle) := do
  let rsiVal ← readItem rsi i
  let bar ← readItem data i
  let band ← readItem bands i
  match ← params.reaction rsiVal (bbSignal band bar.close) with
  | none => return none
  | some (direction, strength) =>
      return some <| makeBundle params.strategyId symbol direction strength
        (strength * (85 / 100))
        [("signal_type", .text "rsi_bb"),
          ("rsi", .number (.fin rsiVal)),
          ("close", .number (.fin bar.close)),
          ("bb_signal", .number (.fin (bbSignal band bar.close)))]

/-- The bars that `generate_signals` asks for. -/
def guard : ℤ := params.bbPeriod + 1

/-- The indicators that `generate_signals` computes ahead of its loop. -/
def indicators (data : List PriceBar) : Except BuilderError (List ℚ × List Band) := do
  let rsi ← computeRsi data params.rsiPeriod
  let bands ← computeBollinger root data params.bbPeriod params.bbStd
  return (rsi, bands)

/-- `generate_signals`. -/
def emission (symbol : String) (data : List PriceBar) : Emission :=
  if (data.length : ℤ) < params.guard then ([], none)
  else loopAfter (params.indicators root data) fun computed =>
    emit (params.signalAt symbol data computed.1 computed.2) (range params.bbPeriod data.length)

end MeanReversionParams

end Bands

/-! ## Trend following -/

/-- The parameters of a trend following strategy, with periods of some type. -/
structure TrendParamsOf (π : Type) where
  strategyId : Option String := none
  shortMaPeriod : Option π := none
  longMaPeriod : Option π := none
  momentumWindow : Option π := none
  momentumThreshold : Option ℚ := none
  strengthMultiplier : Option ℚ := none

/-- The parameters of a trend following strategy, with periods in bars. -/
abbrev TrendParams := TrendParamsOf ℤ

/-- `get_default_params`. -/
def defaultTrendParams : TrendParams where
  strategyId := some "trend_following"
  shortMaPeriod := some 10
  longMaPeriod := some 30
  momentumWindow := some 20
  momentumThreshold := some (2 / 100)
  strengthMultiplier := some 1

/-- An entry of a dict that has to be there. -/
def required {α : Type} (key : String) : Option α → Except BuilderError α
  | some value => .ok value
  | none => .error (.keyError key)

/-- An entry of `_compute_ma`. -/
def maAt (data : List PriceBar) (period i : ℤ) : Except BuilderError Extended :=
  if i < period - 1 then return .nan
  else do
    let mean ← quotient ((slice data (i - period + 1) (i + 1)).map PriceBar.close).sum period
    return .fin mean

/-- `_compute_ma`. -/
def computeMa (data : List PriceBar) (period : ℤ) : Except BuilderError (List Extended) :=
  (range 0 data.length).mapM (maAt data period)

/-- The direction of a cross of the short moving average over the long one. -/
def crossing (prevShort prevLong currShort currLong : Extended) : Option Direction :=
  if Extended.le prevShort prevLong ∧ Extended.lt currLong currShort then some .long
  else if Extended.le prevLong prevShort ∧ Extended.lt currShort currLong then some .short
  else none

namespace TrendParams

variable (params : TrendParams)

/-- `validate_params`. -/
def validateParams : Bool :=
  1 < params.shortMaPeriod.getD 10 ∧ params.shortMaPeriod.getD 10 < params.longMaPeriod.getD 30 ∧
    5 ≤ params.momentumWindow.getD 20

/-- The strength of a cross, by the momentum over the window if there is one. -/
def momentumStrength (data : List PriceBar) (direction : Direction) (i : ℤ) :
    Except BuilderError ℚ :=
  let momWindow := params.momentumWindow.getD 20
  if momWindow ≤ i then do
    let bar ← readItem data i
    let earlier ← readItem data (i - momWindow)
    let momentum ← quotient (bar.close - earlier.close) earlier.close
    if params.momentumThreshold.getD (2 / 100) <
        momentum * (if direction = .long then 1 else -1) then
      return min 1 (1 / 2 + |momentum| * params.strengthMultiplier.getD 1 * 5)
    else return 1 / 2
  else return 1 / 2

/-- The body of the loop of `generate_signals`, with what gives the strength of a cross. -/
def signalWith (strengthOf : Direction → ℤ → Except BuilderError ℚ) (symbol : String)
    (data : List PriceBar) (shortMa longMa : List Extended) (i : ℤ) :
    Except BuilderError (Option BuilderBundle) := do
  let longPeriod ← required "long_ma_period" params.longMaPeriod
  if i < longPeriod then return none
  else do
    let prevShort ← readItem shortMa (i - 1)
    let prevLong ← readItem longMa (i - 1)
    let currShort ← readItem shortMa i
    let currLong ← readItem longMa i
    match crossing prevShort prevLong currShort currLong with
    | none => return none
    | some direction =>
        let strength ← strengthOf direction i
        let bar ← readItem data i
        return some <| makeBundle (params.strategyId.getD "trend_following") symbol direction
          strength (strength * (9 / 10))
          [("signal_type", .text "ma_cross"),
            ("short_ma", .number currShort),
            ("long_ma", .number currLong),
            ("close", .number (.fin bar.close))]

/-- The body of the loop of `generate_signals`. -/
def signalAt (symbol : String) (data : List PriceBar) (shortMa longMa : List Extended) (i : ℤ) :
    Except BuilderError (Option BuilderBundle) :=
  params.signalWith (params.momentumStrength data) symbol data shortMa longMa i

/-- The bars that `generate_signals` asks for. -/
def guard : ℤ := params.longMaPeriod.getD 30

/-- The moving averages that `generate_signals` computes ahead of its loop. -/
def averages (data : List PriceBar) : Except BuilderError (List Extended × List Extended) := do
  let shortPeriod ← required "short_ma_period" params.shortMaPeriod
  let shortMa ← computeMa data shortPeriod
  let longPeriod ← required "long_ma_period" params.longMaPeriod
  let longMa ← computeMa data longPeriod
  return (shortMa, longMa)

/-- `generate_signals`. -/
def emission (symbol : String) (data : List PriceBar) : Emission :=
  if (data.length : ℤ) < params.guard then ([], none)
  else loopAfter (params.averages data) fun computed =>
    emit (params.signalAt symbol data computed.1 computed.2) (range 1 data.length)

end TrendParams

/-- The parameters of a builder that was given a dict: an empty one, or none, stands for the
defaults. -/
def trendParams (given : Option TrendParams) : TrendParams := given.getD defaultTrendParams

end TradeOS.Strategy
