import TradeOS.Data.FirstMatch
import TradeOS.OrderFlow.Metrics

/-!
# Metrics of the macro engine

The five modules below the macro engine: the pressure of interest rates, the inflation shock, the
shock of an event, the liquidity of the market, and the macro regime. Each has a proxy that
estimates it from the bars, and the rates, the event shock and the regime may come from events.

The category of an event is the first entry of a set that its name mentions. The order in which a
set is run through is part of the input (`SetOrder`).

The volatility of a single bar is the deviation of no returns, which is NaN. It is the absent value
of an option here, and no comparison with it holds.
-/

set_option autoImplicit false

namespace TradeOS.Macro

open Numeric OrderFlow FirstMatch

/-! ## Texts -/

/-- Lower-casing of one character, exact on the characters whose lower case has an ASCII letter:
the ASCII letters, the Kelvin sign, and the capital I with a dot. -/
def lowerChar (c : Char) : List Char :=
  if c = Char.ofNat 0x212A then ['k']
  else if c = Char.ofNat 0x130 then ['i', Char.ofNat 0x307]
  else [c.toLower]

/-- `lower`. -/
def lower (text : String) : String := String.ofList (text.toList.flatMap lowerChar)

/-- The text contains the keyword. -/
def mentions (text keyword : String) : Bool := keyword.toList <:+: text.toList

/-- The text contains one of the keywords. -/
def mentionsAny (text : String) (keywords : List String) : Bool := keywords.any (mentions text)

/-! ## Returns -/

/-- The changes from each price to the next, as shares of the first. -/
def returnsOf (closes : List ℚ) : List ℚ :=
  (closes.zip closes.tail).map fun pair => (pair.2 - pair.1) / pair.1

/-- The deviation of a column, absent for an empty one. -/
def std (sqrt : ℚ → ℚ) (values : List ℚ) : Option ℚ :=
  if values = [] then none else some (deviation sqrt values)

/-- The comparison of a volatility with a bound below it. -/
def above (volatility : Option ℚ) (bound : ℚ) : Prop := ∃ v ∈ volatility, bound < v

/-- The comparison of a volatility with a bound above it. -/
def below (volatility : Option ℚ) (bound : ℚ) : Prop := ∃ v ∈ volatility, v < bound

instance (volatility : Option ℚ) (bound : ℚ) : Decidable (above volatility bound) :=
  inferInstanceAs (Decidable (∃ v ∈ volatility, bound < v))

instance (volatility : Option ℚ) (bound : ℚ) : Decidable (below volatility bound) :=
  inferInstanceAs (Decidable (∃ v ∈ volatility, v < bound))

/-! ## Interest rates -/

/-- `RateDirection`. -/
inductive RateDirection where
  | hiking
  | cutting
  | onHold
  deriving DecidableEq, Repr

inductive Stance where
  | hawkish
  | dovish
  | neutral
  deriving DecidableEq, Repr

structure RatePressure where
  rateDirection : RateDirection
  pressureScore : ℚ
  centralBankStance : Stance
  rateShockProbability : ℚ

inductive VolumeTrend where
  | increasing
  | decreasing
  | stable
  deriving DecidableEq, Repr

/-- The pressure score of `calc_rate_pressure_proxy`, before it is rounded. -/
def pressureOf (returns1d : ℚ) (volatility20d : Option ℚ) (volumeTrend : VolumeTrend) : ℚ :=
  let base :=
    if returns1d < -(2 / 100) then max 0 (3 / 10 - |returns1d| * 5)
    else if 2 / 100 < returns1d then min 1 (6 / 10 + returns1d * 5)
    else 1 / 2
  let adjusted :=
    if above volatility20d (2 / 100) then min 1 (base + 1 / 10)
    else if below volatility20d (5 / 1000) then max 0 (base - 1 / 10)
    else base
  if volumeTrend = .increasing then 4 / 10 + adjusted * (6 / 10) else adjusted

/-- `calc_rate_pressure_proxy`. -/
def calcRatePressureProxy (returns1d : ℚ) (volatility20d : Option ℚ)
    (volumeTrend : VolumeTrend) : RatePressure :=
  let pressureScore := pressureOf returns1d volatility20d volumeTrend
  let shockProb :=
    if above volatility20d (3 / 100) ∧ 2 / 100 < |returns1d| then
      min 1 (volatility20d.getD 0 * 20)
    else 0
  { rateDirection :=
      if 6 / 10 < pressureScore then .hiking
      else if pressureScore < 4 / 10 then .cutting
      else .onHold
    pressureScore := roundTo 3 pressureScore
    centralBankStance :=
      if 65 / 100 < pressureScore then .hawkish
      else if pressureScore < 35 / 100 then .dovish
      else .neutral
    rateShockProbability := roundTo 3 shockProb }

/-- `parse_macro_event_rate`. -/
def parseMacroEventRate (eventName impact : String) : RatePressure :=
  let nameLower := lower eventName
  let shockProb := if impact = "high" then 8 / 10 else if impact = "medium" then 4 / 10 else 1 / 10
  if mentionsAny nameLower ["rate hike", "tightening", "hawkish", "fed raise", "加息"] then
    ⟨.hiking, if impact = "high" then 8 / 10 else 6 / 10, .hawkish, shockProb⟩
  else if mentionsAny nameLower
      ["rate cut", "easing", "dovish", "fed lower", "降息", "宽松"] then
    ⟨.cutting, if impact = "high" then 2 / 10 else 4 / 10, .dovish, shockProb⟩
  else ⟨.onHold, 1 / 2, .neutral, shockProb⟩

/-! ## Inflation -/

/-- What something does to an asset. -/
inductive Impact where
  | negative
  | positive
  | neutral
  deriving DecidableEq, Repr

/-- The word of an impact. -/
def Impact.word : Impact → String
  | negative => "negative"
  | positive => "positive"
  | neutral => "neutral"

inductive InflationDirection where
  | hot
  | cold
  | neutral
  deriving DecidableEq, Repr

structure InflationShock where
  shockScore : ℚ
  direction : InflationDirection
  unexpected : Bool
  impactOnEquity : Impact
  impactOnBond : Impact
  impactOnCommodity : Impact

/-- The impacts of a direction on equity, bonds and commodities. -/
def inflationShock (score : ℚ) (direction : InflationDirection) (unexpected : Bool) :
    InflationShock :=
  match direction with
  | .hot => ⟨roundTo 3 score, direction, unexpected, .negative, .negative, .positive⟩
  | .cold => ⟨roundTo 3 score, direction, unexpected, .negative, .positive, .negative⟩
  | .neutral => ⟨roundTo 3 score, direction, unexpected, .neutral, .neutral, .neutral⟩

/-- `calc_inflation_shock_proxy`. -/
def calcInflationShockProxy (volatility : Option ℚ) : InflationShock :=
  if above volatility (25 / 100) then inflationShock (75 / 100) .hot true
  else if above volatility (15 / 100) then inflationShock (6 / 10) .hot false
  else if below volatility (5 / 100) then inflationShock (25 / 100) .cold false
  else inflationShock (1 / 2) .neutral false

/-! ## Shocks -/

inductive Asset where
  | equity
  | bond
  | commodity
  | fx
  deriving DecidableEq, Repr

structure EventShock where
  shockScore : ℚ
  category : String
  affectedAssets : List (Asset × Impact)
  durationHours : ℕ
  isProxy : Bool := true
  deriving DecidableEq

/-- The categories of high impact, a set. -/
def highImpactCategories : List String :=
  ["fomc", "fed", "ecb", "boe", "pce", "cpi", "nfp", "gdp", "pmi", "ism", "geopolitical", "crisis"]

/-- The categories of medium impact, a set. -/
def mediumImpactCategories : List String :=
  ["retail", "housing", "consumer_confidence", "trade", "pmi_flash", "industrial_production",
    "capacity_utilization"]

/-- `CATEGORY_IMPACT_MAP`. -/
def categoryImpactMap : List (String × List (Asset × Impact)) :=
  [("fomc", [(.equity, .negative), (.bond, .positive), (.fx, .positive)]),
    ("fed", [(.equity, .negative), (.bond, .positive), (.fx, .positive)]),
    ("ecb", [(.equity, .neutral), (.bond, .neutral), (.fx, .negative)]),
    ("boe", [(.equity, .neutral), (.bond, .neutral), (.fx, .negative)]),
    ("pce", [(.equity, .negative), (.bond, .negative), (.commodity, .positive)]),
    ("cpi", [(.equity, .negative), (.bond, .negative), (.commodity, .positive)]),
    ("nfp", [(.equity, .neutral), (.bond, .neutral), (.fx, .positive)]),
    ("gdp", [(.equity, .positive), (.bond, .negative), (.fx, .positive)]),
    ("pmi", [(.equity, .positive), (.bond, .neutral), (.fx, .neutral)]),
    ("geopolitical", [(.equity, .negative), (.bond, .positive), (.commodity, .positive)]),
    ("crisis", [(.equity, .negative), (.bond, .positive), (.fx, .positive)])]

/-- The impacts of a category, neutral where it is not in the map. -/
def impactsOf (category : String) : List (Asset × Impact) :=
  (categoryImpactMap.lookup category).getD
    [(.equity, .neutral), (.bond, .neutral), (.commodity, .neutral), (.fx, .neutral)]

/-- The hours that a category lasts. -/
def durationOf (category : String) : ℕ :=
  ([("fomc", 48), ("fed", 48), ("cpi", 24), ("pce", 24), ("nfp", 12), ("gdp", 24), ("pmi", 6),
    ("geopolitical", 72), ("crisis", 168)].lookup category).getD 6

/-- The category of an event name: the first category of high impact that it mentions, or else the
first of medium impact, in the order of the sets. -/
def categoryOf (order : SetOrder String) (eventName : String) : String :=
  let nameLower := lower eventName
  match (order.val highImpactCategories).find? (mentions nameLower) with
  | some category => category
  | none => ((order.val mediumImpactCategories).find? (mentions nameLower)).getD "unknown"

/-- The score of an event: of its impact, and of the surprise in it. -/
def eventScore (impactLevel : String) (actual consensus : Option ℚ) : ℚ :=
  let base := ([("high", 8 / 10), ("medium", 1 / 2), ("low", 2 / 10)].lookup
    (lower impactLevel)).getD (1 / 2)
  let bonus := match actual, consensus with
    | some actual, some consensus =>
        if consensus = 0 then 0 else min (2 / 10) (|actual - consensus| / |consensus| * 2)
    | _, _ => 0
  min 1 (base + bonus)

/-- The shock of a score and a category. -/
def shockOf (score : ℚ) (category : String) : EventShock where
  shockScore := roundTo 3 score
  category := category
  affectedAssets := impactsOf category
  durationHours := durationOf category

/-- `calc_event_shock`. The country is not read. -/
def calcEventShock (order : SetOrder String) (eventName impactLevel : String)
    (actual consensus : Option ℚ) : EventShock :=
  shockOf (eventScore impactLevel actual consensus) (categoryOf order eventName)

/-- `calc_shock_from_returns`. -/
def calcShockFromReturns (returns1d : ℚ) (volatility : Option ℚ) : EventShock :=
  if returns1d < -(3 / 100) ∧ above volatility (2 / 100) then
    { shockScore := roundTo 3 (min 1 (|returns1d| * 20))
      category := "geopolitical"
      affectedAssets := [(.equity, .negative), (.bond, .positive), (.commodity, .negative)]
      durationHours := 48 }
  else if 3 / 100 < returns1d ∧ above volatility (15 / 1000) then
    { shockScore := roundTo 3 (min (8 / 10) (returns1d * 15))
      category := "fomc"
      affectedAssets := [(.equity, .positive), (.bond, .negative), (.commodity, .positive)]
      durationHours := 24 }
  else
    { shockScore := roundTo 3 (1 / 10)
      category := "normal"
      affectedAssets := [(.equity, .neutral), (.bond, .neutral), (.commodity, .neutral)]
      durationHours := 0 }

/-! ## Liquidity -/

inductive Condition where
  | abundant
  | normal
  | strained
  | crisis
  deriving DecidableEq, Repr

structure LiquidityCondition where
  condition : Condition
  score : ℚ
  spreadProxy : ℚ
  depthProxy : ℚ
  isProxy : Bool := true

/-- The liquidity where nothing is known. -/
def unknownLiquidity : LiquidityCondition := ⟨.normal, 1 / 2, 0, 0, true⟩

/-- A fall of more than two percent with a volume of more than twice the mean. -/
def crashSignal (returns volumes : List ℚ) (volMean : ℚ) : Bool :=
  ((lastOf 5 returns).zip (lastOf 4 volumes).dropLast).any fun pair =>
    decide (pair.1 < -(2 / 100)) && decide (volMean * 2 < pair.2)

/-- `calc_liquidity_from_bars`, for a lookback of two or more. -/
def calcLiquidityFromBars (sqrt : ℚ → ℚ) (columns : BarColumns) (lookback : ℕ) :
    LiquidityCondition :=
  if columns.closes.length < lookback then unknownLiquidity
  else
    let returns := returnsOf (lastOf lookback columns.closes)
    let annVol := deviation sqrt returns * sqrt 252
    let volMean := mean (lastOf lookback columns.volumes)
    let volRatio := share (mean (lastOf 5 columns.volumes)) volMean 1
    let volScore := 1 - min 1 (annVol / (3 / 10))
    let volFlowScore :=
      if 8 / 10 ≤ volRatio ∧ volRatio ≤ 15 / 10 then 7 / 10
      else if volRatio < 1 / 2 then 4 / 10
      else if 3 < volRatio then 3 / 10
      else 1 / 2
    let mixed := volScore * (6 / 10) + volFlowScore * (4 / 10)
    let score := if crashSignal returns columns.volumes volMean then min (2 / 10) mixed else mixed
    { condition :=
        if 7 / 10 < score then .abundant
        else if 45 / 100 < score then .normal
        else if 25 / 100 < score then .strained
        else .crisis
      score := roundTo 3 score
      spreadProxy := roundTo 3 (min 1 (annVol / (2 / 10)))
      depthProxy := roundTo 3 (min 1 (volRatio / 2)) }

/-! ## Regimes -/

/-- `MacroRegime`. -/
inductive MacroRegime where
  | riskOn
  | riskOff
  | stagflation
  | deflationary
  | neutral
  deriving DecidableEq, Repr

inductive Growth where
  | expanding
  | contracting
  | stable
  deriving DecidableEq, Repr

inductive InflationOutlook where
  | rising
  | falling
  | stable
  deriving DecidableEq, Repr

structure MacroRegimeMetrics where
  regime : MacroRegime
  confidence : ℚ
  growthOutlook : Growth
  inflationOutlook : InflationOutlook

/-- The metrics where no regime is determined. -/
def undeterminedRegime : MacroRegimeMetrics := ⟨.neutral, 0, .stable, .stable⟩

/-- The growth that a return stands for. -/
def growthOf (totalReturn : ℚ) : Growth :=
  if 5 / 100 < totalReturn then .expanding
  else if totalReturn < -(5 / 100) then .contracting
  else .stable

/-- The inflation that a volatility and a return stand for. -/
def inflationOf (annVol totalReturn : ℚ) : InflationOutlook :=
  if 2 / 10 < annVol ∧ 0 < totalReturn then .rising
  else if 2 / 10 < annVol ∧ totalReturn < 0 then .stable
  else if annVol < 1 / 10 then .falling
  else .stable

/-- The regime and the confidence of `detect_macro_regime_proxy`. The branch of stagflation has the
condition of the one before it. -/
def proxyRegime (growth : Growth) (annVol volChange totalReturn pricePosition : ℚ) :
    MacroRegime × ℚ :=
  if growth = .expanding ∧ annVol < 2 / 10 ∧ volChange < 15 / 10 then
    (.riskOn, min 1 (1 / 2 + totalReturn * 3))
  else if growth = .contracting ∧ 15 / 100 < annVol then
    (.riskOff, min 1 (1 / 2 + |totalReturn| * 3))
  else if growth = .contracting ∧ 15 / 100 < annVol then (.stagflation, 1 / 2)
  else if annVol < 1 / 10 ∧ volChange < 8 / 10 ∧ pricePosition < 3 / 10 then
    (.deflationary, min 1 ((1 - pricePosition) * (8 / 10)))
  else (.neutral, 3 / 10)

/-- `detect_macro_regime_proxy`, for a lookback of two or more. -/
def detectMacroRegimeProxy (sqrt : ℚ → ℚ) (columns : BarColumns) (lookback : ℕ) :
    MacroRegimeMetrics :=
  if columns.closes.length < lookback then undeterminedRegime
  else
    let closes := lastOf lookback columns.closes
    let annVol := deviation sqrt (returnsOf closes) * sqrt 252
    let first := closes.headD 0
    let last := closes.getLastD 0
    let totalReturn := (last - first) / first
    let volOld := mean ((lastOf lookback columns.volumes).take (lookback - 10))
    let volChange := share (mean (lastOf 10 columns.volumes)) volOld 1
    let periodHigh := largest (lastOf lookback columns.highs)
    let periodLow := smallest (lastOf lookback columns.lows)
    let pricePosition :=
      if periodLow < periodHigh then (last - periodLow) / (periodHigh - periodLow) else 1 / 2
    let (regime, confidence) := proxyRegime (growthOf totalReturn) annVol volChange totalReturn
      pricePosition
    ⟨regime, min 1 (roundTo 3 confidence), growthOf totalReturn, inflationOf annVol totalReturn⟩

/-- `detect_regime_from_macro_events`, for at least one event. -/
def detectRegimeFromMacroEvents (rate : RatePressure) (inflation : InflationShock)
    (liquidity : LiquidityCondition) : MacroRegimeMetrics :=
  let fromRates : ℚ × ℚ :=
    if 6 / 10 < rate.pressureScore then (-(2 / 10), 1 / 10)
    else if rate.pressureScore < 4 / 10 then (2 / 10, 1 / 10)
    else (0, 0)
  let fromInflation : ℚ × ℚ :=
    if 65 / 100 < inflation.shockScore then (-(1 / 10), 1 / 10)
    else if inflation.shockScore < 35 / 100 then (1 / 10, 0)
    else (0, 0)
  let fromLiquidity : ℚ × ℚ :=
    match liquidity.condition with
    | .strained | .crisis => (-(2 / 10), 1 / 10)
    | .abundant => (1 / 10, 0)
    | .normal => (0, 0)
  let riskOnScore := 1 / 2 + fromRates.1 + fromInflation.1 + fromLiquidity.1
  let confidence := 1 / 2 + fromRates.2 + fromInflation.2 + fromLiquidity.2
  { regime :=
      if 65 / 100 < riskOnScore then .riskOn
      else if riskOnScore < 35 / 100 then .riskOff
      else .neutral
    confidence := min 1 (roundTo 3 confidence)
    growthOutlook := .stable
    inflationOutlook := .stable }

end TradeOS.Macro
