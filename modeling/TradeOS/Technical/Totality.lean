import TradeOS.Technical.Engine
import Mathlib.Data.Rat.Sqrt

/-!
# How many bars an analysis needs

The engine asks for twenty bars. On bars of any number, every indicator of the default configuration
returns except two: `adx` fails from 15 to 26 bars, and `macd` below 34. So an analysis of at least
twenty bars returns a signal exactly from 34 bars on (`analyze_total_iff`).

What comes behind the indicators never fails: the scans return for every price column, the last
entries are read from columns that have one entry per bar, and the confidence and the scores pass
the checks of the signal.
-/

set_option autoImplicit false

namespace TradeOS.Technical

open Numeric Numeric.Extended Programs CheckedArray MarketData

/-! ## Columns of bars -/

/-- Price columns with one entry for each of `n` bars. -/
structure PriceColumns.Fits (columns : PriceColumns) (n : ℕ) : Prop where
  opens : columns.opens.length = n
  highs : columns.highs.length = n
  lows : columns.lows.length = n
  closes : columns.closes.length = n

theorem fits_priceColumns (bars : List MarketBar) : (priceColumns bars).Fits bars.length :=
  ⟨List.length_map _, List.length_map _, List.length_map _, List.length_map _⟩

/-- The columns that the signal is drawn from, with one entry for each of `n` bars. -/
structure Indicators.Fits (indicators : Indicators) (n : ℕ) : Prop where
  ma : ∀ period ∈ [5, 20, 60], (indicators.maOf period).length = n
  adx : indicators.adx.adx.length = n
  histogram : indicators.macd.histogram.length = n
  rsi : indicators.rsi.length = n
  atr : indicators.atr.length = n
  bandwidth : indicators.bollinger.bandwidth.length = n

section Indicators

variable {sqrt : ℚ → ℚ} {columns : PriceColumns} {n : ℕ}

/-- The moving averages of the default periods. -/
theorem returns_movingAverages (prices : List ℚ) :
    Returns (({} : Config).maPeriods.mapM fun period => do
      let column ← sma prices period
      return (period, column)) fun ma =>
        ∀ period ∈ [5, 20, 60], ((ma.lookup period).getD []).length = prices.length := by
  simp only [List.mapM_cons, List.mapM_nil, bind_assoc, pure_bind]
  refine (returns_sma prices 5).bind fun ma5 five => ?_
  refine (returns_sma prices 20).bind fun ma20 twenty => ?_
  refine (returns_sma prices 60).bind fun ma60 sixty => ?_
  refine (returns_sma prices 120).bind fun ma120 _ => ?_
  rw [returns_pure_iff]
  simp [List.lookup_cons, five, twenty, sixty]

theorem returns_calcIndicators (fits : columns.Fits n) (enough : 34 ≤ n) :
    Returns (calcIndicators sqrt {} columns) fun indicators => indicators.Fits n := by
  obtain ⟨opens, highs, lows, closes⟩ := fits
  have sameHighs : columns.highs.length = columns.closes.length := by omega
  have sameLows : columns.lows.length = columns.closes.length := by omega
  refine (returns_movingAverages columns.closes).bind fun ma maLength => ?_
  refine ((returns_adx_iff sameHighs sameLows 14).mpr (by omega)).bind fun adxData adxLength => ?_
  have macdReturns : Returns (macd columns.closes 12 26 9) fun data =>
      data.histogram.length = columns.closes.length :=
    returns_macd (by decide) (by decide) (by decide) (by omega) (by omega)
  refine macdReturns.bind fun macdData histogramLength => ?_
  refine (returns_rsi columns.closes 14).bind fun rsiColumn rsiLength => ?_
  refine (returns_kdj sameHighs sameLows).bind fun kdjData _ => ?_
  refine (returns_cci sameHighs sameLows).bind fun cciColumn _ => ?_
  refine (returns_atr sameHighs sameLows 14).bind fun atrColumn atrLength => ?_
  refine (returns_bollingerBands sqrt columns.closes 20 2).bind fun bands bandsLength => ?_
  rw [returns_pure_iff]
  rw [closes] at maLength adxLength histogramLength rsiLength atrLength bandsLength
  exact ⟨maLength, adxLength, histogramLength, rsiLength, atrLength, bandsLength⟩

/-- Indicators that were computed had enough bars for the signal line of the MACD. -/
theorem enough_of_returns_calcIndicators {post : Indicators → Prop} (fits : columns.Fits n)
    (returns : Returns (calcIndicators sqrt {} columns) post) : 34 ≤ n := by
  obtain ⟨ma, -, returns⟩ := returns_bind_iff.mp returns
  obtain ⟨adxData, -, returns⟩ := returns_bind_iff.mp returns
  obtain ⟨-, slowFits, signalFits⟩ :=
    fits_of_returns_macd (by decide) (by decide) (returns_bind_iff.mp returns)
  change 26 ≤ columns.closes.length at slowFits
  change 9 ≤ columns.closes.length - (26 - 1) at signalFits
  have closes := fits.closes
  omega

end Indicators

/-! ## The last entries -/

theorem returns_last {column : Column} {n : ℕ} (positive : 0 < n) (size : column.length = n) :
    Returns (readAt column (n - 1)) fun _ => True := by
  apply returns_readAt_total
  omega

theorem returns_readOr (default : Extended) (column : Column) (idx : ℕ) :
    Returns (readOr default column idx) fun _ => True := by
  unfold readOr
  split
  · rename_i inside
    exact returns_readAt_total inside
  · simp

/-- The scores to enter and to exit are in the unit interval. -/
theorem entryExitScores_bounds (rsiVal histVal : Extended) (direction : Direction) :
    (0 ≤ (entryExitScores rsiVal histVal direction).1 ∧
      (entryExitScores rsiVal histVal direction).1 ≤ 1) ∧
      0 ≤ (entryExitScores rsiVal histVal direction).2 ∧
      (entryExitScores rsiVal histVal direction).2 ≤ 1 := by
  cases direction with
  | long =>
      simp only [entryExitScores]
      split_ifs <;> norm_num
  | short =>
      simp only [entryExitScores]
      split_ifs <;> norm_num
  | flat => norm_num [entryExitScores]

section Synthesis

variable {indicators : Indicators} {n : ℕ} (fits : indicators.Fits n) (positive : 0 < n)

include fits positive

theorem returns_determineTrend :
    Returns (determineTrend indicators (n - 1)) fun _ => True := by
  have last : ∀ period ∈ [5, 20, 60],
      Returns (readAt (indicators.maOf period) (n - 1)) fun _ => True :=
    fun period listed => returns_last positive (fits.ma period listed)
  unfold determineTrend
  rw [returns_ite_iff]
  split
  · simp
  refine (last 5 (by decide)).bind fun value5 _ => ?_
  rw [returns_ite_iff]
  split
  · simp
  refine (last 20 (by decide)).bind fun value20 _ => ?_
  rw [returns_ite_iff]
  split
  · simp
  refine (last 60 (by decide)).bind fun value60 _ => ?_
  split_ifs <;> simp

theorem returns_determineMomentum :
    Returns (determineMomentum indicators (n - 1)) fun _ => True := by
  unfold determineMomentum
  rw [returns_ite_iff]
  split
  · simp
  refine (returns_last positive fits.rsi).bind fun rsiVal _ => ?_
  exact (returns_readOr nan _ _).bind fun histVal _ => by simp

theorem returns_determineVolatility :
    Returns (determineVolatility indicators (n - 1)) fun _ => True := by
  unfold determineVolatility
  rw [returns_ite_iff]
  split
  · simp
  refine (returns_last positive fits.atr).bind fun atrVal _ => ?_
  exact (returns_readOr nan _ _).bind fun bbWidth _ => by simp

theorem returns_determineRegime :
    Returns (determineRegime indicators (n - 1)) fun _ => True := by
  unfold determineRegime
  rw [returns_ite_iff]
  split
  · simp
  refine (returns_last positive fits.adx).bind fun adxVal _ => ?_
  exact (returns_last positive fits.rsi).bind fun rsiVal _ => by simp

theorem returns_calcEntryExitScores (direction : Direction) :
    Returns (calcEntryExitScores indicators direction (n - 1)) fun scores =>
      (0 ≤ scores.1 ∧ scores.1 ≤ 1) ∧ 0 ≤ scores.2 ∧ scores.2 ≤ 1 := by
  unfold calcEntryExitScores
  rw [returns_ite_iff]
  split
  · norm_num
  refine (returns_last positive fits.rsi).bind fun rsiVal _ => ?_
  refine (returns_readOr (fin 0) _ _).bind fun histVal _ => ?_
  obtain ⟨entry, exit⟩ := entryExitScores_bounds (fillNan (fin 50) rsiVal) histVal direction
  exact returns_pure_iff.mpr
    ⟨roundTo_mem_unit 2 entry.1 entry.2, roundTo_mem_unit 2 exit.1 exit.2⟩

end Synthesis

/-- The confidence is in the unit interval. -/
theorem calcDirectionConfidence_bounds (trend : TrendState) (momentum : MomentumState)
    (pattern : Option Pattern) (candle : Option CandlePattern) :
    0 ≤ (calcDirectionConfidence trend momentum pattern candle).2 ∧
      (calcDirectionConfidence trend momentum pattern candle).2 ≤ 1 := by
  have confident : ∀ net : ℚ, 0 ≤ roundTo 3 (min (95 / 100) (1 / 2 + |net| * (1 / 2))) ∧
      roundTo 3 (min (95 / 100) (1 / 2 + |net| * (1 / 2))) ≤ 1 := fun net =>
    roundTo_mem_unit 3 (le_min (by norm_num) (by positivity))
      ((min_le_left _ _).trans (by norm_num))
  unfold calcDirectionConfidence
  dsimp only
  split_ifs
  · exact confident _
  · exact confident _
  · exact roundTo_mem_unit 3 (by norm_num) (by norm_num)

/-- A synthesis whose numbers pass the checks of the signal. -/
structure Synthesis.Checked (signal : Synthesis) : Prop where
  confidence : 0 ≤ signal.confidence ∧ signal.confidence ≤ 1
  entryScore : 0 ≤ signal.entryScore ∧ signal.entryScore ≤ 1
  exitScore : 0 ≤ signal.exitScore ∧ signal.exitScore ≤ 1

theorem returns_synthesizeSignal {indicators : Indicators} {n : ℕ} (fits : indicators.Fits n)
    (positive : 0 < n) (patterns : List Pattern) (candlePatterns : List CandlePattern)
    (levels : List Level × List Level) :
    Returns (synthesizeSignal indicators patterns candlePatterns levels n) Synthesis.Checked := by
  refine (returns_determineTrend fits positive).bind fun trend _ => ?_
  refine (returns_determineMomentum fits positive).bind fun momentum _ => ?_
  refine (returns_determineVolatility fits positive).bind fun volatility _ => ?_
  refine (returns_determineRegime fits positive).bind fun regime _ => ?_
  refine (returns_calcEntryExitScores fits positive _).bind fun scores within => ?_
  refine (returns_last positive fits.adx).bind fun adxVal _ => ?_
  refine (returns_last positive fits.rsi).bind fun rsiVal _ => ?_
  refine (returns_last positive fits.histogram).bind fun _ _ => ?_
  refine (returns_last positive fits.bandwidth).bind fun bbWidth _ => ?_
  refine (returns_last positive fits.atr).bind fun atrVal _ => ?_
  exact returns_pure_iff.mpr
    ⟨calcDirectionConfidence_bounds trend momentum _ _, within.1, within.2⟩

/-! ## The analysis -/

section Analyze

variable {sqrt : ℚ → ℚ} {columns : PriceColumns} {n : ℕ}

theorem returns_detectLevels (lookback : ℕ) (fits : columns.Fits n) :
    Returns (detectLevels lookback columns) fun _ => True := by
  obtain ⟨_, highs, lows, closes⟩ := fits
  apply returns_detectSupportResistance
  · rw [List.rtake, List.rtake, List.length_drop, List.length_drop, highs, closes]
  · rw [List.rtake, List.rtake, List.length_drop, List.length_drop, lows, closes]

theorem returns_analyzeColumns (fits : columns.Fits n) (enough : 34 ≤ n) :
    Returns (analyzeColumns sqrt {} columns) Synthesis.Checked := by
  have ⟨opens, highs, lows, closes⟩ := fits
  refine (returns_calcIndicators fits enough).bind fun indicators indicatorsFit => ?_
  refine (returns_scanPatterns columns.closes _).bind fun patterns _ => ?_
  refine (returns_scanCandlePatterns _ (by omega) (by omega) (by omega)).bind fun candles _ => ?_
  refine (returns_detectLevels _ fits).bind fun levels _ => ?_
  refine (returns_readAt_total (by omega)).bind fun currentPrice _ => ?_
  rw [closes]
  exact returns_synthesizeSignal indicatorsFit (by omega) patterns candles _

/-- What passes the checks of the signal becomes a field of it. -/
theorem returns_checked {path : String} {q : ℚ} (within : 0 ≤ q ∧ q ≤ 1) :
    Returns (checked (p := fun q => 0 ≤ q ∧ q ≤ 1) path q) fun _ => True := by
  rw [checked, returns_mapError_iff, returns_check_iff]
  exact ⟨within, trivial⟩

/-- A list of bars passes the check of the input as it is, if it has at least twenty. -/
theorem checkBars_bars {bars : List MarketBar} (admitted : 20 ≤ bars.length) :
    checkBars 20 (.items (bars.map .bar)) = .ok bars := by
  have converted : (bars.map BarItem.bar).mapM BarItem.toBar = .ok bars := by
    clear admitted
    induction bars with
    | nil => exact List.mapM_nil
    | cons bar bars ih =>
        rw [List.map_cons, List.mapM_cons, ih]
        rfl
  have nonempty : (bars.map BarItem.bar).isEmpty = false := by
    rw [List.isEmpty_eq_false_iff, ← List.length_pos_iff, List.length_map]
    omega
  have long : ¬ (bars.map BarItem.bar).length < 20 := by
    rw [List.length_map]
    omega
  simp only [checkBars, nonempty, long, converted, if_false, Bool.false_eq_true]

theorem returns_analyze_iff {bars : List MarketBar} (admitted : 20 ≤ bars.length) :
    (Returns (analyze sqrt {} (.items (bars.map .bar))) fun _ => True) ↔ 34 ≤ bars.length := by
  have fits := fits_priceColumns bars
  unfold analyze
  rw [checkBars_bars admitted, returns_bind_iff, returns_ok_iff]
  constructor
  · intro returns
    obtain ⟨first, -, returns⟩ := returns_bind_iff.mp returns
    obtain ⟨last, -, returns⟩ := returns_bind_iff.mp returns
    have analysed := returns_mapError_iff.mp (returns_bind_iff.mp returns)
    exact enough_of_returns_calcIndicators fits (returns_bind_iff.mp analysed)
  · intro enough
    have positive : 0 < bars.length := by omega
    refine (returns_mapError_iff.mpr (returns_readAt_total positive)).bind fun first _ => ?_
    refine (returns_mapError_iff.mpr
      (returns_readAt_total (Nat.sub_lt positive Nat.one_pos))).bind fun last _ => ?_
    refine (returns_mapError_iff.mpr (returns_analyzeColumns fits enough)).bind
      fun signal passes => ?_
    refine (returns_checked passes.confidence).bind fun confidence _ => ?_
    refine (returns_checked passes.entryScore).bind fun entryScore _ => ?_
    refine (returns_checked passes.exitScore).bind fun exitScore _ => ?_
    simp

end Analyze

/-- **The engine analyses a list of at least twenty bars exactly if it has at least 34**: then every
indicator of the default configuration returns, and the analysis yields a signal; on fewer bars the
indicators fail, and with them the analysis. -/
theorem analyze_total_iff (sqrt : ℚ → ℚ) (bars : List MarketBar) (admitted : 20 ≤ bars.length) :
    ((∃ indicators, calcIndicators sqrt {} (priceColumns bars) = .ok indicators) ↔
        34 ≤ bars.length) ∧
      ((∃ signal, analyze sqrt {} (.items (bars.map .bar)) = .ok signal) ↔ 34 ≤ bars.length) := by
  have fits := fits_priceColumns bars
  refine ⟨returns_true_iff.symm.trans ⟨enough_of_returns_calcIndicators fits, fun enough => ?_⟩,
    returns_true_iff.symm.trans (returns_analyze_iff admitted)⟩
  exact (returns_calcIndicators fits enough).mono fun _ _ => trivial

/-- A bar at one price. -/
def flatBar : MarketBar where
  symbol := "AAPL"
  timeframe := .d1
  timestamp := 0
  opening := ⟨70, by norm_num⟩
  high := ⟨70, by norm_num⟩
  low := ⟨70, by norm_num⟩
  close := ⟨70, by norm_num⟩
  volume := NonnegRational.zero
  high_ge_open := le_rfl
  close_ge_low := le_rfl

/-- Thirty-four bars at one price are analysed. -/
theorem analyze_total_flat :
    ∃ signal, analyze Rat.sqrt {} (.items ((List.replicate 34 flatBar).map .bar)) = .ok signal :=
  (analyze_total_iff Rat.sqrt (List.replicate 34 flatBar) (by decide)).2.mpr (by decide)

/-- Twenty bars have no place for the seed of the directional index, and 27 none for that of the
signal line. -/
theorem analyze_fails_on_admitted_bars :
    analyze Rat.sqrt {} (.items ((List.replicate 20 flatBar).map .bar)) =
        .error (.array (.index 26 20)) ∧
      analyze Rat.sqrt {} (.items ((List.replicate 27 flatBar).map .bar)) =
        .error (.array (.index 8 2)) :=
  ⟨rfl, rfl⟩

end TradeOS.Technical
