import TradeOS.Technical.ColumnForms

/-!
# Indicators look back only

An indicator is causal if its values do not change when bars are added: the column of the longer
series begins with the column of the shorter one (`Causal`). A column is the table of a function
of the place, so this is a fact about two functions that agree on the places of the shorter
series, and it follows from what they read: a price, a window that ends at the place, a seed from
the first prices, and the value before.

The series must be long enough to start: shorter ones have a column of NaN, which the first
value of a longer one need not keep.
-/

set_option autoImplicit false

namespace TradeOS.Technical

open Numeric Numeric.Extended CheckedArray

/-- **Added elements do not change the values of a column**, for series of a least length. -/
def Causal {α : Type} (warmUp : ℕ) (indicator : List α → Except ArrayError Column) : Prop :=
  ∀ xs ys column longer, warmUp ≤ xs.length → indicator xs = .ok column →
    indicator (xs ++ ys) = .ok longer → longer.take xs.length = column

/-- An indicator returns columns on a series and on its extension that agree on the series. -/
def Keeps {α : Type} (indicator : List α → Except ArrayError Column) (xs ys : List α) : Prop :=
  ∃ column longer, indicator xs = .ok column ∧ indicator (xs ++ ys) = .ok longer ∧
    longer.take xs.length = column

theorem Causal.keeps {α : Type} {warmUp : ℕ} {indicator : List α → Except ArrayError Column}
    (causal : Causal warmUp indicator) {xs ys : List α} (enough : warmUp ≤ xs.length)
    (made : (indicator xs).isOk = true) (extended : (indicator (xs ++ ys)).isOk = true) :
    Keeps indicator xs ys := by
  cases first : indicator xs with
  | error e => simp [first, Except.isOk, Except.toBool] at made
  | ok column =>
    cases second : indicator (xs ++ ys) with
    | error e => simp [second, Except.isOk, Except.toBool] at extended
    | ok longer => exact ⟨column, longer, first, second, causal xs ys _ _ enough first second⟩

/-- Columns that are tables are causal if their functions agree. -/
theorem causal_of_table {α : Type} {warmUp : ℕ} {indicator : List α → Except ArrayError Column}
    (value : List α → ℕ → Extended)
    (computed : ∀ xs column, warmUp ≤ xs.length → indicator xs = .ok column →
      column = table xs.length (value xs))
    (agree : ∀ xs ys i, warmUp ≤ xs.length → i < xs.length →
      value (xs ++ ys) i = value xs i) : Causal warmUp indicator := by
  intro xs ys column longer enough made madeLonger
  have grown : warmUp ≤ (xs ++ ys).length := by
    rw [List.length_append]
    omega
  rw [computed xs column enough made, computed (xs ++ ys) longer grown madeLonger]
  refine take_table_of_agree ?_ fun i inside => agree xs ys i enough inside
  rw [List.length_append]
  omega

theorem fromPlace_congr {place i : ℕ} {value value' : ℕ → ℚ} (same : value i = value' i) :
    fromPlace place value i = fromPlace place value' i := by
  rw [fromPlace, fromPlace, same]

/-! ## What is read of a series -/

section Reads

variable {xs : List ℚ} {i : ℕ} (ys : List ℚ)

theorem priceAt_append (inside : i < xs.length) : priceAt (xs ++ ys) i = priceAt xs i :=
  List.getD_append xs ys 0 i inside

theorem take_append_of_le {k : ℕ} (within : k ≤ xs.length) : (xs ++ ys).take k = xs.take k :=
  List.take_append_of_le_length within

theorem window_append (period : ℕ) (inside : i < xs.length) :
    window (xs ++ ys) period i = window xs period i := by
  rw [window, window, slice, slice, take_append_of_le ys inside]

end Reads

/-! ## Series of prices -/

section Prices

variable {period : ℕ}

theorem causal_sma (period : ℕ) : Causal period fun prices => sma prices period := by
  refine causal_of_table (fun prices => fromPlace (period - 1) (smaAt prices period)) ?_ ?_
  · intro xs column enough made
    exact Except.ok.inj (made.symm.trans (sma_eq_table enough))
  · intro xs ys i enough inside
    refine fromPlace_congr ?_
    rw [smaAt, smaAt, window_append ys period inside]

theorem causal_trendEma (positive : 0 < period) :
    Causal period fun prices => trendEma prices period := by
  refine causal_of_table (fun prices => fromPlace (period - 1) (emaAt prices period)) ?_ ?_
  · intro xs column enough made
    exact Except.ok.inj (made.symm.trans (trendEma_eq_table positive enough))
  · intro xs ys i enough inside
    refine fromPlace_congr ?_
    rw [emaAt, emaAt, take_append_of_le ys enough]
    refine valueFrom_congr fun j _ upTo => ?_
    funext last
    rw [priceAt_append ys (by omega)]

theorem deltaAt_append {xs : List ℚ} {i : ℕ} (ys : List ℚ) (inside : i + 1 < xs.length) :
    deltaAt (xs ++ ys) i = deltaAt xs i := by
  rw [deltaAt, deltaAt, priceAt_append ys inside, priceAt_append ys (by omega)]

/-- A running mean of changes reads the changes before its place. -/
theorem changeAt_congr {change change' : ℕ → ℚ} {i : ℕ} (after : period ≤ i)
    (same : ∀ j < i, change j = change' j) :
    changeAt period change i = changeAt period change' i := by
  have seeds : table period change = table period change' :=
    table_congr fun j before => same j (by omega)
  rw [changeAt, changeAt, seeds]
  refine valueFrom_congr fun j later upTo => ?_
  rw [same (j - 1) (by omega)]

theorem causal_rsi (positive : 0 < period) :
    Causal (period + 1) fun prices => rsi prices period := by
  refine causal_of_table (fun prices => rsiAt prices period) ?_ ?_
  · intro xs column enough made
    exact Except.ok.inj (made.symm.trans (rsi_eq_table positive enough))
  · intro xs ys i enough inside
    have deltas (j : ℕ) (before : j < i) : deltaAt (xs ++ ys) j = deltaAt xs j :=
      deltaAt_append ys (by omega)
    by_cases early : i < period
    · rw [rsiAt, rsiAt, if_pos early, if_pos early]
    · rw [rsiAt, rsiAt, if_neg early, if_neg early]
      congr 1
      · exact changeAt_congr (not_lt.mp early) fun j before => by rw [deltas j before]
      · exact changeAt_congr (not_lt.mp early) fun j before => by rw [deltas j before]

end Prices

/-! ## Series of bars -/

/-- The prices of a bar that the indicators read. -/
structure PriceBar where
  high : ℚ
  low : ℚ
  close : ℚ

/-- The columns of a series of bars. -/
def highsOf (bars : List PriceBar) : List ℚ := bars.map PriceBar.high

def lowsOf (bars : List PriceBar) : List ℚ := bars.map PriceBar.low

def closesOf (bars : List PriceBar) : List ℚ := bars.map PriceBar.close

/-- `kdj` of a series of bars. -/
def kdjOfBars (n m1 m2 : ℕ) (bars : List PriceBar) : Except ArrayError KdjData :=
  kdjWith n m1 m2 (highsOf bars) (lowsOf bars) (closesOf bars)

/-- `cci` of a series of bars. -/
def cciOfBars (period : ℕ) (bars : List PriceBar) : Except ArrayError Column :=
  cciWith period (highsOf bars) (lowsOf bars) (closesOf bars)

/-- `adx` of a series of bars. -/
def adxOfBars (period : ℕ) (bars : List PriceBar) : Except ArrayError AdxData :=
  adx (highsOf bars) (lowsOf bars) (closesOf bars) period

section Bars

variable {bars : List PriceBar} {period i : ℕ}

@[simp] theorem length_highsOf (bars : List PriceBar) : (highsOf bars).length = bars.length :=
  List.length_map _

@[simp] theorem length_lowsOf (bars : List PriceBar) : (lowsOf bars).length = bars.length :=
  List.length_map _

@[simp] theorem length_closesOf (bars : List PriceBar) : (closesOf bars).length = bars.length :=
  List.length_map _

@[simp] theorem highsOf_append (bars later : List PriceBar) :
    highsOf (bars ++ later) = highsOf bars ++ highsOf later :=
  List.map_append

@[simp] theorem lowsOf_append (bars later : List PriceBar) :
    lowsOf (bars ++ later) = lowsOf bars ++ lowsOf later :=
  List.map_append

@[simp] theorem closesOf_append (bars later : List PriceBar) :
    closesOf (bars ++ later) = closesOf bars ++ closesOf later :=
  List.map_append

theorem sameHighs (bars : List PriceBar) : (highsOf bars).length = (closesOf bars).length := by
  simp

theorem sameLows (bars : List PriceBar) : (lowsOf bars).length = (closesOf bars).length := by
  simp

/-- A column of a result with several ones. -/
theorem causal_of_part {δ : Type} {warmUp : ℕ} {indicator : List PriceBar → Except ArrayError δ}
    {value : List PriceBar → ℕ → Extended} (part : δ → Column)
    (computed : ∀ bars data, warmUp ≤ bars.length → indicator bars = .ok data →
      part data = table bars.length (value bars))
    (agree : ∀ bars later i, warmUp ≤ bars.length → i < bars.length →
      value (bars ++ later) i = value bars i) :
    Causal warmUp fun bars => (indicator bars).map part := by
  refine causal_of_table value (fun bars column enough mapped => ?_) agree
  cases made : indicator bars with
  | error e =>
      rw [made] at mapped
      cases mapped
  | ok data =>
      rw [made] at mapped
      rw [← Except.ok.inj mapped, computed bars data enough made]

/-! ### Stochastic oscillator -/

theorem stochasticAt_append (n : ℕ) (bars later : List PriceBar) (inside : i < bars.length) :
    stochasticAt n (highsOf (bars ++ later)) (lowsOf (bars ++ later)) (closesOf (bars ++ later)) i =
      stochasticAt n (highsOf bars) (lowsOf bars) (closesOf bars) i := by
  rw [highsOf_append, lowsOf_append, closesOf_append, stochasticAt, stochasticAt,
    window_append _ n (by simpa using inside), window_append _ n (by simpa using inside),
    priceAt_append _ (by simpa using inside)]

theorem lineAt_congr {start : ℕ} {value value' : ℕ → ℚ} (same : ∀ j ≤ i, value j = value' j) :
    lineAt start period value i = lineAt start period value' i := by
  refine valueFrom_congr fun j _ upTo => ?_
  rw [same j upTo]

theorem kAt_append (n m1 : ℕ) (bars later : List PriceBar) (inside : i < bars.length) :
    kAt n m1 (highsOf (bars ++ later)) (lowsOf (bars ++ later)) (closesOf (bars ++ later)) i =
      kAt n m1 (highsOf bars) (lowsOf bars) (closesOf bars) i :=
  lineAt_congr fun _ upTo => stochasticAt_append n bars later (upTo.trans_lt inside)

theorem dAt_append (n m1 m2 : ℕ) (bars later : List PriceBar) (inside : i < bars.length) :
    dAt n m1 m2 (highsOf (bars ++ later)) (lowsOf (bars ++ later)) (closesOf (bars ++ later)) i =
      dAt n m1 m2 (highsOf bars) (lowsOf bars) (closesOf bars) i :=
  lineAt_congr fun _ upTo => kAt_append n m1 bars later (upTo.trans_lt inside)

/-- The computed lines of a series that is long enough. -/
theorem kdjOfBars_eq {n m1 m2 : ℕ} (positive : 0 < n) (positive1 : 0 < m1) (positive2 : 0 < m2)
    (enough : n ≤ bars.length) {data : KdjData} (made : kdjOfBars n m1 m2 bars = .ok data) :
    data =
      { k := table bars.length
          (fromPlace (n - 1) (kAt n m1 (highsOf bars) (lowsOf bars) (closesOf bars)))
        d := table bars.length
          (fromPlace (n - 1) (dAt n m1 m2 (highsOf bars) (lowsOf bars) (closesOf bars)))
        j := table bars.length
          (fromPlace n (jAt n m1 m2 (highsOf bars) (lowsOf bars) (closesOf bars))) } := by
  have form := kdjWith_eq_table (sameHighs bars) (sameLows bars) positive positive1 positive2
    (by rwa [length_closesOf])
  rw [length_closesOf] at form
  exact Except.ok.inj (made.symm.trans form)

theorem causal_kdj {n m1 m2 : ℕ} (positive : 0 < n) (positive1 : 0 < m1) (positive2 : 0 < m2) :
    Causal n (fun bars => (kdjOfBars n m1 m2 bars).map KdjData.k) ∧
      Causal n (fun bars => (kdjOfBars n m1 m2 bars).map KdjData.d) ∧
      Causal n (fun bars => (kdjOfBars n m1 m2 bars).map KdjData.j) := by
  refine ⟨causal_of_part KdjData.k (fun bars data enough made =>
      congrArg KdjData.k (kdjOfBars_eq positive positive1 positive2 enough made)) ?_,
    causal_of_part KdjData.d (fun bars data enough made =>
      congrArg KdjData.d (kdjOfBars_eq positive positive1 positive2 enough made)) ?_,
    causal_of_part KdjData.j (fun bars data enough made =>
      congrArg KdjData.j (kdjOfBars_eq positive positive1 positive2 enough made)) ?_⟩
  · exact fun bars later i _ inside => fromPlace_congr (kAt_append n m1 bars later inside)
  · exact fun bars later i _ inside => fromPlace_congr (dAt_append n m1 m2 bars later inside)
  · intro bars later i _ inside
    refine fromPlace_congr ?_
    rw [jAt, jAt, kAt_append n m1 bars later inside, dAt_append n m1 m2 bars later inside]

/-! ### Commodity channel index -/

theorem typicalPrices_append (bars later : List PriceBar) :
    typicalPrices (highsOf (bars ++ later)) (lowsOf (bars ++ later)) (closesOf (bars ++ later)) =
      typicalPrices (highsOf bars) (lowsOf bars) (closesOf bars) ++
        typicalPrices (highsOf later) (lowsOf later) (closesOf later) := by
  rw [highsOf_append, lowsOf_append, closesOf_append, typicalPrices, typicalPrices, typicalPrices,
    List.zipWith_append (by simp), List.zipWith_append (by simp)]

theorem length_typicalPrices (bars : List PriceBar) :
    (typicalPrices (highsOf bars) (lowsOf bars) (closesOf bars)).length = bars.length := by
  simp [typicalPrices]

theorem causal_cci (period : ℕ) : Causal period (cciOfBars period) := by
  refine causal_of_table (fun bars => fromPlace (period - 1)
    (cciAt (typicalPrices (highsOf bars) (lowsOf bars) (closesOf bars)) period)) ?_ ?_
  · intro bars column enough made
    have form := cciWith_eq_table (sameHighs bars) (sameLows bars)
      (show period ≤ (closesOf bars).length by rwa [length_closesOf])
    rw [length_closesOf] at form
    exact Except.ok.inj (made.symm.trans form)
  · intro bars later i enough inside
    have within := inside
    rw [← length_typicalPrices] at within
    refine fromPlace_congr ?_
    rw [typicalPrices_append, cciAt, cciAt, window_append _ period within,
      priceAt_append _ within]

/-! ### Average directional index -/

theorem trueRangeAt_append (bars later : List PriceBar) (inside : i < bars.length) :
    trueRangeAt (highsOf (bars ++ later)) (lowsOf (bars ++ later)) (closesOf (bars ++ later)) i =
      trueRangeAt (highsOf bars) (lowsOf bars) (closesOf bars) i := by
  have first : 0 < bars.length := by omega
  have before : i - 1 < bars.length := by omega
  rw [highsOf_append, lowsOf_append, closesOf_append, trueRangeAt, trueRangeAt,
    priceAt_append _ (by simpa using first), priceAt_append _ (by simpa using first),
    priceAt_append _ (by simpa using inside), priceAt_append _ (by simpa using inside),
    priceAt_append _ (by simpa using before)]

theorem movementAt_append (upward : Bool) (bars later : List PriceBar)
    (inside : i < bars.length) :
    movementAt upward (highsOf (bars ++ later)) (lowsOf (bars ++ later)) i =
      movementAt upward (highsOf bars) (lowsOf bars) i := by
  have before : i - 1 < bars.length := by omega
  rw [highsOf_append, lowsOf_append, movementAt, movementAt,
    priceAt_append _ (by simpa using inside), priceAt_append _ (by simpa using before),
    priceAt_append _ (by simpa using before), priceAt_append _ (by simpa using inside)]

/-- A running sum reads its seed and the values up to its place. -/
theorem sumAt_congr {value value' : ℕ → ℚ} (after : period ≤ i + 1)
    (same : ∀ j ≤ i, value j = value' j) : sumAt period value i = sumAt period value' i := by
  have seeds : table period value = table period value' :=
    table_congr fun j before => same j (by omega)
  rw [sumAt, sumAt, seeds]
  refine valueFrom_congr fun j _ upTo => ?_
  rw [same j upTo]

theorem diAt_append (upward : Bool) (period : ℕ) (bars later : List PriceBar)
    (inside : i < bars.length) :
    diAt upward period (highsOf (bars ++ later)) (lowsOf (bars ++ later))
        (closesOf (bars ++ later)) i =
      diAt upward period (highsOf bars) (lowsOf bars) (closesOf bars) i := by
  rw [diAt, diAt, percentFrom, percentFrom]
  by_cases before : i < period - 1
  · rw [if_pos before, if_pos before]
  · rw [sumAt_congr (by omega) fun j upTo =>
        movementAt_append upward bars later (upTo.trans_lt inside),
      sumAt_congr (by omega) fun j upTo => trueRangeAt_append bars later (upTo.trans_lt inside)]

theorem indexAt_append (period : ℕ) (bars later : List PriceBar) (inside : i < bars.length) :
    indexAt period (highsOf (bars ++ later)) (lowsOf (bars ++ later)) (closesOf (bars ++ later)) i =
      indexAt period (highsOf bars) (lowsOf bars) (closesOf bars) i := by
  rw [indexAt, indexAt, dxAt, dxAt, percentFrom, percentFrom,
    diAt_append true period bars later inside, diAt_append false period bars later inside]

/-- The average of the index reads its seed and the values up to its place. -/
theorem adxAt_congr {dx dx' : ℕ → ℚ} (after : 2 * period ≤ i + 2)
    (same : ∀ j ≤ i, dx j = dx' j) : adxAt period dx i = adxAt period dx' i := by
  have seeds : table (2 * period - 1) dx = table (2 * period - 1) dx' :=
    table_congr fun j before => same j (by omega)
  rw [adxAt, adxAt, seeds]
  refine valueFrom_congr fun j _ upTo => ?_
  rw [same j upTo]

/-- The computed columns of a series that is long enough. -/
theorem adxOfBars_eq (positive : 0 < period) (long : period + 1 ≤ bars.length) {data : AdxData}
    (made : adxOfBars period bars = .ok data) :
    data =
      { adx := table bars.length (fromPlace (2 * period - 2)
          (adxAt period (indexAt period (highsOf bars) (lowsOf bars) (closesOf bars))))
        plusDi := table bars.length fun i =>
          fin (diAt true period (highsOf bars) (lowsOf bars) (closesOf bars) i)
        minusDi := table bars.length fun i =>
          fin (diAt false period (highsOf bars) (lowsOf bars) (closesOf bars) i) } := by
  have reached : period + 1 ≤ (closesOf bars).length := by rwa [length_closesOf]
  have form := adx_eq_table (sameHighs bars) (sameLows bars) positive reached
    (seed_lt_of_adx (sameHighs bars) (sameLows bars) positive reached made)
  rw [length_closesOf] at form
  exact Except.ok.inj (made.symm.trans form)

theorem causal_adx (positive : 0 < period) :
    Causal (period + 1) (fun bars => (adxOfBars period bars).map AdxData.adx) ∧
      Causal (period + 1) (fun bars => (adxOfBars period bars).map AdxData.plusDi) ∧
      Causal (period + 1) (fun bars => (adxOfBars period bars).map AdxData.minusDi) := by
  refine ⟨causal_of_part AdxData.adx (fun bars data enough made =>
      congrArg AdxData.adx (adxOfBars_eq positive enough made)) ?_,
    causal_of_part AdxData.plusDi (fun bars data enough made =>
      congrArg AdxData.plusDi (adxOfBars_eq positive enough made)) ?_,
    causal_of_part AdxData.minusDi (fun bars data enough made =>
      congrArg AdxData.minusDi (adxOfBars_eq positive enough made)) ?_⟩
  · intro bars later i _ inside
    by_cases before : i < 2 * period - 2
    · rw [fromPlace, fromPlace, if_pos before, if_pos before]
    · refine fromPlace_congr (adxAt_congr (by omega) fun j upTo => ?_)
      exact indexAt_append period bars later (upTo.trans_lt inside)
  · exact fun bars later i _ inside =>
      congrArg fin (diAt_append true period bars later inside)
  · exact fun bars later i _ inside =>
      congrArg fin (diAt_append false period bars later inside)

end Bars

/-! ## All of them -/

/-- **The indicators are causal**, for every period, from the bars they need to start. -/
theorem indicators_causal (period n m1 m2 : ℕ) (positive : 0 < period) (window : 0 < n)
    (smooth1 : 0 < m1) (smooth2 : 0 < m2) :
    Causal period (fun prices => sma prices period) ∧
      Causal period (fun prices => trendEma prices period) ∧
      Causal (period + 1) (fun prices => rsi prices period) ∧
      (Causal n (fun bars => (kdjOfBars n m1 m2 bars).map KdjData.k) ∧
        Causal n (fun bars => (kdjOfBars n m1 m2 bars).map KdjData.d) ∧
        Causal n (fun bars => (kdjOfBars n m1 m2 bars).map KdjData.j)) ∧
      Causal period (cciOfBars period) ∧
      Causal (period + 1) (fun bars => (adxOfBars period bars).map AdxData.adx) ∧
      Causal (period + 1) (fun bars => (adxOfBars period bars).map AdxData.plusDi) ∧
      Causal (period + 1) (fun bars => (adxOfBars period bars).map AdxData.minusDi) :=
  ⟨causal_sma period, causal_trendEma positive, causal_rsi positive,
    causal_kdj window smooth1 smooth2, causal_cci period, causal_adx positive⟩

/-- Three closes, as bars whose highs and lows are one away, and a bar that is added to them. -/
def threeCloses : List ℚ := [10, 12, 11]

def threeBars : List PriceBar := threeCloses.map fun close => ⟨close + 1, close - 1, close⟩

def addedBar : PriceBar := ⟨21, 19, 20⟩

/-- A fourth bar leaves the values of all indicators on the first three as they are. -/
theorem indicators_causal_sample :
    Keeps (fun prices => sma prices 2) threeCloses [20] ∧
      Keeps (fun prices => trendEma prices 2) threeCloses [20] ∧
      Keeps (fun prices => rsi prices 2) threeCloses [20] ∧
      (Keeps (fun bars => (kdjOfBars 2 3 3 bars).map KdjData.k) threeBars [addedBar] ∧
        Keeps (fun bars => (kdjOfBars 2 3 3 bars).map KdjData.d) threeBars [addedBar] ∧
        Keeps (fun bars => (kdjOfBars 2 3 3 bars).map KdjData.j) threeBars [addedBar]) ∧
      Keeps (cciOfBars 2) threeBars [addedBar] ∧
      Keeps (fun bars => (adxOfBars 2 bars).map AdxData.adx) threeBars [addedBar] ∧
      Keeps (fun bars => (adxOfBars 2 bars).map AdxData.plusDi) threeBars [addedBar] ∧
      Keeps (fun bars => (adxOfBars 2 bars).map AdxData.minusDi) threeBars [addedBar] := by
  obtain ⟨bySma, byEma, byRsi, ⟨byK, byD, byJ⟩, byCci, byAdx, byPlus, byMinus⟩ :=
    indicators_causal 2 2 3 3 (by decide) (by decide) (by decide) (by decide)
  refine ⟨bySma.keeps ?_ ?_ ?_, byEma.keeps ?_ ?_ ?_, byRsi.keeps ?_ ?_ ?_,
    ⟨byK.keeps ?_ ?_ ?_, byD.keeps ?_ ?_ ?_, byJ.keeps ?_ ?_ ?_⟩, byCci.keeps ?_ ?_ ?_,
    byAdx.keeps ?_ ?_ ?_, byPlus.keeps ?_ ?_ ?_, byMinus.keeps ?_ ?_ ?_⟩ <;>
    with_unfolding_all decide

end TradeOS.Technical
