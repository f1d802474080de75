import TradeOS.Data.Tables
import TradeOS.Technical.Indicators

/-!
# The columns of the indicators as functions

An indicator fills its columns in loops. Here each column is the table of a function of the
place: the value at a place, from the price columns and, for the smoothed ones, from the value
before. The periods are those of the source's signatures, and the public `ema` is the moving
average with its test of the length.

The price columns are read with zero outside of them; the equations hold for columns of the
same length, where nothing outside is read.
-/

set_option autoImplicit false

namespace TradeOS.Technical

open Numeric Numeric.Extended Programs CheckedArray

/-! ## The public moving average -/

/-- `ema`. -/
def trendEma (prices : List ℚ) (period : ℕ) : Except ArrayError Column :=
  if prices.length < period then .ok (nans prices.length) else ema (prices.map fin) period

/-! ## Columns from a place on -/

/-- A column that has numbers from a place on. -/
def fromPlace (place : ℕ) (value : ℕ → ℚ) (i : ℕ) : Extended :=
  if i < place then nan else fin (value i)

theorem nans_eq_table (n : ℕ) : nans n = table n fun _ => nan := replicate_eq_table n nan

theorem table_priceAt (prices : List ℚ) : table prices.length (priceAt prices) = prices :=
  (eq_table prices 0).symm

theorem readAt_eq_priceAt {prices : List ℚ} {i : ℕ} (inside : i < prices.length) :
    readAt prices i = .ok (priceAt prices i) :=
  readAt_eq_getD inside 0

theorem foldl_add_map_fin (xs : List ℚ) (a : ℚ) :
    (xs.map fin).foldl (· + ·) (fin a) = fin (a + xs.sum) := by
  induction xs generalizing a with
  | nil => simp
  | cons x xs ih =>
      rw [List.map_cons, List.foldl_cons, fin_add, ih, List.sum_cons, add_assoc]

theorem columnMean_map_fin {xs : List ℚ} (nonempty : xs ≠ []) :
    columnMean (xs.map fin) = fin (average xs) := by
  have count : (xs.length : ℚ) ≠ 0 := by simpa using nonempty
  rw [columnMean, foldl_add_map_fin, zero_add, List.length_map, fin_div count, average]

/-- A recurrence of numbers, in a column that has none before its place. -/
theorem recurrence_eq_fromPlace {n place : ℕ} {old : ℕ → Extended} {seed : ℚ}
    {step : ℕ → Extended → Except ArrayError Extended} (next : ℕ → ℚ → ℚ) (inside : place < n)
    (empty : ∀ i < place, old i = nan)
    (stepped : ∀ i last, place < i → i < n → step i (fin last) = .ok (fin (next i last))) :
    recurrence (table n old) place (fin seed) step =
      .ok (table n (fromPlace place (valueFrom place seed next))) := by
  rw [recurrence_eq_valueFrom next inside stepped]
  refine congrArg Except.ok (table_congr fun i _ => ?_)
  by_cases before : i < place
  · rw [if_pos before, fromPlace, if_pos before, empty i before]
  · rw [if_neg before, fromPlace, if_neg before]

section Smoothed

variable {period : ℕ}

/-- Wilder's average of two numbers. -/
def wilderStep (period : ℕ) (last value : ℚ) : ℚ := (last * (period - 1) + value) / period

theorem wilder_fin (positive : 0 < period) (last value : ℚ) :
    wilder period (fin last) (fin value) = fin (wilderStep period last value) := by
  have nonzero : (period : ℚ) ≠ 0 := Nat.cast_ne_zero.mpr positive.ne'
  rw [wilder, fin_mul, fin_add, fin_div nonzero, wilderStep]

end Smoothed

/-! ## Moving averages -/

section Averages

variable {prices : List ℚ} {period : ℕ}

/-- The values of `sma`. -/
def smaAt (prices : List ℚ) (period i : ℕ) : ℚ := average (window prices period i)

theorem sma_eq_table (enough : period ≤ prices.length) :
    sma prices period =
      .ok (table prices.length (fromPlace (period - 1) (smaAt prices period))) := by
  rw [sma, if_neg (not_lt.mpr enough), nans_eq_table]
  refine fill_eq_table _ (fun i before => if_pos before) fun i after _ => ?_
  rw [fromPlace, if_neg (not_lt.mpr after), smaAt]

/-- The values of `ema` from its seed on. -/
def emaAt (prices : List ℚ) (period : ℕ) : ℕ → ℚ :=
  valueFrom (period - 1) (average (prices.take period)) fun i last =>
    (priceAt prices i - last) * (2 / (period + 1)) + last

theorem trendEma_eq_table (positive : 0 < period) (enough : period ≤ prices.length) :
    trendEma prices period =
      .ok (table prices.length (fromPlace (period - 1) (emaAt prices period))) := by
  have first : (prices.take period).length = period := List.length_take_of_le enough
  have seed : columnMean ((prices.map fin).take period) = fin (average (prices.take period)) := by
    rw [← List.map_take]
    refine columnMean_map_fin ?_
    rw [← List.length_pos_iff, first]
    exact positive
  have size : min (period - 1) prices.length + (prices.length - (period - 1)) = prices.length := by
    omega
  have begins : nans (min (period - 1) prices.length) ++
      List.replicate (prices.length - (period - 1)) (fin 0) =
        table prices.length fun i => if i < min (period - 1) prices.length then nan else fin 0 := by
    rw [nans, table_append_const, size]
  simp only [trendEma, if_neg (not_lt.mpr enough), ema, List.length_map, begins, seed]
  refine recurrence_eq_fromPlace _ (by omega) (fun i before => if_pos (by omega)) ?_
  intro i last _ inside
  have price : (prices.map fin).getD i nan = fin (priceAt prices i) := by
    simp [priceAt, inside]
  rw [readAt_eq_getD (by rwa [List.length_map]) nan, price]
  show Except.ok _ = _
  rw [fin_sub, fin_mul, fin_add]

end Averages

/-! ## Average directional index -/

section Adx

variable {high low close : List ℚ} {period n : ℕ}

/-- The true range of a bar. -/
def trueRangeAt (high low close : List ℚ) (i : ℕ) : ℚ :=
  if i = 0 then priceAt high 0 - priceAt low 0
  else max (max (priceAt high i - priceAt low i) |priceAt high i - priceAt close (i - 1)|)
    |priceAt low i - priceAt close (i - 1)|

theorem trueRange_eq_table (highs : high.length = close.length) (lows : low.length = close.length)
    (nonempty : 0 < close.length) :
    trueRange high low close = .ok (table close.length (trueRangeAt high low close)) := by
  rw [trueRange, readAt_eq_priceAt (by omega), replicate_eq_table]
  show (readAt low 0 >>= _) = _
  rw [readAt_eq_priceAt (by omega)]
  show (writeAt _ 0 _ >>= _) = _
  rw [writeAt_table nonempty]
  refine fill_eq_table _ (fun i before => ?_) fun i after inside => ?_
  · obtain rfl : i = 0 := by omega
    rw [Function.update_self]
    rfl
  · rw [readAt_eq_priceAt (by omega), readAt_eq_priceAt (by omega),
      readAt_eq_priceAt (by omega), trueRangeAt, if_neg (by omega)]
    rfl

/-- The directional movement of a bar, up or down. -/
def movementAt (upward : Bool) (high low : List ℚ) (i : ℕ) : ℚ :=
  if i = 0 then 0
  else
    let upMove := priceAt high i - priceAt high (i - 1)
    let downMove := priceAt low (i - 1) - priceAt low i
    if upward then prevailing upMove downMove else prevailing downMove upMove

theorem directionalMovement_eq_table (upward : Bool) (lows : low.length = high.length) :
    directionalMovement upward high low = .ok (table high.length (movementAt upward high low)) := by
  rw [directionalMovement, replicate_eq_table]
  refine fill_eq_table _ (fun i before => if_pos (by omega)) fun i after inside => ?_
  rw [readAt_eq_priceAt (by omega), readAt_eq_priceAt (by omega), readAt_eq_priceAt (by omega),
    readAt_eq_priceAt (by omega), movementAt, if_neg (by omega)]
  rfl

/-- Wilder's running sum from its seed on. -/
def sumAt (period : ℕ) (value : ℕ → ℚ) : ℕ → ℚ :=
  valueFrom (period - 1) (table period value).sum fun i last => last - last / period + value i

theorem smoothedSum_eq_table (positive : 0 < period) (enough : period ≤ n) (value : ℕ → ℚ) :
    smoothedSum period (table n value) =
      .ok (table n (fromPlace (period - 1) (sumAt period value))) := by
  have nonzero : (period : ℚ) ≠ 0 := Nat.cast_ne_zero.mpr positive.ne'
  rw [smoothedSum, length_table, take_table, min_eq_left enough, nans_eq_table]
  refine recurrence_eq_fromPlace _ (by omega) (fun _ _ => rfl) fun i last _ inside => ?_
  rw [readAt_table inside]
  show Except.ok _ = _
  rw [fin_div nonzero, fin_sub, fin_add]

/-- A value in percent of another one, from a place on, and zero before. -/
def percentFrom (place : ℕ) (part whole : ℕ → ℚ) (i : ℕ) : ℚ :=
  if i < place then 0 else if 0 < whole i then 100 * part i / whole i else 0

theorem percentOf_fromPlace (n place : ℕ) (part whole : ℕ → ℚ) :
    percentOf (table n (fromPlace place part)) (table n (fromPlace place whole)) =
      table n fun i => fin (percentFrom place part whole i) := by
  rw [percentOf, zipWith_table]
  refine table_congr fun i _ => ?_
  by_cases before : i < place
  · rw [fromPlace, fromPlace, percentFrom, if_pos before, if_pos before, if_pos before]
    rfl
  · rw [fromPlace, fromPlace, percentFrom, if_neg before, if_neg before, if_neg before, lt_fin]
    by_cases above : 0 < whole i
    · rw [if_pos (decide_eq_true above), if_pos above, fin_mul, fin_div above.ne']
    · rw [if_neg (by simpa using above), if_neg above]

/-- The directional indicator of a bar, up or down. -/
def diAt (upward : Bool) (period : ℕ) (high low close : List ℚ) : ℕ → ℚ :=
  percentFrom (period - 1) (sumAt period (movementAt upward high low))
    (sumAt period (trueRangeAt high low close))

theorem directionalColumns_eq_table (highs : high.length = close.length)
    (lows : low.length = close.length) (positive : 0 < period) (enough : period ≤ close.length) :
    directionalColumns high low close period =
      .ok (table close.length fun i => fin (diAt true period high low close i),
        table close.length fun i => fin (diAt false period high low close i)) := by
  rw [directionalColumns, trueRange_eq_table highs lows (by omega),
    directionalMovement_eq_table true (by omega), directionalMovement_eq_table false (by omega),
    highs]
  show (smoothedSum period _ >>= _) = _
  rw [smoothedSum_eq_table positive enough, smoothedSum_eq_table positive enough,
    smoothedSum_eq_table positive enough]
  show Except.ok _ = _
  rw [percentOf_fromPlace, percentOf_fromPlace]
  rfl

/-- The directional index of two directional indicators. -/
def dxAt (plus minus : ℕ → ℚ) : ℕ → ℚ :=
  percentFrom 0 (fun i => |plus i - minus i|) fun i => plus i + minus i

theorem directionalIndex_eq_table (n : ℕ) (plus minus : ℕ → ℚ) :
    directionalIndex (table n fun i => fin (plus i)) (table n fun i => fin (minus i)) =
      table n fun i => fin (dxAt plus minus i) := by
  rw [directionalIndex, zipWith_table, zipWith_table, dxAt, ← percentOf_fromPlace]
  congr 2
  funext i
  rw [fin_sub]
  rfl

/-- The smoothed directional index from its seed on. -/
def adxAt (period : ℕ) (dx : ℕ → ℚ) : ℕ → ℚ :=
  valueFrom (2 * period - 2) (average ((table (2 * period - 1) dx).drop (period - 1)))
    fun i last => wilderStep period last (dx i)

theorem smoothedIndex_eq_table (positive : 0 < period) (enough : 2 * period - 2 < n)
    (dx : ℕ → ℚ) :
    smoothedIndex period (table n fun i => fin (dx i)) =
      .ok (table n (fromPlace (2 * period - 2) (adxAt period dx))) := by
  have seeds : slice (table n fun i => fin (dx i)) (period - 1) (2 * period - 1) =
      ((table (2 * period - 1) dx).drop (period - 1)).map fin := by
    rw [slice, take_table, min_eq_left (by omega), drop_table, drop_table, map_table]
  have several : (table (2 * period - 1) dx).drop (period - 1) ≠ [] := by
    rw [← List.length_pos_iff, List.length_drop, length_table]
    omega
  rw [smoothedIndex, length_table, seeds, columnMean_map_fin several, nans_eq_table]
  refine recurrence_eq_fromPlace _ enough (fun _ _ => rfl) fun i last _ inside => ?_
  rw [readAt_table inside]
  exact congrArg Except.ok (wilder_fin positive last (dx i))

/-- The directional index of the bars. -/
def indexAt (period : ℕ) (high low close : List ℚ) : ℕ → ℚ :=
  dxAt (diAt true period high low close) (diAt false period high low close)

theorem adx_eq_table (highs : high.length = close.length) (lows : low.length = close.length)
    (positive : 0 < period) (long : period + 1 ≤ close.length)
    (enough : 2 * period - 2 < close.length) :
    adx high low close period =
      .ok { adx := table close.length
              (fromPlace (2 * period - 2) (adxAt period (indexAt period high low close)))
            plusDi := table close.length fun i => fin (diAt true period high low close i)
            minusDi := table close.length fun i => fin (diAt false period high low close i) } := by
  simp only [adx, highs, if_neg (not_lt.mpr long)]
  rw [directionalColumns_eq_table highs lows positive (by omega)]
  show (smoothedIndex period (directionalIndex _ _) >>= _) = _
  rw [directionalIndex_eq_table, smoothedIndex_eq_table positive enough]
  rfl

/-- A computed index has a place for its seed. -/
theorem seed_lt_of_adx (highs : high.length = close.length) (lows : low.length = close.length)
    (positive : 0 < period) (long : period + 1 ≤ close.length) {data : AdxData}
    (made : adx high low close period = .ok data) : 2 * period - 2 < close.length := by
  have returns : Returns (adx high low close period) fun _ => True := ⟨data, made, trivial⟩
  simp only [adx, highs, if_neg (not_lt.mpr long)] at returns
  rw [directionalColumns_eq_table highs lows positive (by omega), returns_bind_iff,
    returns_ok_iff, directionalIndex_eq_table, returns_bind_iff] at returns
  have inside := place_lt_of_returns returns
  rwa [length_nans, length_table] at inside

end Adx

/-! ## Relative strength -/

section Strength

variable {prices : List ℚ} {period n : ℕ}

/-- The change from a bar to the next one. -/
def deltaAt (prices : List ℚ) (i : ℕ) : ℚ := priceAt prices (i + 1) - priceAt prices i

/-- The gain of a change. -/
def gainOf (delta : ℚ) : ℚ := if 0 < delta then delta else 0

/-- The loss of a change. -/
def lossOf (delta : ℚ) : ℚ := if delta < 0 then -delta else 0

theorem deltas_eq_table (prices : List ℚ) :
    List.zipWith (fun next last => next - last) prices.tail prices =
      table (prices.length - 1) (deltaAt prices) := by
  refine List.ext_getElem (by simp) fun i inside _ => ?_
  have within : i + 1 < prices.length := by
    simp only [List.length_zipWith, List.length_tail] at inside
    omega
  have here : i < prices.length := by omega
  simp [table, deltaAt, priceAt, within, here]

/-- Wilder's running mean of changes from its seed on. -/
def changeAt (period : ℕ) (change : ℕ → ℚ) : ℕ → ℚ :=
  valueFrom period (average (table period change)) fun i last =>
    wilderStep period last (change (i - 1))

theorem smoothedChange_eq_table (positive : 0 < period) (enough : period < n) (change : ℕ → ℚ) :
    smoothedChange period n (table (n - 1) change) =
      .ok (table n (fromPlace period (changeAt period change))) := by
  rw [smoothedChange, take_table, min_eq_left (by omega), nans_eq_table]
  refine recurrence_eq_fromPlace _ enough (fun _ _ => rfl) fun i last after inside => ?_
  rw [readAt_table (by omega)]
  exact congrArg Except.ok (wilder_fin positive last _)

/-- The index of an average gain and an average loss. -/
def strengthOf (gain loss : ℚ) : Extended :=
  fin 100 - fin 100 /
    (fin 1 + fin gain / if fin loss = fin 0 then fin (1 / 10 ^ 10) else fin loss)

/-- The values of `rsi`. -/
def rsiAt (prices : List ℚ) (period i : ℕ) : Extended :=
  if i < period then nan
  else strengthOf (changeAt period (fun i => gainOf (deltaAt prices i)) i)
    (changeAt period (fun i => lossOf (deltaAt prices i)) i)

theorem rsi_eq_table (positive : 0 < period) (long : period + 1 ≤ prices.length) :
    rsi prices period = .ok (table prices.length (rsiAt prices period)) := by
  simp only [rsi, if_neg (not_lt.mpr long), deltas_eq_table, map_table]
  rw [smoothedChange_eq_table positive long, smoothedChange_eq_table positive long]
  show writeFrom (nans prices.length) period _ = _
  rw [drop_table, drop_table, zipWith_table, map_table, nans_eq_table,
    writeFrom_table (by omega)]
  refine congrArg Except.ok (table_congr fun i _ => ?_)
  by_cases before : i < period
  · rw [if_pos before, rsiAt, if_pos before]
  · rw [if_neg before, rsiAt, if_neg before, Nat.add_sub_cancel' (not_lt.mp before), fromPlace,
      fromPlace, if_neg before, if_neg before]
    rfl

end Strength

/-! ## Stochastic oscillator -/

section Oscillator

variable {high low close : List ℚ} {n start period : ℕ}

/-- The smallest of some values. -/
def leastOf (xs : List ℚ) : ℚ := xs.tail.foldl min (xs.headD 0)

/-- The largest of some values. -/
def greatestOf (xs : List ℚ) : ℚ := xs.tail.foldl max (xs.headD 0)

theorem smallest_eq {xs : List ℚ} (nonempty : xs ≠ []) : smallest xs = .ok (leastOf xs) := by
  cases xs with
  | nil => exact absurd rfl nonempty
  | cons x xs => rfl

theorem largest_eq {xs : List ℚ} (nonempty : xs ≠ []) : largest xs = .ok (greatestOf xs) := by
  cases xs with
  | nil => exact absurd rfl nonempty
  | cons x xs => rfl

/-- The raw stochastic value of a bar. -/
def stochasticAt (n : ℕ) (high low close : List ℚ) (i : ℕ) : ℚ :=
  let lowest := leastOf (window low n i)
  let highest := greatestOf (window high n i)
  if highest = lowest then 50 else 100 * (priceAt close i - lowest) / (highest - lowest)

theorem rawStochastic_eq_table (highs : high.length = close.length)
    (lows : low.length = close.length) (positive : 0 < n) :
    rawStochastic high low close n =
      .ok (table close.length (fromPlace (n - 1) (stochasticAt n high low close))) := by
  rw [rawStochastic, nans_eq_table]
  refine fill_eq_table _ (fun i before => if_pos before) fun i after inside => ?_
  rw [smallest_eq (window_ne_nil positive (by omega)),
    largest_eq (window_ne_nil positive (by omega)), fromPlace, if_neg (not_lt.mpr after),
    stochasticAt]
  show (if _ then _ else _) = _
  split
  · rfl
  · rw [readAt_eq_priceAt inside]
    rfl

/-- A line of the oscillator from its place on. -/
def lineAt (start period : ℕ) (value : ℕ → ℚ) : ℕ → ℚ :=
  valueFrom start 50 fun i last => wilderStep period last (value i)

theorem stochasticLine_eq_table (positive : 0 < period) (enough : start < n) (value : ℕ → ℚ) :
    stochasticLine start period (table n (fromPlace start value)) =
      .ok (table n (fromPlace start (lineAt start period value))) := by
  rw [stochasticLine, length_table, nans_eq_table]
  refine recurrence_eq_fromPlace _ enough (fun _ _ => rfl) fun i last after inside => ?_
  rw [readAt_table inside, fromPlace, if_neg (by omega)]
  exact congrArg Except.ok (wilder_fin positive last _)

/-- The K line of the bars. -/
def kAt (n m1 : ℕ) (high low close : List ℚ) : ℕ → ℚ :=
  lineAt (n - 1) m1 (stochasticAt n high low close)

/-- The D line of the bars. -/
def dAt (n m1 m2 : ℕ) (high low close : List ℚ) : ℕ → ℚ :=
  lineAt (n - 1) m2 (kAt n m1 high low close)

/-- The J line of the bars. -/
def jAt (n m1 m2 : ℕ) (high low close : List ℚ) (i : ℕ) : ℚ :=
  3 * kAt n m1 high low close i - 2 * dAt n m1 m2 high low close i

theorem kdjWith_eq_table {m1 m2 : ℕ} (highs : high.length = close.length)
    (lows : low.length = close.length) (positive : 0 < n) (positive1 : 0 < m1)
    (positive2 : 0 < m2) (enough : n ≤ close.length) :
    kdjWith n m1 m2 high low close =
      .ok { k := table close.length (fromPlace (n - 1) (kAt n m1 high low close))
            d := table close.length (fromPlace (n - 1) (dAt n m1 m2 high low close))
            j := table close.length (fromPlace n (jAt n m1 m2 high low close)) } := by
  simp only [kdjWith, if_neg (not_lt.mpr enough)]
  rw [rawStochastic_eq_table highs lows positive]
  show (stochasticLine (n - 1) m1 _ >>= _) = _
  rw [stochasticLine_eq_table positive1 (by omega)]
  show (stochasticLine (n - 1) m2 _ >>= _) = _
  rw [stochasticLine_eq_table positive2 (by omega), nans_eq_table]
  show (fill n _ _ >>= _) = _
  rw [fill_eq_table (fromPlace n (jAt n m1 m2 high low close)) fun i before => if_pos before]
  · rfl
  · intro i after inside
    rw [readAt_table inside, readAt_table inside, fromPlace, fromPlace, fromPlace,
      if_neg (by omega), if_neg (by omega), if_neg (by omega), jAt]
    show Except.ok (fin 3 * fin _ - fin 2 * fin _) = _
    rw [fin_mul, fin_mul, fin_sub]
    rfl

end Oscillator

/-! ## Commodity channel index -/

/-- The values of `cci`, from the typical prices. -/
def cciAt (tp : List ℚ) (period i : ℕ) : ℚ :=
  let md := meanDeviation (window tp period i)
  if 0 < md then (priceAt tp i - average (window tp period i)) / (15 / 1000 * md) else 0

theorem cciWith_eq_table {high low close : List ℚ} {period : ℕ}
    (highs : high.length = close.length) (lows : low.length = close.length)
    (enough : period ≤ close.length) :
    cciWith period high low close =
      .ok (table close.length
        (fromPlace (period - 1) (cciAt (typicalPrices high low close) period))) := by
  have size : (typicalPrices high low close).length = close.length := by
    rw [typicalPrices, List.length_zipWith, List.length_zipWith]
    omega
  simp only [cciWith, if_neg (not_lt.mpr enough)]
  rw [nans_eq_table]
  refine fill_eq_table _ (fun i before => if_pos before) fun i after inside => ?_
  rw [fromPlace, if_neg (not_lt.mpr after), cciAt]
  split
  · rw [readAt_eq_priceAt (by omega)]
    rfl
  · rfl

end TradeOS.Technical
