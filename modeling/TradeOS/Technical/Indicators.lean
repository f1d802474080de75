import TradeOS.Data.CheckedArray
import TradeOS.Numeric.Extended

/-!
# The technical indicators

An indicator computes columns from the price columns of the bars. It allocates a column, seeds it at
a place that depends on its periods, and runs over the rest. An access outside a column is an error,
so an indicator returns only if the bars reach its seeds.

Beside each indicator is the lemma that says for how many bars it returns: every one does, short or
long, except `adx` (`returns_adx_iff`) and `macd` (`fits_of_returns_macd`, `returns_macd`).

The square root is a parameter. The directional columns of `adx` are those of its last step, and
what no modelled function calls (the public `ema`, `trend_direction`) is left out.
-/

set_option autoImplicit false

namespace TradeOS.Technical

open Numeric Numeric.Extended Programs CheckedArray

/-- A column of numbers, with NaN where there is no value. -/
abbrev Column := List Extended

/-- `np.full(n, np.nan)`. -/
def nans (n : ℕ) : Column := List.replicate n nan

@[simp] theorem length_nans (n : ℕ) : (nans n).length = n := List.length_replicate

/-- `np.mean` of a column; a NaN makes it NaN. -/
def columnMean (xs : Column) : Extended := xs.foldl (· + ·) (fin 0) / fin xs.length

/-- `np.mean` of numbers. -/
def average (xs : List ℚ) : ℚ := xs.sum / xs.length

/-- A price, zero outside of the column. -/
def priceAt (prices : List ℚ) (i : ℕ) : ℚ := prices.getD i 0

/-- The window of a period that ends at an index. -/
def window (xs : List ℚ) (period i : ℕ) : List ℚ := slice xs (i + 1 - period) (i + 1)

theorem window_ne_nil {xs : List ℚ} {period i : ℕ} (positive : 0 < period)
    (inside : i < xs.length) : window xs period i ≠ [] := by
  apply slice_ne_nil
  · omega
  · omega

/-! ## Moving averages -/

/-- `sma`. -/
def sma (prices : List ℚ) (period : ℕ) : Except ArrayError Column :=
  if prices.length < period then .ok (nans prices.length)
  else fill (period - 1) (fun i _ => .ok (fin (average (window prices period i))))
    (nans prices.length)

theorem returns_sma (prices : List ℚ) (period : ℕ) :
    Returns (sma prices period) fun column => column.length = prices.length := by
  unfold sma
  split
  · simp
  · refine (returns_fill fun i ys _ _ _ => ?_).mono fun column same => ?_
    · simp
    · simpa using same

/-- A column that follows another one: from its seed on, each value is computed from the last one
and an entry of the other column. -/
theorem returns_following {α : Type} {n place : ℕ} {seed : Extended} {values : List α}
    {index : ℕ → ℕ} {next : Extended → α → Extended} (enough : place < n)
    (inside : ∀ i, place < i → i < n → index i < values.length) :
    Returns (recurrence (nans n) place seed fun i last => do
      let value ← readAt values (index i)
      return next last value) fun column => column.length = n := by
  refine (returns_recurrence ?_ fun i last after below => ?_).mono fun column same => ?_
  · simpa using enough
  · rw [length_nans] at below
    exact (returns_readAt_total (inside i after below)).bind fun value _ => by simp
  · simpa using same

/-- A value of Wilder's average: the last one and a new one. -/
def wilder (period : ℕ) (last value : Extended) : Extended :=
  (last * fin (period - 1) + value) / fin period

/-- `_ema`. -/
def ema (prices : Column) (period : ℕ) : Except ArrayError Column :=
  let n := prices.length
  let result := nans (min (period - 1) n) ++ List.replicate (n - (period - 1)) (fin 0)
  recurrence result (period - 1) (columnMean (prices.take period)) fun i last => do
    let price ← readAt prices i
    return (price - last) * fin (2 / (period + 1)) + last

/-- The average needs a value for its seed. -/
theorem le_length_of_returns_ema {prices : Column} {period : ℕ} {p : Column → Prop}
    (returns : Returns (ema prices period) p) : period ≤ prices.length := by
  have inside := place_lt_of_returns returns
  rw [List.length_append, length_nans, List.length_replicate] at inside
  omega

theorem returns_ema {prices : Column} {period : ℕ} (positive : 0 < period)
    (enough : period ≤ prices.length) :
    Returns (ema prices period) fun column => column.length = prices.length := by
  have size : (nans (min (period - 1) prices.length) ++
      List.replicate (prices.length - (period - 1)) (fin 0)).length = prices.length := by
    rw [List.length_append, length_nans, List.length_replicate]
    omega
  refine (returns_recurrence ?_ fun i last _ below => ?_).mono fun column same => same.trans size
  · omega
  · rw [size] at below
    exact (returns_readAt_total below).bind fun price _ => by simp

/-- What an average that was computed says about its column. -/
theorem lengths_of_ema {prices column : Column} {period : ℕ} (positive : 0 < period)
    (made : ema prices period = .ok column) :
    period ≤ prices.length ∧ column.length = prices.length := by
  have enough : period ≤ prices.length :=
    le_length_of_returns_ema (p := fun _ => True) ⟨column, made, trivial⟩
  have returns := returns_ema positive enough
  rw [made, returns_ok_iff] at returns
  exact ⟨enough, returns⟩

/-! ## True range -/

/-- The true range of each bar. -/
def trueRange (high low close : List ℚ) : Except ArrayError (List ℚ) := do
  let h ← readAt high 0
  let l ← readAt low 0
  let first ← writeAt (List.replicate close.length 0) 0 (h - l)
  fill 1 (fun i _ => do
    let h ← readAt high i
    let l ← readAt low i
    let before ← readAt close (i - 1)
    return max (max (h - l) |h - before|) |l - before|) first

section Ranges

variable {high low close : List ℚ} (highs : high.length = close.length)
  (lows : low.length = close.length)

include highs lows

theorem returns_trueRange (nonempty : 0 < close.length) :
    Returns (trueRange high low close) fun tr => tr.length = close.length := by
  refine (returns_readAt_total (highs ▸ nonempty)).bind fun h _ => ?_
  refine (returns_readAt_total (lows ▸ nonempty)).bind fun l _ => ?_
  refine (returns_writeAt (by simpa using nonempty)).bind fun first size => ?_
  rw [List.length_replicate] at size
  refine (returns_fill fun i ys _ below _ => ?_).mono fun tr same => same.trans size
  rw [size] at below
  refine (returns_readAt_total (highs ▸ below)).bind fun h _ => ?_
  refine (returns_readAt_total (lows ▸ below)).bind fun l _ => ?_
  refine (returns_readAt_total (by omega)).bind fun before _ => ?_
  simp

end Ranges

/-! ## Average directional index -/

/-- A move that is larger than the opposite move, or zero. -/
def prevailing (move opposite : ℚ) : ℚ := if opposite < move ∧ 0 < move then move else 0

/-- The directional movement of each bar, up or down. -/
def directionalMovement (upward : Bool) (high low : List ℚ) : Except ArrayError (List ℚ) :=
  fill 1 (fun i _ => do
    let h ← readAt high i
    let h' ← readAt high (i - 1)
    let l' ← readAt low (i - 1)
    let l ← readAt low i
    return if upward then prevailing (h - h') (l' - l) else prevailing (l' - l) (h - h'))
    (List.replicate high.length 0)

theorem returns_directionalMovement {high low : List ℚ} (upward : Bool)
    (lows : low.length = high.length) :
    Returns (directionalMovement upward high low) fun dm => dm.length = high.length := by
  refine (returns_fill fun i ys _ below _ => ?_).mono fun dm same => ?_
  · rw [List.length_replicate] at below
    refine (returns_readAt_total below).bind fun h _ => ?_
    refine (returns_readAt_total (by omega)).bind fun h' _ => ?_
    refine (returns_readAt_total (by omega)).bind fun l' _ => ?_
    refine (returns_readAt_total (by omega)).bind fun l _ => ?_
    simp
  · exact same.trans List.length_replicate

/-- Wilder's running sum of a column. -/
def smoothedSum (period : ℕ) (values : List ℚ) : Except ArrayError Column :=
  recurrence (nans values.length) (period - 1) (fin (values.take period).sum) fun i last => do
    let value ← readAt values i
    return last - last / fin period + fin value

theorem returns_smoothedSum {period : ℕ} {values : List ℚ} (enough : period - 1 < values.length) :
    Returns (smoothedSum period values) fun column => column.length = values.length :=
  returns_following enough fun _ _ below => below

/-- A column in percent of another one, zero where the other one is not positive. -/
def percentOf (xs ys : Column) : Column :=
  List.zipWith (fun x y => if lt (fin 0) y then fin 100 * x / y else fin 0) xs ys

@[simp] theorem length_percentOf (xs ys : Column) :
    (percentOf xs ys).length = min xs.length ys.length := List.length_zipWith

structure AdxData where
  adx : Column
  plusDi : Column
  minusDi : Column

/-- The directional index of two directional columns. -/
def directionalIndex (plusDi minusDi : Column) : Column :=
  percentOf (List.zipWith (fun plus minus => abs (plus - minus)) plusDi minusDi)
    (List.zipWith (· + ·) plusDi minusDi)

/-- The directional index, smoothed: the last step of `adx`. -/
def smoothedIndex (period : ℕ) (dx : Column) : Except ArrayError Column :=
  recurrence (nans dx.length) (2 * period - 2)
    (columnMean (slice dx (period - 1) (2 * period - 1))) fun i last => do
    let value ← readAt dx i
    return wilder period last value

theorem returns_smoothedIndex {period : ℕ} {dx : Column} (enough : 2 * period - 2 < dx.length) :
    Returns (smoothedIndex period dx) fun column => column.length = dx.length :=
  returns_following enough fun _ _ below => below

/-- The directional columns of `adx`. -/
def directionalColumns (high low close : List ℚ) (period : ℕ) :
    Except ArrayError (Column × Column) := do
  let tr ← trueRange high low close
  let plusDm ← directionalMovement true high low
  let minusDm ← directionalMovement false high low
  let atr ← smoothedSum period tr
  let plusDmSmooth ← smoothedSum period plusDm
  let minusDmSmooth ← smoothedSum period minusDm
  return (percentOf plusDmSmooth atr, percentOf minusDmSmooth atr)

/-- `adx`. -/
def adx (high low close : List ℚ) (period : ℕ) : Except ArrayError AdxData :=
  let n := high.length
  if n < period + 1 then .ok ⟨nans n, nans n, nans n⟩
  else do
    let columns ← directionalColumns high low close period
    let smoothed ← smoothedIndex period (directionalIndex columns.1 columns.2)
    return ⟨smoothed, columns.1, columns.2⟩

section Adx

variable {high low close : List ℚ} (highs : high.length = close.length)
  (lows : low.length = close.length)

include highs lows

theorem returns_directionalColumns {period : ℕ} (long : period < close.length) :
    Returns (directionalColumns high low close period) fun columns =>
      columns.1.length = close.length ∧ columns.2.length = close.length := by
  have seeded : period - 1 < close.length := by omega
  refine (returns_trueRange highs lows (by omega)).bind fun tr trLength => ?_
  refine (returns_directionalMovement true (by omega)).bind fun plusDm plusLength => ?_
  refine (returns_directionalMovement false (by omega)).bind fun minusDm minusLength => ?_
  refine (returns_smoothedSum (by omega)).bind fun atr atrLength => ?_
  refine (returns_smoothedSum (by omega)).bind fun plus plusSmooth => ?_
  refine (returns_smoothedSum (by omega)).bind fun minus minusSmooth => ?_
  rw [returns_pure_iff, length_percentOf, length_percentOf]
  omega

/-- `adx` returns for a column that is too short to start, and for one that reaches the seed of its
last step. -/
theorem returns_adx_iff (period : ℕ) :
    (Returns (adx high low close period) fun data => data.adx.length = close.length) ↔
      close.length < period + 1 ∨ 2 * period - 2 < close.length := by
  unfold adx
  by_cases short : high.length < period + 1
  · rw [if_pos short, returns_ok_iff, length_nans]
    exact iff_of_true highs (.inl (highs ▸ short))
  · rw [if_neg short]
    obtain ⟨columns, made, plusLength, minusLength⟩ :=
      returns_directionalColumns highs lows (show period < close.length by omega)
    have size : (directionalIndex columns.1 columns.2).length = close.length := by
      simp only [directionalIndex, length_percentOf, List.length_zipWith]
      omega
    rw [made, returns_bind_iff, returns_ok_iff, returns_bind_iff]
    constructor
    · intro returns
      have inside := place_lt_of_returns returns
      rw [length_nans, size] at inside
      exact .inr inside
    · intro enough
      have reached : 2 * period - 2 < close.length := by omega
      refine (returns_smoothedIndex (size.symm ▸ reached)).mono fun smoothed same => ?_
      exact returns_pure_iff.mpr (same.trans size)

end Adx

/-! ## MACD -/

structure MacdData where
  line : Column
  signal : Column
  histogram : Column

/-- `macd`. -/
def macd (prices : List ℚ) (fast slow signal : ℕ) : Except ArrayError MacdData := do
  let n := prices.length
  let emaFast ← ema (prices.map fin) fast
  let emaSlow ← ema (prices.map fin) slow
  let macdLine := List.zipWith (· - ·) emaFast emaSlow
  let signalLine ← ema (macdLine.drop (slow - 1)) signal
  let signalFull ← writeFrom (nans n) (slow - 1) signalLine
  return ⟨macdLine, signalFull, List.zipWith (· - ·) macdLine signalFull⟩

theorem length_drop_line {emaFast emaSlow : Column} {n : ℕ} (k : ℕ) (fast : emaFast.length = n)
    (slow : emaSlow.length = n) :
    ((List.zipWith (· - ·) emaFast emaSlow).drop k).length = n - k := by
  rw [List.length_drop, List.length_zipWith, fast, slow, min_self]

/-- What a computed MACD says about the prices: they reach the seed of the fast average, and behind
the seed of the slow one that of the signal line. -/
theorem fits_of_returns_macd {prices : List ℚ} {fast slow signal : ℕ} {post : MacdData → Prop}
    (fastPositive : 0 < fast) (slowPositive : 0 < slow)
    (returns : Returns (macd prices fast slow signal) post) :
    fast ≤ prices.length ∧ slow ≤ prices.length ∧ signal ≤ prices.length - (slow - 1) := by
  have size : (prices.map fin).length = prices.length := List.length_map fin
  obtain ⟨emaFast, fastMade, returns⟩ := returns_bind_iff.mp returns
  obtain ⟨emaSlow, slowMade, returns⟩ := returns_bind_iff.mp returns
  obtain ⟨fastFits, fastLength⟩ := lengths_of_ema fastPositive fastMade
  obtain ⟨slowFits, slowLength⟩ := lengths_of_ema slowPositive slowMade
  have signalFits := le_length_of_returns_ema (returns_bind_iff.mp returns)
  rw [length_drop_line _ (fastLength.trans size) (slowLength.trans size)] at signalFits
  exact ⟨size ▸ fastFits, size ▸ slowFits, signalFits⟩

theorem returns_macd {prices : List ℚ} {fast slow signal : ℕ} (fastPositive : 0 < fast)
    (slowPositive : 0 < slow) (signalPositive : 0 < signal) (fastFits : fast ≤ prices.length)
    (signalFits : slow + signal ≤ prices.length + 1) :
    Returns (macd prices fast slow signal) fun data => data.histogram.length = prices.length := by
  have size : (prices.map fin).length = prices.length := List.length_map fin
  refine (returns_ema fastPositive (by omega)).bind fun emaFast fastLength => ?_
  refine (returns_ema slowPositive (by omega)).bind fun emaSlow slowLength => ?_
  have rest := length_drop_line (slow - 1) (fastLength.trans size) (slowLength.trans size)
  refine (returns_ema signalPositive (by omega)).bind fun signalLine signalLength => ?_
  refine (returns_writeFrom ?_ ?_).bind fun signalFull fullLength => ?_
  · rw [length_nans]
    omega
  · rw [length_nans]
    exact signalLength.trans rest
  · rw [returns_pure_iff, List.length_zipWith, List.length_zipWith, fullLength, length_nans]
    omega

/-! ## Relative strength -/

/-- Wilder's running mean of the changes between bars. -/
def smoothedChange (period : ℕ) (n : ℕ) (changes : List ℚ) : Except ArrayError Column :=
  recurrence (nans n) period (fin (average (changes.take period))) fun i last => do
    let change ← readAt changes (i - 1)
    return wilder period last (fin change)

theorem returns_smoothedChange {period n : ℕ} {changes : List ℚ} (enough : period < n)
    (size : changes.length = n - 1) :
    Returns (smoothedChange period n changes) fun column => column.length = n :=
  returns_following enough fun i after below => by omega

/-- `rsi`. -/
def rsi (prices : List ℚ) (period : ℕ) : Except ArrayError Column :=
  let n := prices.length
  if n < period + 1 then .ok (nans n)
  else do
    let deltas := List.zipWith (fun next last => next - last) prices.tail prices
    let avgGain ← smoothedChange period n (deltas.map fun delta => if 0 < delta then delta else 0)
    let avgLoss ← smoothedChange period n (deltas.map fun delta => if delta < 0 then -delta else 0)
    let rs := List.zipWith
      (fun gain loss => gain / if loss = fin 0 then fin (1 / 10 ^ 10) else loss)
      (avgGain.drop period) (avgLoss.drop period)
    writeFrom (nans n) period (rs.map fun rs => fin 100 - fin 100 / (fin 1 + rs))

theorem returns_rsi (prices : List ℚ) (period : ℕ) :
    Returns (rsi prices period) fun column => column.length = prices.length := by
  unfold rsi
  by_cases short : prices.length < period + 1
  · simp [short]
  · rw [if_neg short]
    have deltas : (List.zipWith (fun next last => next - last) prices.tail prices).length =
        prices.length - 1 := by
      rw [List.length_zipWith, List.length_tail]
      omega
    have changes : ∀ f : ℚ → ℚ, (List.map f (List.zipWith (fun next last => next - last)
        prices.tail prices)).length = prices.length - 1 := fun f => (List.length_map f).trans deltas
    refine (returns_smoothedChange (by omega) (changes _)).bind fun avgGain gainLength => ?_
    refine (returns_smoothedChange (by omega) (changes _)).bind fun avgLoss lossLength => ?_
    refine (returns_writeFrom ?_ ?_).mono fun column same => ?_
    · rw [length_nans]
      omega
    · simp [gainLength, lossLength]
    · simpa using same

/-! ## Stochastic oscillator -/

/-- The raw stochastic value. -/
def rawStochastic (high low close : List ℚ) (n : ℕ) : Except ArrayError Column :=
  fill (n - 1) (fun i _ => do
    let lowest ← smallest (window low n i)
    let highest ← largest (window high n i)
    if highest = lowest then return fin 50
    else do
      let price ← readAt close i
      return fin (100 * (price - lowest) / (highest - lowest))) (nans close.length)

structure KdjData where
  k : Column
  d : Column
  j : Column

/-- A line of the oscillator: from fifty on, the average of a period. -/
def stochasticLine (start period : ℕ) (values : Column) : Except ArrayError Column :=
  recurrence (nans values.length) start (fin 50) fun i last => do
    let value ← readAt values i
    return wilder period last value

/-- `kdj`. -/
def kdjWith (n m1 m2 : ℕ) (high low close : List ℚ) : Except ArrayError KdjData :=
  let length := close.length
  if length < n then .ok ⟨nans length, nans length, nans length⟩
  else do
    let rsv ← rawStochastic high low close n
    let k ← stochasticLine (n - 1) m1 rsv
    let d ← stochasticLine (n - 1) m2 k
    let j ← fill n (fun i _ => do
      let kValue ← readAt k i
      let dValue ← readAt d i
      return fin 3 * kValue - fin 2 * dValue) (nans length)
    return ⟨k, d, j⟩

/-- `kdj`, with its default periods. -/
def kdj (high low close : List ℚ) : Except ArrayError KdjData := kdjWith 9 3 3 high low close

theorem returns_stochasticLine {start period : ℕ} {values : Column}
    (enough : start < values.length) :
    Returns (stochasticLine start period values) fun column => column.length = values.length :=
  returns_following enough fun _ _ below => below

section Kdj

variable {high low close : List ℚ} (highs : high.length = close.length)
  (lows : low.length = close.length)

include highs lows

theorem returns_rawStochastic {n : ℕ} (positive : 0 < n) :
    Returns (rawStochastic high low close n) fun column => column.length = close.length := by
  refine (returns_fill fun i ys _ below _ => ?_).mono fun column same => ?_
  · rw [length_nans] at below
    refine (returns_smallest (window_ne_nil positive (lows ▸ below))).bind fun lowest _ => ?_
    refine (returns_largest (window_ne_nil positive (highs ▸ below))).bind fun highest _ => ?_
    split
    · simp
    · exact (returns_readAt_total below).bind fun price _ => by simp
  · simpa using same

theorem returns_kdj : Returns (kdj high low close) fun _ => True := by
  unfold kdj kdjWith
  by_cases short : close.length < 9
  · simp [short]
  · rw [if_neg short]
    refine (returns_rawStochastic highs lows (by decide)).bind fun rsv rsvLength => ?_
    refine (returns_stochasticLine (by omega)).bind fun k kLength => ?_
    refine (returns_stochasticLine (by omega)).bind fun d dLength => ?_
    refine (returns_fill fun i ys _ below _ => ?_).bind fun j _ => by simp
    rw [length_nans] at below
    refine (returns_readAt_total (by omega)).bind fun kValue _ => ?_
    exact (returns_readAt_total (by omega)).bind fun dValue _ => by simp

end Kdj

/-! ## Commodity channel index -/

/-- The typical price of each bar. -/
def typicalPrices (high low close : List ℚ) : List ℚ :=
  List.zipWith (fun pair price => (pair + price) / 3) (List.zipWith (· + ·) high low) close

/-- The mean distance to the mean. -/
def meanDeviation (xs : List ℚ) : ℚ := average (xs.map fun x => |x - average xs|)

/-- `cci`. -/
def cciWith (period : ℕ) (high low close : List ℚ) : Except ArrayError Column :=
  let n := close.length
  if n < period then .ok (nans n)
  else
    let tp := typicalPrices high low close
    fill (period - 1) (fun i _ =>
      let md := meanDeviation (window tp period i)
      if 0 < md then do
        let price ← readAt tp i
        return fin ((price - average (window tp period i)) / (15 / 1000 * md))
      else return fin 0) (nans n)

/-- `cci`, with its default period. -/
def cci (high low close : List ℚ) : Except ArrayError Column := cciWith 20 high low close

theorem returns_cci {high low close : List ℚ} (highs : high.length = close.length)
    (lows : low.length = close.length) : Returns (cci high low close) fun _ => True := by
  have size : (typicalPrices high low close).length = close.length := by
    rw [typicalPrices, List.length_zipWith, List.length_zipWith]
    omega
  unfold cci cciWith
  by_cases short : close.length < 20
  · simp [short]
  · rw [if_neg short]
    refine (returns_fill fun i ys _ below _ => ?_).mono fun _ _ => trivial
    rw [length_nans] at below
    rw [returns_ite_iff]
    split
    · exact (returns_readAt_total (size ▸ below)).bind fun price _ => by simp
    · simp

/-! ## Volatility -/

/-- `atr`. -/
def atr (high low close : List ℚ) (period : ℕ) : Except ArrayError Column :=
  let n := close.length
  if n < period + 1 then .ok (nans n)
  else do
    let tr ← trueRange high low close
    recurrence (nans n) (period - 1) (fin (average (tr.take period))) fun i last => do
      let value ← readAt tr i
      return wilder period last (fin value)

theorem returns_atr {high low close : List ℚ} (highs : high.length = close.length)
    (lows : low.length = close.length) (period : ℕ) :
    Returns (atr high low close period) fun column => column.length = close.length := by
  unfold atr
  by_cases short : close.length < period + 1
  · simp [short]
  · rw [if_neg short]
    refine (returns_trueRange highs lows (by omega)).bind fun tr trLength => ?_
    exact returns_following (by omega) fun i _ below => by omega

structure BollingerData where
  upper : Column
  middle : Column
  lower : Column
  bandwidth : Column

/-- `np.std` with `ddof=1`. -/
def sampleDeviation (sqrt : ℚ → ℚ) (xs : List ℚ) : Extended :=
  if xs.length ≤ 1 then nan else fin (sqrt (sampleVariance xs))

/-- `bollinger_bands`. -/
def bollingerBands (sqrt : ℚ → ℚ) (prices : List ℚ) (period : ℕ) (stdDev : ℚ) :
    Except ArrayError BollingerData := do
  let n := prices.length
  let middle ← fill (period - 1) (fun i _ => .ok (fin (average (window prices period i)))) (nans n)
  let std ← fill (period - 1) (fun i _ => .ok (sampleDeviation sqrt (window prices period i)))
    (nans n)
  let upper := List.zipWith (fun m s => m + fin stdDev * s) middle std
  let lower := List.zipWith (fun m s => m - fin stdDev * s) middle std
  let bandwidth := List.zipWith
    (fun price (band : Extended × Extended) =>
      if lt (fin 0) (band.1 - band.2) then (fin price - band.2) / (band.1 - band.2) else nan)
    prices (upper.zip lower)
  return ⟨upper, middle, lower, bandwidth⟩

theorem returns_bollingerBands (sqrt : ℚ → ℚ) (prices : List ℚ) (period : ℕ) (stdDev : ℚ) :
    Returns (bollingerBands sqrt prices period stdDev) fun data =>
      data.bandwidth.length = prices.length := by
  refine (returns_fill fun i ys _ _ _ => by simp).bind fun middle middleLength => ?_
  refine (returns_fill fun i ys _ _ _ => by simp).bind fun std stdLength => ?_
  rw [length_nans] at middleLength stdLength
  rw [returns_pure_iff]
  simp [middleLength, stdLength]

end TradeOS.Technical
