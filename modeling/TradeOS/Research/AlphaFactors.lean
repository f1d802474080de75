import TradeOS.Data.Histories
import TradeOS.Data.Validation
import TradeOS.Numeric.Extended
import TradeOS.Schemas

/-!
# The technical factors of the alpha library

A price table has one row per symbol and timestamp. A builder computes a column of the table with
shifts, differences, rolling windows and exponential averages, drops the missing values, and reports
the rest (`report`).

A series is read from the rows so far: its value at a row is a function of that row and the rows
above it, the nearest first. No builder groups the rows by symbol.

The square root is a parameter. The columns of a table that no builder reads are left out, and so is
the running volume of `build_obv_dir`, which it computes and does not report.
-/

set_option autoImplicit false

namespace TradeOS.Alpha

open Numeric Numeric.Extended Histories

/-! ## Tables and series -/

/-- A row of a price table. -/
structure PriceRow where
  symbol : String
  timestamp : Timestamp
  close : PositiveRational
  volume : NonnegRational

/-- The index of a row. -/
def PriceRow.index (row : PriceRow) : String × Timestamp := (row.symbol, row.timestamp)

/-- A price table, indexed by symbol and timestamp. -/
structure PriceTable where
  rows : List PriceRow
  indexed : (rows.map PriceRow.index).Nodup

/-- A series: the value at a row, given the row and those above it, the nearest first. -/
abbrev PriceSeries := List PriceRow → Extended

namespace PriceSeries

def close : PriceSeries
  | [] => nan
  | row :: _ => fin row.close.val

def volume : PriceSeries
  | [] => nan
  | row :: _ => fin row.volume.val

/-- `shift(periods)`. -/
def shift (periods : ℕ) (s : PriceSeries) : PriceSeries := fun rows =>
  if periods < rows.length then s (rows.drop periods) else nan

/-- `diff()`. -/
def diff (s : PriceSeries) : PriceSeries := fun rows => s rows - shift 1 s rows

/-- `pct_change(periods)`. -/
def pctChange (periods : ℕ) (s : PriceSeries) : PriceSeries := fun rows =>
  s rows / shift periods s rows - fin 1

/-- The values in a window that ends at the row. -/
def windowValues (window : ℕ) (s : PriceSeries) (rows : List PriceRow) : List Extended :=
  (List.range window).map fun k => s (rows.drop k)

/-- `rolling(window, min_periods=window)`, aggregated. -/
def rolling (window : ℕ) (aggregate : List Extended → Extended) (s : PriceSeries) :
    PriceSeries := fun rows =>
  if window ≤ rows.length ∧ nan ∉ windowValues window s rows then
    aggregate (windowValues window s rows)
  else nan

/-- The weight of the newest value in an exponential average. -/
def smoothing (span : ℕ) : ℚ := 2 / (span + 1)

/-- `ewm(span, adjust=False).mean()`. -/
def ewm (span : ℕ) (s : PriceSeries) : PriceSeries
  | [] => nan
  | [row] => s [row]
  | row :: above =>
      fin (1 - smoothing span) * ewm span s above + fin (smoothing span) * s (row :: above)

/-- A function of the values. -/
def apply (f : Extended → Extended) (s : PriceSeries) : PriceSeries := fun rows => f (s rows)

/-- A function of the values of two series. -/
def combine (f : Extended → Extended → Extended) (s t : PriceSeries) : PriceSeries := fun rows =>
  f (s rows) (t rows)

end PriceSeries

open PriceSeries

/-- `std()`: the root of the sample variance. -/
def std (sqrt : ℚ → ℚ) (values : List Extended) : Extended :=
  match variance values with
  | fin q => fin (sqrt q)
  | x => x

/-- `replace(0, pd.NA)`. -/
def replaceZero (x : Extended) : Extended := if x = fin 0 then nan else x

/-- The sign of a number, zero for NaN. -/
def sign (x : Extended) : Extended :=
  if lt (fin 0) x then fin 1 else if lt x (fin 0) then fin (-1) else fin 0

/-! ## The builders -/

section Builders

variable (sqrt : ℚ → ℚ)

/-- `build_ret_1d`. -/
def buildRet1d : PriceSeries := pctChange 1 close

/-- `build_ret_5d`. -/
def buildRet5d : PriceSeries := pctChange 5 close

/-- The annualised volatility of the returns in a window. -/
def rollingVolatility (window : ℕ) : PriceSeries :=
  apply (fun x => x * fin (sqrt 252)) (rolling window (std sqrt) (pctChange 1 close))

/-- `build_vol_5d`. -/
def buildVol5d : PriceSeries := rollingVolatility sqrt 5

/-- `build_vol_20d`. -/
def buildVol20d : PriceSeries := rollingVolatility sqrt 20

/-- `build_rsi_14`. -/
def buildRsi14 : PriceSeries :=
  let delta := diff close
  let gain := apply (fun x => larger x (fin 0)) delta
  let loss := apply (fun x => -smaller x (fin 0)) delta
  let avgGain := rolling 14 mean gain
  let avgLoss := rolling 14 mean loss
  let rs := combine (fun x y => x / replaceZero y) avgGain avgLoss
  apply (fun x => fin 100 - fin 100 / (fin 1 + x)) rs

/-- `build_macd`. -/
def buildMacd (fast slow : ℕ) : PriceSeries := combine (· - ·) (ewm fast close) (ewm slow close)

/-- The upper band, from the middle and the deviation. -/
def upperBand (numStd : ℚ) (middle deviation : Extended) : Extended :=
  middle + fin numStd * deviation

/-- The lower band. -/
def lowerBand (numStd : ℚ) (middle deviation : Extended) : Extended :=
  middle - fin numStd * deviation

/-- `build_bb_width`. -/
def buildBbWidth (window : ℕ) (numStd : ℚ) : PriceSeries :=
  combine (fun middle deviation =>
      (upperBand numStd middle deviation - lowerBand numStd middle deviation) / middle)
    (rolling window mean close) (rolling window (std sqrt) close)

/-- `build_bb_pos`. -/
def buildBbPos (window : ℕ) (numStd : ℚ) : PriceSeries := fun rows =>
  let middle := rolling window mean close rows
  let deviation := rolling window (std sqrt) close rows
  (close rows - lowerBand numStd middle deviation) /
    (upperBand numStd middle deviation - lowerBand numStd middle deviation)

/-- `build_vol_ratio`. -/
def buildVolRatio (window : ℕ) : PriceSeries :=
  combine (fun x average => x / replaceZero average) volume (rolling window mean volume)

/-- `build_obv_dir`. -/
def buildObvDir (window : ℕ) : PriceSeries :=
  apply sign (rolling window sum (apply sign (diff close)))

/-- The names of the registry `TECHNICAL_FACTORS`. -/
inductive Factor where
  | ret1d
  | ret5d
  | vol5d
  | vol20d
  | rsi14
  | macd
  | bbWidth
  | bbPos
  | volRatio
  | obvDir
  deriving DecidableEq, Repr

/-- The builder of a factor, with its default parameters. -/
def Factor.builder : Factor → PriceSeries
  | .ret1d => buildRet1d
  | .ret5d => buildRet5d
  | .vol5d => buildVol5d sqrt
  | .vol20d => buildVol20d sqrt
  | .rsi14 => buildRsi14
  | .macd => buildMacd 12 26
  | .bbWidth => buildBbWidth sqrt 20 2
  | .bbPos => buildBbPos sqrt 20 2
  | .volRatio => buildVolRatio 20
  | .obvDir => buildObvDir 5

end Builders

/-- What a builder reports: the index and the value of each row that has a value. -/
def report (s : PriceSeries) (rows : List PriceRow) : List ((String × Timestamp) × Extended) :=
  dropMissing nan (column PriceRow.index s rows)

/-- The rows of a symbol. -/
def rowsOfSymbol (symbol : String) (rows : List PriceRow) : List PriceRow :=
  Columns.rowsOf PriceRow.symbol symbol rows

/-- A series does not mix symbols: what it reports for a symbol is what it reports on the rows of
the symbol alone. -/
def Separate (s : PriceSeries) (rows : List PriceRow) : Prop :=
  ∀ symbol, ((report s rows).filter fun entry => entry.1.1 = symbol) =
    report s (rowsOfSymbol symbol rows)

end TradeOS.Alpha
