import TradeOS.Data.Validation
import TradeOS.Execution.Models
import TradeOS.Schemas
import TradeOS.Store.Dataset

/-!
# Market data

The inputs of the analysis engines: bars, order books and trades. A record carries the bounds that
its schema checks when it is built.

The derived fields of an order book, which the engines compute anew, are left out, and so are the
optional fields that no engine reads.
-/

set_option autoImplicit false

namespace TradeOS.MarketData

open Execution (Side)
open Store (TimeFrame)

/-- A bar: its prices are positive, the high is not below the open, and the close not below the
low. -/
structure MarketBar where
  symbol : String
  timeframe : TimeFrame
  timestamp : Timestamp
  opening : PositiveRational
  high : PositiveRational
  low : PositiveRational
  close : PositiveRational
  volume : NonnegRational
  high_ge_open : opening.val ≤ high.val
  close_ge_low : low.val ≤ close.val

theorem hundred_pos : (0 : ℚ) < 100 := by norm_num

/-- A bar that stays at 100, without volume. -/
def MarketBar.flat (symbol : String) (timeframe : TimeFrame) (timestamp : Timestamp) :
    MarketBar where
  symbol := symbol
  timeframe := timeframe
  timestamp := timestamp
  opening := ⟨100, hundred_pos⟩
  high := ⟨100, hundred_pos⟩
  low := ⟨100, hundred_pos⟩
  close := ⟨100, hundred_pos⟩
  volume := NonnegRational.zero
  high_ge_open := le_rfl
  close_ge_low := le_rfl

/-- The levels of a book, as prices with sizes. -/
structure OrderBookSnapshot where
  symbol : String
  timestamp : Timestamp
  bids : List (ℚ × ℚ)
  asks : List (ℚ × ℚ)

structure TradePrint where
  symbol : String
  timestamp : Timestamp
  price : PositiveRational
  size : PositiveRational
  side : Side
  isBuySideTaker : Option Bool := none

end TradeOS.MarketData
