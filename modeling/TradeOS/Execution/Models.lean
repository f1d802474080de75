import TradeOS.Schemas
import TradeOS.Numeric.DecimalContext

/-!
# Execution records

The records of `core/execution/models.py` that the simulation engine reads and
writes, and the enumerations they use. Quantities, prices and fees are decimals,
read as exact rationals; the arithmetic on them is the engine's own.

A metadata value enters a computation through `Decimal(str(value))`. It is kept as
what that conversion gives: a finite number, or nothing when the text is not one.
-/

set_option autoImplicit false

namespace TradeOS.Execution

inductive Side where
  | buy
  | sell
  deriving DecidableEq, Repr

inductive OrderType where
  | market
  | limit
  | stopMarket
  | stopLimit
  | trailingStop
  deriving DecidableEq, Repr

inductive TimeInForce where
  | gtc
  | ioc
  | fok
  | day
  | gtd
  | atTheOpen
  | atTheClose
  deriving DecidableEq, Repr

inductive ExecutionStatus where
  | pending
  | submitted
  | acknowledged
  | partialFilled
  | filled
  | cancelled
  | rejected
  | expired
  deriving DecidableEq, Repr

inductive LiquiditySide where
  | maker
  | taker
  deriving DecidableEq, Repr

inductive RiskSeverity where
  | info
  | warning
  | block
  deriving DecidableEq, Repr

inductive ExecutionMode where
  | simulation
  | backtest
  | paper
  | live
  deriving DecidableEq, Repr

inductive EngineStatus where
  | stopped
  | starting
  | running
  | stopping
  | error
  deriving DecidableEq, Repr

/-- `mode.value.lower()`. -/
def ExecutionMode.lower : ExecutionMode → String
  | .simulation => "simulation"
  | .backtest => "backtest"
  | .paper => "paper"
  | .live => "live"

/-- `mode.value`. -/
def ExecutionMode.value : ExecutionMode → String
  | .simulation => "SIMULATION"
  | .backtest => "BACKTEST"
  | .paper => "PAPER"
  | .live => "LIVE"

/-- What a call can raise: the explicit errors with their texts, a decimal that
cannot be built, and a sink or a callback that fails. -/
inductive ExecutionError where
  | runtimeError (text : String)
  | valueError (text : String)
  | invalidDecimal
  | effectFailed
  deriving DecidableEq, Repr

/-- One recorded change of the status of an order. -/
structure StatusTransition where
  fromStatus : ExecutionStatus
  toStatus : ExecutionStatus
  timestamp : Timestamp
  reason : Option String := none
  deriving DecidableEq, Repr

/-- The execution intent, as far as the engine reads it. -/
structure ExecutionIntent where
  intentId : String
  symbol : String
  side : Side
  orderType : OrderType
  quantity : ℚ
  price : Option ℚ := none
  stopPrice : Option ℚ := none
  timeInForce : TimeInForce := .day
  riskFlags : List RiskSeverity := []
  metadata : List (String × Option ℚ) := []

/-- `has_blocking_risk`. -/
def ExecutionIntent.hasBlockingRisk (intent : ExecutionIntent) : Bool :=
  intent.riskFlags.any fun severity => severity = .block

/-- One fill of an order. -/
structure FillRecord where
  recordId : String
  orderId : String
  intentId : String
  symbol : String
  side : Side
  filledQty : ℚ
  fillPrice : ℚ
  fees : ℚ := 0
  venue : Option String := none
  tradeId : Option String := none
  liquiditySide : Option LiquiditySide := none
  filledAt : Timestamp
  arrivalPrice : ℚ
  simulatedSlippageBps : ℚ
  deriving DecidableEq, Repr

/-- The filled quantity with the sign of its side. -/
def FillRecord.signedQty (arith : Numeric.Arithmetic) (fill : FillRecord) : ℚ :=
  if fill.side = .buy then fill.filledQty else arith.neg fill.filledQty

/-- One order. -/
structure OrderRecord where
  recordId : String
  intentId : String
  orderId : String
  symbol : String
  side : Side
  orderType : OrderType
  quantity : ℚ
  price : Option ℚ
  stopPrice : Option ℚ
  timeInForce : TimeInForce
  statusHistory : List StatusTransition := []
  currentStatus : ExecutionStatus := .pending
  fills : List String := []
  createdAt : Timestamp
  updatedAt : Timestamp
  deriving DecidableEq, Repr

/-- `add_transition`. -/
def OrderRecord.addTransition (order : OrderRecord) (toStatus : ExecutionStatus)
    (timestamp updatedAt : Timestamp) (reason : Option String) : OrderRecord :=
  { order with
    statusHistory := order.statusHistory ++ [⟨order.currentStatus, toStatus, timestamp, reason⟩]
    currentStatus := toStatus
    updatedAt := updatedAt }

/-- The position in one symbol. -/
structure PositionState where
  positionId : String
  symbol : String
  venue : Option String := none
  netQty : ℚ := 0
  avgCost : ℚ := 0
  totalTradedQty : ℚ := 0
  totalFees : ℚ := 0
  exposure : ℚ := 0
  openedAt : Option Timestamp := none
  updatedAt : Timestamp
  sourceOrders : List String := []
  sourceFills : List String := []
  deriving DecidableEq, Repr

/-- The report that a call returns. -/
structure ExecutionReport where
  reportId : String
  intentId : String
  orderId : Option String
  status : ExecutionStatus
  submittedAt : Option Timestamp := none
  acknowledgedAt : Option Timestamp := none
  lastUpdateAt : Timestamp
  filledQty : ℚ := 0
  remainingQty : ℚ := 0
  avgFillPrice : Option ℚ := none
  totalFees : ℚ := 0
  venue : Option String
  slippageBps : Option ℚ := none
  mode : Option String := none

/-! ## Connected histories -/

/-- A list of transitions leads from one status to another, each starting where the
one before ended. -/
def Connected : ExecutionStatus → List StatusTransition → ExecutionStatus → Prop
  | first, [], last => first = last
  | first, t :: ts, last => t.fromStatus = first ∧ Connected t.toStatus ts last

theorem Connected.append {first middle last : ExecutionStatus} {ts us : List StatusTransition}
    (start : Connected first ts middle) (rest : Connected middle us last) :
    Connected first (ts ++ us) last := by
  induction ts generalizing first with
  | nil =>
      obtain rfl : first = middle := start
      exact rest
  | cons t ts ih => exact ⟨start.1, ih start.2⟩

/-- A transition extends a history that led to the current status. -/
theorem OrderRecord.addTransition_connected (order : OrderRecord) {first : ExecutionStatus}
    (connected : Connected first order.statusHistory order.currentStatus)
    (toStatus : ExecutionStatus) (timestamp updatedAt : Timestamp) (reason : Option String) :
    Connected first (order.addTransition toStatus timestamp updatedAt reason).statusHistory
      toStatus :=
  connected.append ⟨rfl, rfl⟩

end TradeOS.Execution
