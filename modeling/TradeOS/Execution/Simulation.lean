import TradeOS.Execution.Models

/-!
# The simulation engine

`SimulationExecutionEngine` with its three maps. A submission stores the order,
then builds and stores the fill, then updates the position, and last reports to
the sinks and the callbacks. Each of these steps can raise, and what was stored
before stays: a call returns the engine it leaves behind together with its report
or its error.

Identifiers, clock readings and the failures of sinks and callbacks come from the
environment of the call. `submitIntent_cases` says once what a submission can do.
-/

set_option autoImplicit false

namespace TradeOS.Execution

open TradeOS.Numeric

/-- What a call asks of the sinks and the callbacks. -/
inductive Effect where
  | writeIntent
  | writeFill
  | writePosition
  | writeReport
  | fillCallback
  | positionCallback
  deriving DecidableEq, Repr

/-- What a call reads from its environment: the readings of the clock, in order,
fresh identifiers, and which effects raise. -/
structure CallEnv where
  clock : ℕ → Timestamp
  orderUuid : String
  orderRecordId : String
  fillRecordId : String
  tradeUuid : String
  positionId : String
  reportId : String
  raises : Effect → Bool

def CallEnv.orderId (env : CallEnv) : String := "sim-ord-" ++ env.orderUuid

/-- The engine with its orders, fills and positions. -/
structure SimulationExecutionEngine where
  mode : ExecutionMode := .simulation
  venue : String := "SIMULATED"
  orders : String → Option OrderRecord := fun _ => none
  fills : String → Option (List FillRecord) := fun _ => none
  positions : String → Option PositionState := fun _ => none
  running : Bool := false
  engineStatus : EngineStatus := .stopped

namespace SimulationExecutionEngine

def start (engine : SimulationExecutionEngine) : SimulationExecutionEngine :=
  if engine.running then engine else { engine with running := true, engineStatus := .running }

def stop (engine : SimulationExecutionEngine) : SimulationExecutionEngine :=
  if engine.running then { engine with running := false, engineStatus := .stopped } else engine

def storeOrder (engine : SimulationExecutionEngine) (orderId : String) (order : OrderRecord) :
    SimulationExecutionEngine :=
  { engine with orders := Function.update engine.orders orderId (some order) }

def storeFills (engine : SimulationExecutionEngine) (orderId : String)
    (records : List FillRecord) : SimulationExecutionEngine :=
  { engine with fills := Function.update engine.fills orderId (some records) }

def storePosition (engine : SimulationExecutionEngine) (symbol : String)
    (position : PositionState) : SimulationExecutionEngine :=
  { engine with positions := Function.update engine.positions symbol (some position) }

end SimulationExecutionEngine

/-! ## The parts of a submission -/

section Parts

variable (arith : Arithmetic) (venue : String) (env : CallEnv) (intent : ExecutionIntent)

/-- `Decimal(str(metadata.get(key, default)))`. -/
def metadataDecimal (key : String) (default : ℚ) : Option ℚ :=
  (intent.metadata.lookup key).getD (some default)

/-- The price of the intent; without one, or with the price zero, the arrival price
of the metadata, its reference price, or `100`. -/
def arrivalPrice : Option ℚ :=
  let fallback := ((intent.metadata.lookup "arrival_price").or
    (intent.metadata.lookup "reference_price")).getD (some 100)
  match intent.price with
  | none => fallback
  | some price => if price = 0 then fallback else some price

/-- `_build_fill`. -/
def buildFill (orderId : String) : Option FillRecord := do
  let arrival ← arrivalPrice intent
  let estimatedSlippageBps ← metadataDecimal intent "estimated_slippage_bps" 1
  let feeBps ← metadataDecimal intent "fee_bps" 1
  let slippage := arith.div estimatedSlippageBps 10000
  let priceMultiplier :=
    arith.add 1 (if intent.side = .buy then slippage else arith.neg slippage)
  let fillPrice ← arith.quantize (arith.mul arrival priceMultiplier)
  let fees ← arith.quantize
    (arith.div (arith.mul (arith.mul fillPrice intent.quantity) feeBps) 10000)
  return {
    recordId := env.fillRecordId
    orderId := orderId
    intentId := intent.intentId
    symbol := intent.symbol
    side := intent.side
    filledQty := intent.quantity
    fillPrice := fillPrice
    fees := fees
    venue := some venue
    tradeId := some ("sim-fill-" ++ env.tradeUuid)
    liquiditySide := some (if intent.orderType = .market then .taker else .maker)
    filledAt := env.clock 2
    arrivalPrice := arrival
    simulatedSlippageBps := estimatedSlippageBps }

/-- The order that a submission stores. -/
def newOrder : OrderRecord where
  recordId := env.orderRecordId
  intentId := intent.intentId
  orderId := env.orderId
  symbol := intent.symbol
  side := intent.side
  orderType := intent.orderType
  quantity := intent.quantity
  price := intent.price
  stopPrice := intent.stopPrice
  timeInForce := intent.timeInForce
  currentStatus := .submitted
  createdAt := env.clock 0
  updatedAt := env.clock 1

/-- The order with its fill and the two transitions of the simulation. -/
def filledOrder (mode : ExecutionMode) (fill : FillRecord) : OrderRecord :=
  let order := newOrder env intent
  let recorded := { order with fills := order.fills ++ [fill.recordId] }
  let acknowledged :=
    recorded.addTransition .acknowledged (env.clock 3) (env.clock 4) (some "simulation_ack")
  acknowledged.addTransition .filled (env.clock 5) (env.clock 6) (some (mode.lower ++ "_fill"))

/-- The average cost after a fill: the mean of the old cost and the fill price,
weighted by the absolute quantities. A position that ends flat keeps its cost. -/
def updatedCost (fill : FillRecord) (avgCost previousQty newQty : ℚ) : Option ℚ :=
  if newQty ≠ 0 then
    let weightedCost := arith.add (arith.mul avgCost (arith.abs previousQty))
      (arith.mul fill.fillPrice fill.filledQty)
    arith.quantize (arith.div weightedCost (arith.add (arith.abs previousQty) fill.filledQty))
  else some avgCost

/-- `_update_position`, on the stored position of the symbol. -/
def updatePosition (orderId : String) (fill : FillRecord) (existing : Option PositionState) :
    Option PositionState := do
  let position := existing.getD
    { positionId := env.positionId, symbol := intent.symbol, venue := some venue,
      updatedAt := env.clock 7 }
  let signedQty := if intent.side = .buy then fill.filledQty else arith.neg fill.filledQty
  let newQty := arith.add position.netQty signedQty
  let avgCost ← updatedCost arith fill position.avgCost position.netQty newQty
  return { position with
    avgCost := avgCost
    netQty := newQty
    totalTradedQty := arith.add position.totalTradedQty fill.filledQty
    totalFees := arith.add position.totalFees fill.fees
    exposure := arith.abs (arith.mul newQty fill.fillPrice)
    updatedAt := env.clock 8
    openedAt := if position.openedAt = none ∧ newQty ≠ 0 then some (env.clock 9)
      else position.openedAt
    sourceOrders := position.sourceOrders ++ [orderId]
    sourceFills := position.sourceFills ++ [fill.recordId] }

/-- The report of a filled order. -/
def filledReport (mode : ExecutionMode) (fill : FillRecord) : ExecutionReport where
  reportId := env.reportId
  intentId := intent.intentId
  orderId := some env.orderId
  status := .filled
  submittedAt := some (env.clock 10)
  acknowledgedAt := some (env.clock 11)
  lastUpdateAt := env.clock 12
  filledQty := fill.filledQty
  remainingQty := 0
  avgFillPrice := some fill.fillPrice
  totalFees := fill.fees
  venue := some venue
  slippageBps := some fill.simulatedSlippageBps
  mode := some mode.value

end Parts

/-- The effects that follow the update of the position. -/
def closingEffects : List Effect :=
  [.writeFill, .writePosition, .writeReport, .fillCallback, .positionCallback]

/-! ## The operations -/

section Operations

variable (arith : Arithmetic) (engine : SimulationExecutionEngine) (env : CallEnv)

/-- The engine with the order of a submission. -/
def accepted (intent : ExecutionIntent) : SimulationExecutionEngine :=
  engine.storeOrder env.orderId (newOrder env intent)

/-- The engine with the fill as well. -/
def filled (intent : ExecutionIntent) (fill : FillRecord) : SimulationExecutionEngine :=
  ((accepted engine env intent).storeFills env.orderId [fill]).storeOrder env.orderId
    (filledOrder env intent engine.mode fill)

/-- The engine with the position as well. -/
def settled (intent : ExecutionIntent) (fill : FillRecord) (position : PositionState) :
    SimulationExecutionEngine :=
  (filled engine env intent fill).storePosition intent.symbol position

/-- `submit_intent`. -/
def submitIntent (intent : ExecutionIntent) :
    SimulationExecutionEngine × Except ExecutionError ExecutionReport :=
  if !engine.running then (engine, .error (.runtimeError "Engine not running"))
  else if intent.quantity ≤ 0 then
    (engine, .error (.valueError "ExecutionIntent quantity must be positive"))
  else if intent.hasBlockingRisk then
    (engine, .error (.runtimeError "ExecutionIntent contains blocking risk flags"))
  else if env.raises .writeIntent then (engine, .error .effectFailed)
  else
    match buildFill arith engine.venue env intent env.orderId with
    | none => (accepted engine env intent, .error .invalidDecimal)
    | some fill =>
        match updatePosition arith engine.venue env intent env.orderId fill
            (engine.positions intent.symbol) with
        | none => (filled engine env intent fill, .error .invalidDecimal)
        | some position =>
            (settled engine env intent fill position,
              if closingEffects.any env.raises then .error .effectFailed
              else .ok (filledReport engine.venue env intent engine.mode fill))

/-- The report of a cancelled or a modified order. -/
def updateReport (order : OrderRecord) (status : ExecutionStatus) : ExecutionReport where
  reportId := env.reportId
  intentId := order.intentId
  orderId := some order.orderId
  status := status
  lastUpdateAt := env.clock 2
  venue := some engine.venue

/-- The end of a cancellation or a modification: the report is written. -/
def reported (report : ExecutionReport) : Except ExecutionError ExecutionReport :=
  if env.raises .writeReport then .error .effectFailed else .ok report

/-- `cancel_order`. -/
def cancelOrder (orderId : String) (reason : Option String) :
    SimulationExecutionEngine × Except ExecutionError ExecutionReport :=
  match engine.orders orderId with
  | none => (engine, .error (.valueError ("Order not found: " ++ orderId)))
  | some order =>
      if order.currentStatus = .filled then
        (engine, .error (.runtimeError "Filled simulation order cannot be cancelled"))
      else
        (engine.storeOrder orderId
            (order.addTransition .cancelled (env.clock 0) (env.clock 1) reason),
          reported env (updateReport engine env order .cancelled))

/-- `modify_order`. -/
def modifyOrder (orderId : String) (newQuantity newPrice : Option ℚ) :
    SimulationExecutionEngine × Except ExecutionError ExecutionReport :=
  match engine.orders orderId with
  | none => (engine, .error (.valueError ("Order not found: " ++ orderId)))
  | some order =>
      if order.currentStatus = .filled then
        (engine, .error (.runtimeError "Filled simulation order cannot be modified"))
      else
        (engine.storeOrder orderId
            { order with
              quantity := newQuantity.getD order.quantity
              price := newPrice.or order.price },
          reported env (updateReport engine env order order.currentStatus))

end Operations

/-! ## The maps after a submission -/

section Maps

variable (engine : SimulationExecutionEngine) (env : CallEnv) (intent : ExecutionIntent)
  (fill : FillRecord) (position : PositionState)

@[simp] theorem accepted_orders : (accepted engine env intent).orders =
    Function.update engine.orders env.orderId (some (newOrder env intent)) :=
  rfl

@[simp] theorem filled_orders : (filled engine env intent fill).orders =
    Function.update engine.orders env.orderId (some (filledOrder env intent engine.mode fill)) :=
  Function.update_idem _ _ _

@[simp] theorem settled_orders : (settled engine env intent fill position).orders =
    Function.update engine.orders env.orderId (some (filledOrder env intent engine.mode fill)) :=
  filled_orders engine env intent fill

@[simp] theorem settled_fills : (settled engine env intent fill position).fills =
    Function.update engine.fills env.orderId (some [fill]) :=
  rfl

@[simp] theorem settled_positions : (settled engine env intent fill position).positions =
    Function.update engine.positions intent.symbol (some position) :=
  rfl

end Maps

/-! ## What a submission can do -/

section Cases

variable (arith : Arithmetic) (engine : SimulationExecutionEngine) (env : CallEnv)
  (intent : ExecutionIntent)

/-- A submission is refused before anything is stored: by one of the three guards,
or by the sink of the intents. -/
def Refused : Prop :=
  engine.running = false ∨ intent.quantity ≤ 0 ∨ intent.hasBlockingRisk = true ∨
    env.raises .writeIntent = true

/-- What a submission leaves behind and returns, case by case. -/
inductive Submitted :
    SimulationExecutionEngine × Except ExecutionError ExecutionReport → Prop
  | refused (guard : Refused engine env intent) (e : ExecutionError) :
      Submitted (engine, .error e)
  | unfilled (passed : ¬ Refused engine env intent)
      (built : buildFill arith engine.venue env intent env.orderId = none) :
      Submitted (accepted engine env intent, .error .invalidDecimal)
  | unsettled (passed : ¬ Refused engine env intent) {fill : FillRecord}
      (built : buildFill arith engine.venue env intent env.orderId = some fill)
      (updated : updatePosition arith engine.venue env intent env.orderId fill
        (engine.positions intent.symbol) = none) :
      Submitted (filled engine env intent fill, .error .invalidDecimal)
  | settled (passed : ¬ Refused engine env intent) {fill : FillRecord} {position : PositionState}
      (built : buildFill arith engine.venue env intent env.orderId = some fill)
      (updated : updatePosition arith engine.venue env intent env.orderId fill
        (engine.positions intent.symbol) = some position)
      (outcome : Except ExecutionError ExecutionReport) :
      Submitted (settled engine env intent fill position, outcome)

/-- **A submission is refused, or it stores the order, or the order and the fill, or
all three.** -/
theorem submitIntent_cases :
    Submitted arith engine env intent (submitIntent arith engine env intent) := by
  unfold submitIntent
  by_cases stopped : engine.running = false
  · rw [if_pos (by simp [stopped])]
    exact .refused (.inl stopped) _
  rw [if_neg (by simpa using stopped)]
  by_cases empty : intent.quantity ≤ 0
  · rw [if_pos empty]
    exact .refused (.inr (.inl empty)) _
  rw [if_neg empty]
  by_cases blocked : intent.hasBlockingRisk = true
  · rw [if_pos blocked]
    exact .refused (.inr (.inr (.inl blocked))) _
  rw [if_neg blocked]
  by_cases unwritten : env.raises .writeIntent = true
  · rw [if_pos unwritten]
    exact .refused (.inr (.inr (.inr unwritten))) _
  rw [if_neg unwritten]
  have passed : ¬ Refused engine env intent := by
    rintro (guard | guard | guard | guard)
    · exact stopped guard
    · exact empty guard
    · exact blocked guard
    · exact unwritten guard
  cases built : buildFill arith engine.venue env intent env.orderId with
  | none => exact .unfilled passed built
  | some fill =>
      dsimp only
      cases updated : updatePosition arith engine.venue env intent env.orderId fill
          (engine.positions intent.symbol) with
      | none => exact .unsettled passed built updated
      | some position => exact .settled passed built updated _

/-- A submission that returns has stored the order, the fill and the position. -/
theorem submitIntent_eq_ok {next : SimulationExecutionEngine} {report : ExecutionReport}
    (ran : submitIntent arith engine env intent = (next, .ok report)) :
    ¬ Refused engine env intent ∧ ∃ fill position,
      buildFill arith engine.venue env intent env.orderId = some fill ∧
      updatePosition arith engine.venue env intent env.orderId fill
        (engine.positions intent.symbol) = some position ∧
      next = settled engine env intent fill position := by
  have outcome := submitIntent_cases arith engine env intent
  rw [ran] at outcome
  cases outcome with
  | settled passed built updated => exact ⟨passed, _, _, built, updated, rfl⟩

end Cases

/-! ## What a fill and a position are built from -/

theorem buildFill_eq_some {arith : Arithmetic} {venue : String} {env : CallEnv}
    {intent : ExecutionIntent} {orderId : String} {fill : FillRecord}
    (built : buildFill arith venue env intent orderId = some fill) :
    fill.orderId = orderId ∧ fill.recordId = env.fillRecordId ∧ fill.symbol = intent.symbol ∧
      fill.side = intent.side ∧ fill.filledQty = intent.quantity := by
  simp only [buildFill, Option.bind_eq_bind, Option.bind_eq_some_iff] at built
  obtain ⟨_, _, _, _, _, _, _, _, _, _, made⟩ := built
  cases made
  exact ⟨rfl, rfl, rfl, rfl, rfl⟩

/-! ## Sample calls -/

/-- A call environment whose identifiers end in a given text and whose effects all
succeed. -/
def sampleCallEnv (tag : String) : CallEnv where
  clock n := n
  orderUuid := tag
  orderRecordId := "order-" ++ tag
  fillRecordId := "fill-" ++ tag
  tradeUuid := tag
  positionId := "position-" ++ tag
  reportId := "report-" ++ tag
  raises _ := false

/-- A market order in one symbol. -/
def sampleIntent (side : Side) (quantity price : ℚ) : ExecutionIntent where
  intentId := "intent"
  symbol := "AAPL"
  side := side
  orderType := .market
  quantity := quantity
  price := some price

end TradeOS.Execution
