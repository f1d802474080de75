import TradeOS.Execution.Simulation

/-!
# The ledger of the simulated execution

A run of submissions that all return leaves three maps that agree with the list of
its fills. Every position is the account of the fills of its symbol (`Booked`), and
every order is filled by its one fill (`Executes`). `Ledger` is the invariant, kept
by one submission (`Ledger.submit`) and so by every run.

Totals are sums in the arithmetic of the engine. They are the exact sums whenever
the running totals fit the context (`IsTotal`, `IsTotal.eq_sum_of_units`).
-/

set_option autoImplicit false

namespace TradeOS.Execution

open TradeOS.Numeric

/-- A run of submissions that return, with the fills they stored, oldest first. -/
inductive Runs (arith : Arithmetic) (first : SimulationExecutionEngine) :
    List FillRecord → SimulationExecutionEngine → Prop
  | nil : Runs arith first [] first
  | submit {executed : List FillRecord} {engine next : SimulationExecutionEngine} {env : CallEnv}
      {intent : ExecutionIntent} {report : ExecutionReport} {fill : FillRecord}
      (runs : Runs arith first executed engine)
      (ran : submitIntent arith engine env intent = (next, .ok report))
      (stored : next.fills env.orderId = some [fill]) :
      Runs arith first (executed ++ [fill]) next

/-- The fills of a symbol. -/
def fillsOf (symbol : String) (executed : List FillRecord) : List FillRecord :=
  executed.filter fun fill => fill.symbol = symbol

theorem fillsOf_append_singleton (symbol : String) (executed : List FillRecord)
    (fill : FillRecord) :
    fillsOf symbol (executed ++ [fill]) =
      fillsOf symbol executed ++ if fill.symbol = symbol then [fill] else [] := by
  rw [fillsOf, List.filter_append, List.filter_singleton, ← fillsOf]
  by_cases own : fill.symbol = symbol
  · simp [own]
  · simp [own]

/-! ## The account of a position -/

/-- A position is the account of a list of fills. -/
structure Booked (arith : Arithmetic) (fills : List FillRecord) (position : PositionState) :
    Prop where
  netQty : position.netQty = arith.sum (fills.map fun fill => fill.signedQty arith)
  totalTradedQty : position.totalTradedQty = arith.sum (fills.map FillRecord.filledQty)
  totalFees : position.totalFees = arith.sum (fills.map FillRecord.fees)
  sourceOrders : position.sourceOrders = fills.map FillRecord.orderId
  sourceFills : position.sourceFills = fills.map FillRecord.recordId

/-- What is stored for a symbol accounts for a list of fills: nothing for no fill. -/
def Accounts (arith : Arithmetic) (fills : List FillRecord) : Option PositionState → Prop
  | none => fills = []
  | some position => Booked arith fills position

/-- An update books one more fill. -/
theorem updatePosition_booked {arith : Arithmetic} {venue : String} {env : CallEnv}
    {intent : ExecutionIntent} {orderId : String} {fill : FillRecord} {fills : List FillRecord}
    {existing : Option PositionState} {position : PositionState}
    (accounts : Accounts arith fills existing) (side : fill.side = intent.side)
    (order : fill.orderId = orderId)
    (updated : updatePosition arith venue env intent orderId fill existing = some position) :
    Booked arith (fills ++ [fill]) position := by
  obtain ⟨avgCost, _, made⟩ := Option.bind_eq_some_iff.mp updated
  cases made
  have before : Booked arith fills (existing.getD
      { positionId := env.positionId, symbol := intent.symbol, venue := some venue,
        updatedAt := env.clock 7 }) := by
    cases existing with
    | none =>
        obtain rfl : fills = [] := accounts
        exact ⟨rfl, rfl, rfl, rfl, rfl⟩
    | some position => exact accounts
  constructor
  · rw [List.map_append, List.map_singleton, Arithmetic.sum_append_singleton, ← before.netQty,
      FillRecord.signedQty, side]
  · rw [List.map_append, List.map_singleton, Arithmetic.sum_append_singleton,
      ← before.totalTradedQty]
  · rw [List.map_append, List.map_singleton, Arithmetic.sum_append_singleton, ← before.totalFees]
  · rw [List.map_append, List.map_singleton, ← before.sourceOrders, order]
  · rw [List.map_append, List.map_singleton, ← before.sourceFills]

/-- A submission that returns extends a run by its fill. -/
theorem Runs.extend {arith : Arithmetic} {first engine : SimulationExecutionEngine}
    {executed : List FillRecord} (runs : Runs arith first executed engine) (env : CallEnv)
    (intent : ExecutionIntent)
    (returns : (submitIntent arith engine env intent).2.toOption.isSome = true) :
    ∃ fill, Runs arith first (executed ++ [fill]) (submitIntent arith engine env intent).1 ∧
      fill.orderId = env.orderId ∧ fill.recordId = env.fillRecordId := by
  obtain ⟨report, returned⟩ := Option.isSome_iff_exists.mp returns
  have ran : submitIntent arith engine env intent =
      ((submitIntent arith engine env intent).1, .ok report) := by
    refine Prod.ext rfl ?_
    cases outcome : (submitIntent arith engine env intent).2 with
    | error e =>
        rw [outcome] at returned
        cases returned
    | ok made =>
        rw [outcome] at returned
        exact congrArg Except.ok (Option.some.inj returned)
  obtain ⟨_, fill, position, built, _, left⟩ := submitIntent_eq_ok arith engine env intent ran
  obtain ⟨orderId, recordId, _⟩ := buildFill_eq_some built
  refine ⟨fill, .submit runs ran ?_, orderId, recordId⟩
  rw [left, settled_fills, Function.update_self]

/-! ## The invariant -/

/-- An order is executed by a fill. -/
structure Executes (fill : FillRecord) (order : OrderRecord) : Prop where
  orderId : order.orderId = fill.orderId
  symbol : order.symbol = fill.symbol
  fills : order.fills = [fill.recordId]
  currentStatus : order.currentStatus = .filled
  statusHistory : Connected .submitted order.statusHistory .filled

theorem filledOrder_executes {arith : Arithmetic} {venue : String} {env : CallEnv}
    {intent : ExecutionIntent} {fill : FillRecord} (mode : ExecutionMode)
    (built : buildFill arith venue env intent env.orderId = some fill) :
    Executes fill (filledOrder env intent mode fill) := by
  obtain ⟨orderId, _, symbol, _⟩ := buildFill_eq_some built
  refine ⟨orderId.symm, symbol.symm, rfl, rfl, ?_⟩
  have submitted : Connected .submitted (newOrder env intent).statusHistory .submitted := rfl
  have acknowledged := OrderRecord.addTransition_connected
    { newOrder env intent with fills := [fill.recordId] } submitted .acknowledged (env.clock 3)
    (env.clock 4) (some "simulation_ack")
  exact OrderRecord.addTransition_connected _ acknowledged .filled _ _ _

/-- The maps of an engine agree with the fills of its run. -/
structure Ledger (arith : Arithmetic) (engine : SimulationExecutionEngine)
    (executed : List FillRecord) : Prop where
  positions : ∀ symbol, Accounts arith (fillsOf symbol executed) (engine.positions symbol)
  orders : ∀ id order, engine.orders id = some order →
    ∃ fill ∈ executed, fill.orderId = id ∧ Executes fill order
  fills : ∀ id records, engine.fills id = some records →
    ∃ fill ∈ executed, fill.orderId = id ∧ records = [fill]
  complete : ∀ fill ∈ executed, engine.fills fill.orderId = some [fill] ∧
    ∃ order, engine.orders fill.orderId = some order

/-- An engine that has executed nothing. -/
theorem Ledger.nil (arith : Arithmetic) {engine : SimulationExecutionEngine}
    (orders : ∀ id, engine.orders id = none) (fills : ∀ id, engine.fills id = none)
    (positions : ∀ symbol, engine.positions symbol = none) : Ledger arith engine [] where
  positions symbol := by
    rw [positions]
    rfl
  orders id order stored := by
    rw [orders] at stored
    cases stored
  fills id records stored := by
    rw [fills] at stored
    cases stored
  complete fill member := absurd member List.not_mem_nil

/-- **One submission keeps the ledger.** -/
theorem Ledger.submit {arith : Arithmetic} {engine next : SimulationExecutionEngine}
    {executed : List FillRecord} {env : CallEnv} {intent : ExecutionIntent}
    {report : ExecutionReport} {fill : FillRecord} (ledger : Ledger arith engine executed)
    (ran : submitIntent arith engine env intent = (next, .ok report))
    (stored : next.fills env.orderId = some [fill])
    (fresh : fill.orderId ∉ executed.map FillRecord.orderId) :
    Ledger arith next (executed ++ [fill]) := by
  obtain ⟨_, made, position, built, updated, rfl⟩ := submitIntent_eq_ok arith engine env intent ran
  obtain rfl : made = fill := by
    rw [settled_fills, Function.update_self] at stored
    exact List.head_eq_of_cons_eq (Option.some.inj stored)
  obtain ⟨orderId, _, symbol, side, _⟩ := buildFill_eq_some built
  have executes := filledOrder_executes engine.mode built
  have other : ∀ f ∈ executed, f.orderId ≠ env.orderId := by
    intro f member same
    exact fresh (List.mem_map.mpr ⟨f, member, same.trans orderId.symm⟩)
  constructor
  · intro name
    rw [fillsOf_append_singleton, settled_positions]
    by_cases own : made.symbol = name
    · subst own
      rw [if_pos rfl, symbol, Function.update_self]
      exact updatePosition_booked (symbol ▸ ledger.positions made.symbol) side orderId updated
    · rw [if_neg own, List.append_nil,
        Function.update_of_ne fun same => own (symbol.trans same.symm)]
      exact ledger.positions name
  · intro id order found
    rw [settled_orders] at found
    by_cases own : id = env.orderId
    · rw [own, Function.update_self] at found
      cases found
      exact ⟨made, by simp, own ▸ orderId, executes⟩
    · rw [Function.update_of_ne own] at found
      obtain ⟨f, member, filed⟩ := ledger.orders id order found
      exact ⟨f, List.mem_append_left _ member, filed⟩
  · intro id records found
    rw [settled_fills] at found
    by_cases own : id = env.orderId
    · rw [own, Function.update_self] at found
      cases found
      exact ⟨made, by simp, own ▸ orderId, rfl⟩
    · rw [Function.update_of_ne own] at found
      obtain ⟨f, member, filed⟩ := ledger.fills id records found
      exact ⟨f, List.mem_append_left _ member, filed⟩
  · intro f member
    rcases List.mem_append.mp member with earlier | last
    · obtain ⟨filed, order, found⟩ := ledger.complete f earlier
      rw [settled_fills, settled_orders, Function.update_of_ne (other f earlier),
        Function.update_of_ne (other f earlier)]
      exact ⟨filed, order, found⟩
    · obtain rfl := List.mem_singleton.mp last
      rw [orderId, settled_fills, settled_orders, Function.update_self, Function.update_self]
      exact ⟨rfl, _, rfl⟩

/-- **A run with fresh order identifiers keeps the ledger.** -/
theorem Runs.ledger {arith : Arithmetic} {first engine : SimulationExecutionEngine}
    {executed : List FillRecord} (runs : Runs arith first executed engine)
    (start : Ledger arith first []) (fresh : (executed.map FillRecord.orderId).Nodup) :
    Ledger arith engine executed := by
  induction runs with
  | nil => exact start
  | submit _ ran stored ih =>
      rw [List.map_append, List.map_singleton, List.nodup_append] at fresh
      refine (ih fresh.1).submit ran stored ?_
      intro seen
      exact fresh.2.2 _ seen _ (List.mem_singleton_self _) rfl

/-! ## The ledger of a run -/

/-- A total is the sum of a list in the engine's arithmetic, and its exact sum when
no running total is rounded. -/
def IsTotal (arith : Arithmetic) (xs : List ℚ) (total : ℚ) : Prop :=
  total = arith.sum xs ∧ (arith.Exact xs → total = xs.sum)

theorem isTotal_of_eq {arith : Arithmetic} {xs : List ℚ} {total : ℚ}
    (value : total = arith.sum xs) : IsTotal arith xs total :=
  ⟨value, fun exact => value.trans (arith.sum_eq_of_exact exact)⟩

/-- A total of decimals with one last place is their exact sum while the units of
that place have at most 28 digits. -/
theorem IsTotal.eq_sum_of_units {units : List ℤ} {k : ℤ} {total : ℚ}
    (isTotal : IsTotal decimalContext (units.map fun n : ℤ => (n : ℚ) * 10 ^ k) total)
    (small : (units.map fun n => |n|).sum < 10 ^ 28) :
    total = (units.map fun n : ℤ => (n : ℚ) * 10 ^ k).sum :=
  isTotal.2 (decimalContext_exact units k small)

/-- The orders of the fills of a symbol are the stored orders of the symbol. -/
theorem Ledger.mem_orderIds_iff {arith : Arithmetic} {engine : SimulationExecutionEngine}
    {executed : List FillRecord} (ledger : Ledger arith engine executed)
    (orderIds : (executed.map FillRecord.orderId).Nodup) (symbol id : String) :
    id ∈ (fillsOf symbol executed).map FillRecord.orderId ↔
      ∃ order, engine.orders id = some order ∧ order.symbol = symbol := by
  rw [List.mem_map]
  constructor
  · rintro ⟨fill, member, rfl⟩
    obtain ⟨executes, own⟩ := List.mem_filter.mp member
    obtain ⟨_, order, stored⟩ := ledger.complete fill executes
    obtain ⟨other, listed, same, filed⟩ := ledger.orders _ order stored
    obtain rfl : other = fill := List.inj_on_of_nodup_map orderIds listed executes same
    exact ⟨order, stored, filed.symbol.trans (of_decide_eq_true own)⟩
  · rintro ⟨order, stored, own⟩
    obtain ⟨fill, member, filed, executes⟩ := ledger.orders id order stored
    refine ⟨fill, List.mem_filter.mpr ⟨member, ?_⟩, filed⟩
    exact decide_eq_true (executes.symbol.symm.trans own)

/-- The records of the fills of a symbol are the stored fills of the symbol. -/
theorem Ledger.mem_recordIds_iff {arith : Arithmetic} {engine : SimulationExecutionEngine}
    {executed : List FillRecord} (ledger : Ledger arith engine executed) (symbol id : String) :
    id ∈ (fillsOf symbol executed).map FillRecord.recordId ↔
      ∃ orderId records, engine.fills orderId = some records ∧
        ∃ fill ∈ records, fill.symbol = symbol ∧ fill.recordId = id := by
  rw [List.mem_map]
  constructor
  · rintro ⟨fill, member, rfl⟩
    obtain ⟨executes, own⟩ := List.mem_filter.mp member
    exact ⟨fill.orderId, [fill], (ledger.complete fill executes).1, fill,
      List.mem_singleton_self fill, of_decide_eq_true own, rfl⟩
  · rintro ⟨orderId, records, stored, fill, member, own, rfl⟩
    obtain ⟨only, executes, _, rfl⟩ := ledger.fills orderId records stored
    obtain rfl := List.mem_singleton.mp member
    exact ⟨fill, List.mem_filter.mpr ⟨executes, decide_eq_true own⟩, rfl⟩

/-- **The ledger of a run.** After any number of submissions that return, each
position holds the totals of the fills of its symbol and lists its orders and its
fills in order, without duplicates and without omissions, and every stored order is
filled through a connected history. -/
theorem simulated_ledger (arith : Arithmetic) (mode : ExecutionMode) (venue : String)
    (executed : List FillRecord) (engine : SimulationExecutionEngine)
    (runs : Runs arith (SimulationExecutionEngine.start { mode := mode, venue := venue }) executed
      engine)
    (orderIds : (executed.map FillRecord.orderId).Nodup)
    (recordIds : (executed.map FillRecord.recordId).Nodup) :
    (∀ symbol, engine.positions symbol = none → fillsOf symbol executed = []) ∧
      (∀ symbol position, engine.positions symbol = some position →
        IsTotal arith ((fillsOf symbol executed).map fun fill => fill.signedQty arith)
            position.netQty ∧
          IsTotal arith ((fillsOf symbol executed).map FillRecord.filledQty)
            position.totalTradedQty ∧
          IsTotal arith ((fillsOf symbol executed).map FillRecord.fees) position.totalFees ∧
          position.sourceOrders = (fillsOf symbol executed).map FillRecord.orderId ∧
          position.sourceOrders.Nodup ∧
          (∀ id, id ∈ position.sourceOrders ↔
            ∃ order, engine.orders id = some order ∧ order.symbol = symbol) ∧
          position.sourceFills = (fillsOf symbol executed).map FillRecord.recordId ∧
          position.sourceFills.Nodup ∧
          (∀ id, id ∈ position.sourceFills ↔ ∃ orderId records, engine.fills orderId = some records ∧
            ∃ fill ∈ records, fill.symbol = symbol ∧ fill.recordId = id)) ∧
      ∀ id order, engine.orders id = some order →
        order.currentStatus = .filled ∧ Connected .submitted order.statusHistory .filled := by
  have ledger := runs.ledger (Ledger.nil arith (fun _ => rfl) (fun _ => rfl) fun _ => rfl) orderIds
  refine ⟨?_, ?_, ?_⟩
  · intro symbol missing
    have accounts := ledger.positions symbol
    rw [missing] at accounts
    exact accounts
  · intro symbol position found
    have booked := ledger.positions symbol
    rw [found] at booked
    have listed : (fillsOf symbol executed).Sublist executed := List.filter_sublist
    refine ⟨isTotal_of_eq booked.netQty, isTotal_of_eq booked.totalTradedQty,
      isTotal_of_eq booked.totalFees, booked.sourceOrders, ?_, ?_, booked.sourceFills, ?_, ?_⟩
    · rw [booked.sourceOrders]
      exact orderIds.sublist (listed.map _)
    · intro id
      rw [booked.sourceOrders]
      exact ledger.mem_orderIds_iff orderIds symbol id
    · rw [booked.sourceFills]
      exact recordIds.sublist (listed.map _)
    · intro id
      rw [booked.sourceFills]
      exact ledger.mem_recordIds_iff symbol id
  · intro id order stored
    obtain ⟨_, _, _, executes⟩ := ledger.orders id order stored
    exact ⟨executes.currentStatus, executes.statusHistory⟩

/-! ## A sample run -/

section Sample

set_option maxRecDepth 2000

/-- Ten shares are bought. -/
def boughtEngine : SimulationExecutionEngine :=
  (submitIntent decimalContext (SimulationExecutionEngine.start {}) (sampleCallEnv "1")
    (sampleIntent .buy 10 100)).1

/-- Then 25 are sold. -/
def soldEngine : SimulationExecutionEngine :=
  (submitIntent decimalContext boughtEngine (sampleCallEnv "2") (sampleIntent .sell 25 110)).1

theorem simulated_ledger_sample :
    ∃ position, soldEngine.positions "AAPL" = some position ∧ position.netQty = -15 ∧
      position.sourceOrders = ["sim-ord-1", "sim-ord-2"] ∧ position.sourceOrders.Nodup := by
  have start : Runs decimalContext (SimulationExecutionEngine.start {}) []
      (SimulationExecutionEngine.start {}) := .nil
  obtain ⟨bought, boughtRuns, boughtOrder, boughtRecord⟩ :=
    start.extend (sampleCallEnv "1") (sampleIntent .buy 10 100) (by with_unfolding_all decide)
  obtain ⟨sold, soldRuns, soldOrder, soldRecord⟩ :=
    boughtRuns.extend (sampleCallEnv "2") (sampleIntent .sell 25 110)
      (by with_unfolding_all decide)
  have net : (soldEngine.positions "AAPL").map PositionState.netQty = some (-15) := by
    with_unfolding_all decide
  have orders : (soldEngine.positions "AAPL").map PositionState.sourceOrders =
      some ["sim-ord-1", "sim-ord-2"] := by
    with_unfolding_all decide
  obtain ⟨position, found, quantity⟩ := Option.map_eq_some_iff.mp net
  rw [found] at orders
  have ledger := simulated_ledger decimalContext .simulation "SIMULATED" _ soldEngine soldRuns
    (by simp only [List.nil_append, List.map_cons, List.map_nil, List.cons_append, boughtOrder,
          soldOrder]; decide)
    (by simp only [List.nil_append, List.map_cons, List.map_nil, List.cons_append, boughtRecord,
          soldRecord]; decide)
  obtain ⟨_, _, _, _, nodup, _⟩ := ledger.2.1 "AAPL" position found
  exact ⟨position, found, quantity, Option.some.inj orders, nodup⟩

end Sample

end TradeOS.Execution
