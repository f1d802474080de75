import TradeOS.Data.Chain
import TradeOS.Execution.Simulation

/-!
# Failed submissions and terminal orders

A submission stores its order before it knows whether a fill can be built. A call
that raises leaves the maps alone exactly when it is refused before that point
(`failed_submission_unchanged_iff`); every other failure leaves an order behind,
and these are the orders that can be cancelled at all.

A filled or cancelled order should not change any more. The guards of `cancelOrder`
and `modifyOrder` protect only the filled ones. `terminal_orders_iff` is about every
run of the operations: terminal orders are kept by all of its steps exactly when no
step cancels a cancelled order or changes its quantity or price.
-/

set_option autoImplicit false

namespace TradeOS.Execution

open TradeOS.Chain TradeOS.Numeric

/-! ## Failed submissions -/

/-- The three maps are the same. -/
structure Unchanged (before after : SimulationExecutionEngine) : Prop where
  orders : after.orders = before.orders
  fills : after.fills = before.fills
  positions : after.positions = before.positions

section Failed

variable (arith : Arithmetic) (engine : SimulationExecutionEngine) (env : CallEnv)
  (intent : ExecutionIntent)

/-- A submission that is not refused stores an order under its identifier. -/
theorem submitIntent_orders (passed : ¬ Refused engine env intent) :
    ∃ order, (submitIntent arith engine env intent).1.orders =
      Function.update engine.orders env.orderId (some order) := by
  have outcome := submitIntent_cases arith engine env intent
  generalize submitIntent arith engine env intent = result at outcome
  cases outcome with
  | refused guard => exact absurd guard passed
  | unfilled _ _ => exact ⟨_, accepted_orders engine env intent⟩
  | unsettled _ _ _ => exact ⟨_, filled_orders engine env intent _⟩
  | settled _ _ _ => exact ⟨_, settled_orders engine env intent _ _⟩

theorem submitIntent_of_refused (guard : Refused engine env intent) :
    ∃ e, submitIntent arith engine env intent = (engine, .error e) := by
  have outcome := submitIntent_cases arith engine env intent
  generalize submitIntent arith engine env intent = result at outcome
  cases outcome with
  | refused _ e => exact ⟨e, rfl⟩
  | unfilled passed _ => exact absurd guard passed
  | unsettled passed _ _ => exact absurd guard passed
  | settled passed _ _ => exact absurd guard passed

/-- **A submission changes nothing exactly when it is refused before its order is
stored.** A refused submission raises; any other one, also when it raises, leaves
its order behind. The identifier of a new order is one that no stored order has. -/
theorem failed_submission_unchanged_iff :
    (Refused engine env intent →
        (∃ e, (submitIntent arith engine env intent).2 = .error e) ∧
          Unchanged engine (submitIntent arith engine env intent).1) ∧
      (engine.orders env.orderId = none →
        (Unchanged engine (submitIntent arith engine env intent).1 ↔
          Refused engine env intent)) := by
  have keeps : Refused engine env intent →
      (∃ e, (submitIntent arith engine env intent).2 = .error e) ∧
        Unchanged engine (submitIntent arith engine env intent).1 := by
    intro guard
    obtain ⟨e, ran⟩ := submitIntent_of_refused arith engine env intent guard
    rw [ran]
    exact ⟨⟨e, rfl⟩, rfl, rfl, rfl⟩
  refine ⟨keeps, fun fresh => ⟨fun same => ?_, fun guard => (keeps guard).2⟩⟩
  by_contra passed
  obtain ⟨order, stored⟩ := submitIntent_orders arith engine env intent passed
  have left : engine.orders env.orderId = some order := by
    rw [← same.orders, stored, Function.update_self]
  rw [fresh] at left
  cases left

end Failed

/-- A stopped engine changes nothing. -/
theorem failed_submission_unchanged_stopped :
    Unchanged {}
      (submitIntent decimalContext {} (sampleCallEnv "1") (sampleIntent .buy 10 100)).1 :=
  ((failed_submission_unchanged_iff decimalContext {} (sampleCallEnv "1")
    (sampleIntent .buy 10 100)).1 (.inl rfl)).2

/-- An intent whose fee rate is not a number. -/
def unpayableIntent : ExecutionIntent :=
  { sampleIntent .buy 10 100 with metadata := [("fee_bps", none)] }

/-- The submission raises and its order stays. -/
theorem failed_submission_leaves_order :
    let engine := SimulationExecutionEngine.start {}
    let left := submitIntent decimalContext engine (sampleCallEnv "1") unpayableIntent
    left.2 = .error .invalidDecimal ∧ ¬ Unchanged engine left.1 := by
  intro engine left
  refine ⟨rfl, fun same => ?_⟩
  have stored : left.1.orders "sim-ord-1" =
      some (newOrder (sampleCallEnv "1") unpayableIntent) := rfl
  rw [same.orders] at stored
  cases stored

/-! ## Runs of the engine -/

/-- The operations of a run. -/
inductive Operation where
  | start
  | stop
  | submit (env : CallEnv) (intent : ExecutionIntent)
  | cancel (env : CallEnv) (orderId : String) (reason : Option String)
  | modify (env : CallEnv) (orderId : String) (newQuantity newPrice : Option ℚ)

/-- The engine that an operation leaves behind, whether it returns or raises. -/
def Operation.apply (arith : Arithmetic) (operation : Operation)
    (engine : SimulationExecutionEngine) : SimulationExecutionEngine :=
  match operation with
  | .start => engine.start
  | .stop => engine.stop
  | .submit env intent => (submitIntent arith engine env intent).1
  | .cancel env orderId reason => (cancelOrder engine env orderId reason).1
  | .modify env orderId newQuantity newPrice =>
      (modifyOrder engine env orderId newQuantity newPrice).1

/-- A status that no operation should change. -/
def Terminal (order : OrderRecord) : Prop :=
  order.currentStatus = .filled ∨ order.currentStatus = .cancelled

/-- Two records of an order agree in status, history, quantity and price. -/
structure SameOrder (order other : OrderRecord) : Prop where
  currentStatus : other.currentStatus = order.currentStatus
  statusHistory : other.statusHistory = order.statusHistory
  quantity : other.quantity = order.quantity
  price : other.price = order.price

theorem SameOrder.refl (order : OrderRecord) : SameOrder order order := ⟨rfl, rfl, rfl, rfl⟩

theorem SameOrder.trans {first second third : OrderRecord} (start : SameOrder first second)
    (rest : SameOrder second third) : SameOrder first third where
  currentStatus := rest.currentStatus.trans start.currentStatus
  statusHistory := rest.statusHistory.trans start.statusHistory
  quantity := rest.quantity.trans start.quantity
  price := rest.price.trans start.price

/-- Every terminal order of one engine is kept in another. -/
def KeepsTerminal (before after : SimulationExecutionEngine) : Prop :=
  ∀ id order, before.orders id = some order → Terminal order →
    ∃ other, after.orders id = some other ∧ SameOrder order other

theorem keepsTerminal_of_orders {before after : SimulationExecutionEngine}
    (same : after.orders = before.orders) : KeepsTerminal before after := by
  intro id order stored _
  rw [← same] at stored
  exact ⟨order, stored, .refl order⟩

/-- An operation that rewrites one order keeps the terminal orders when that order
is not terminal, or not there. -/
theorem keepsTerminal_of_update {before after : SimulationExecutionEngine} {orderId : String}
    {order : OrderRecord}
    (updated : after.orders = Function.update before.orders orderId (some order))
    (free : ∀ old, before.orders orderId = some old → ¬ Terminal old) :
    KeepsTerminal before after := by
  intro id old stored terminal
  have other : id ≠ orderId := by
    rintro rfl
    exact free old stored terminal
  refine ⟨old, ?_, .refl old⟩
  rw [updated, Function.update_of_ne other]
  exact stored

theorem KeepsTerminal.trans {first second third : SimulationExecutionEngine}
    (start : KeepsTerminal first second) (rest : KeepsTerminal second third) :
    KeepsTerminal first third := by
  intro id order stored terminal
  obtain ⟨next, kept, same⟩ := start id order stored terminal
  have still : Terminal next := by
    unfold Terminal
    rw [same.currentStatus]
    exact terminal
  obtain ⟨last, found, again⟩ := rest id next kept still
  exact ⟨last, found, same.trans again⟩

/-- A step draws an unused identifier for its order. -/
def DrawsFresh (s : Step Operation SimulationExecutionEngine) : Prop :=
  match s.stage with
  | .submit env _ => s.before.orders env.orderId = none
  | _ => True

/-- A step rewrites a cancelled order: it cancels the order again, or gives it
another quantity or price. -/
def Rewrites (s : Step Operation SimulationExecutionEngine) : Prop :=
  match s.stage with
  | .cancel _ orderId _ =>
      ∃ order, s.before.orders orderId = some order ∧ order.currentStatus = .cancelled
  | .modify _ orderId newQuantity newPrice =>
      ∃ order, s.before.orders orderId = some order ∧ order.currentStatus = .cancelled ∧
        (newQuantity.getD order.quantity ≠ order.quantity ∨ newPrice.or order.price ≠ order.price)
  | _ => False

/-! ## One step -/

section Operations

variable {arith : Arithmetic} {engine : SimulationExecutionEngine} {env : CallEnv}
  {orderId : String}

theorem start_orders : engine.start.orders = engine.orders := by
  unfold SimulationExecutionEngine.start
  split <;> rfl

theorem stop_orders : engine.stop.orders = engine.orders := by
  unfold SimulationExecutionEngine.stop
  split <;> rfl

theorem storeOrder_orders (order : OrderRecord) :
    (engine.storeOrder orderId order).orders =
      Function.update engine.orders orderId (some order) :=
  rfl

theorem submit_keepsTerminal {intent : ExecutionIntent}
    (fresh : engine.orders env.orderId = none) :
    KeepsTerminal engine (submitIntent arith engine env intent).1 := by
  by_cases guard : Refused engine env intent
  · obtain ⟨e, ran⟩ := submitIntent_of_refused arith engine env intent guard
    rw [ran]
    exact keepsTerminal_of_orders rfl
  · obtain ⟨order, stored⟩ := submitIntent_orders arith engine env intent guard
    refine keepsTerminal_of_update stored ?_
    intro old found
    rw [fresh] at found
    cases found

/-- The two guarded operations share one shape: a missing or filled order is refused,
and any other is rewritten. Such an operation keeps the terminal orders exactly when
it leaves a cancelled order as it is. -/
theorem guarded_keepsTerminal_iff {after : SimulationExecutionEngine}
    (change : OrderRecord → OrderRecord)
    (missing : engine.orders orderId = none → after = engine)
    (refused : ∀ order, engine.orders orderId = some order → order.currentStatus = .filled →
      after = engine)
    (rewritten : ∀ order, engine.orders orderId = some order → order.currentStatus ≠ .filled →
      after = engine.storeOrder orderId (change order)) :
    KeepsTerminal engine after ↔
      ¬ ∃ order, engine.orders orderId = some order ∧ order.currentStatus = .cancelled ∧
        ¬ SameOrder order (change order) := by
  constructor
  · rintro keeps ⟨order, stored, isCancelled, changes⟩
    obtain ⟨other, found, same⟩ := keeps orderId order stored (.inr isCancelled)
    have notFilled : order.currentStatus ≠ .filled := by
      rw [isCancelled]
      decide
    rw [rewritten order stored notFilled, storeOrder_orders, Function.update_self] at found
    obtain rfl := Option.some.inj found
    exact changes same
  · intro kept id old found terminal
    cases stored : engine.orders orderId with
    | none =>
        rw [missing stored]
        exact ⟨old, found, .refl old⟩
    | some order =>
        by_cases isFilled : order.currentStatus = .filled
        · rw [refused order stored isFilled]
          exact ⟨old, found, .refl old⟩
        · rw [rewritten order stored isFilled, storeOrder_orders]
          by_cases own : id = orderId
          · subst own
            rw [stored] at found
            obtain rfl := Option.some.inj found
            refine ⟨change order, Function.update_self _ _ _, ?_⟩
            by_contra changes
            exact kept ⟨order, stored, terminal.resolve_left isFilled, changes⟩
          · exact ⟨old, (Function.update_of_ne own _ _).trans found, .refl old⟩

/-- A cancellation adds to the history of its order. -/
theorem not_sameOrder_addTransition (order : OrderRecord) (status : ExecutionStatus)
    (timestamp updatedAt : Timestamp) (reason : Option String) :
    ¬ SameOrder order (order.addTransition status timestamp updatedAt reason) := by
  intro same
  have longer := congrArg List.length same.statusHistory
  rw [OrderRecord.addTransition, List.length_append, List.length_singleton] at longer
  omega

/-- A cancellation keeps the terminal orders exactly when the order is not
cancelled already. -/
theorem cancel_keepsTerminal_iff {reason : Option String} :
    KeepsTerminal engine (cancelOrder engine env orderId reason).1 ↔
      ¬ ∃ order, engine.orders orderId = some order ∧ order.currentStatus = .cancelled := by
  rw [guarded_keepsTerminal_iff
    (fun order => order.addTransition .cancelled (env.clock 0) (env.clock 1) reason)
    (fun missing => by rw [cancelOrder, missing])
    (fun order stored isFilled => by simp only [cancelOrder, stored, if_pos isFilled])
    (fun order stored notFilled => by simp only [cancelOrder, stored, if_neg notFilled])]
  simp only [not_sameOrder_addTransition, not_false_eq_true, and_true]

/-- A modification keeps the terminal orders exactly when it does not change a
cancelled one. -/
theorem modify_keepsTerminal_iff {newQuantity newPrice : Option ℚ} :
    KeepsTerminal engine (modifyOrder engine env orderId newQuantity newPrice).1 ↔
      ¬ ∃ order, engine.orders orderId = some order ∧ order.currentStatus = .cancelled ∧
        (newQuantity.getD order.quantity ≠ order.quantity ∨
          newPrice.or order.price ≠ order.price) := by
  have changed : ∀ order : OrderRecord, SameOrder order
      { order with
        quantity := newQuantity.getD order.quantity, price := newPrice.or order.price } ↔
      newQuantity.getD order.quantity = order.quantity ∧ newPrice.or order.price = order.price :=
    fun order => ⟨fun same => ⟨same.quantity, same.price⟩, fun same => ⟨rfl, rfl, same.1, same.2⟩⟩
  rw [guarded_keepsTerminal_iff
    (fun order => { order with
      quantity := newQuantity.getD order.quantity, price := newPrice.or order.price })
    (fun missing => by rw [modifyOrder, missing])
    (fun order stored isFilled => by simp only [modifyOrder, stored, if_pos isFilled])
    (fun order stored notFilled => by simp only [modifyOrder, stored, if_neg notFilled])]
  simp only [changed, not_and_or, ne_eq]

end Operations

/-- **One step keeps the terminal orders exactly when it rewrites no cancelled
one.** -/
theorem apply_keepsTerminal_iff {arith : Arithmetic} {operation : Operation}
    {engine : SimulationExecutionEngine}
    (fresh : DrawsFresh ⟨operation, engine, operation.apply arith engine⟩) :
    KeepsTerminal engine (operation.apply arith engine) ↔
      ¬ Rewrites ⟨operation, engine, operation.apply arith engine⟩ := by
  cases operation with
  | start => exact iff_of_true (keepsTerminal_of_orders start_orders) id
  | stop => exact iff_of_true (keepsTerminal_of_orders stop_orders) id
  | submit env intent => exact iff_of_true (submit_keepsTerminal fresh) id
  | cancel env orderId reason => exact cancel_keepsTerminal_iff
  | modify env orderId newQuantity newPrice => exact modify_keepsTerminal_iff

/-! ## Runs -/

section Runs

variable (arith : Arithmetic)

theorem keepsTerminal_run (operations : List Operation) (engine : SimulationExecutionEngine)
    (keeps : ∀ s ∈ steps (Operation.apply arith) operations engine,
      KeepsTerminal s.before s.after) :
    KeepsTerminal engine (result (Operation.apply arith) operations engine) := by
  induction operations generalizing engine with
  | nil => exact keepsTerminal_of_orders rfl
  | cons operation operations ih =>
      rw [steps_cons, List.forall_mem_cons] at keeps
      exact keeps.1.trans (ih _ keeps.2)

/-- **Terminal orders are absorbing along a run exactly when no step rewrites a
cancelled order.** The steps of such a run keep every terminal order, and so does
the run as a whole, from any of its states on. -/
theorem terminal_orders_iff (operations : List Operation) (engine : SimulationExecutionEngine)
    (fresh : ∀ s ∈ steps (Operation.apply arith) operations engine, DrawsFresh s) :
    ((∀ s ∈ steps (Operation.apply arith) operations engine, KeepsTerminal s.before s.after) ↔
        ∀ s ∈ steps (Operation.apply arith) operations engine, ¬ Rewrites s) ∧
      ((∀ s ∈ steps (Operation.apply arith) operations engine, ¬ Rewrites s) →
        KeepsTerminal engine (result (Operation.apply arith) operations engine)) := by
  have stepwise : (∀ s ∈ steps (Operation.apply arith) operations engine,
        KeepsTerminal s.before s.after) ↔
      ∀ s ∈ steps (Operation.apply arith) operations engine, ¬ Rewrites s := by
    refine forall₂_congr ?_
    intro s member
    have after := (step_eq member).2
    have drawn := fresh s member
    obtain ⟨operation, before, last⟩ := s
    obtain rfl : last = operation.apply arith before := after
    exact apply_keepsTerminal_iff drawn
  exact ⟨stepwise, fun safe => keepsTerminal_run arith operations engine (stepwise.mpr safe)⟩

end Runs

/-- A submission that leaves its order behind, and its cancellation. -/
def cancelledRun : List Operation :=
  [.start, .submit (sampleCallEnv "1") unpayableIntent,
    .cancel (sampleCallEnv "2") "sim-ord-1" none]

/-- The order of that run is not touched by a later submission. -/
theorem terminal_orders_sample :
    KeepsTerminal (result (Operation.apply decimalContext) cancelledRun {})
      (result (Operation.apply decimalContext)
        [.submit (sampleCallEnv "3") (sampleIntent .buy 10 100)]
        (result (Operation.apply decimalContext) cancelledRun {})) := by
  refine (terminal_orders_iff decimalContext
    [.submit (sampleCallEnv "3") (sampleIntent .buy 10 100)] _ ?_).2 ?_
  · simp only [steps_cons, steps_nil, List.forall_mem_cons]
    exact ⟨rfl, by simp⟩
  · simp only [steps_cons, steps_nil, List.forall_mem_cons]
    exact ⟨id, by simp⟩

/-- **A cancelled order can be cancelled again and modified.** The second
cancellation adds to the history of the order; a modification changes its quantity. -/
theorem cancelled_order_rewritten :
    let cancelled := result (Operation.apply decimalContext) cancelledRun {}
    let again := Operation.apply decimalContext (.cancel (sampleCallEnv "3") "sim-ord-1" none)
      cancelled
    let changed := Operation.apply decimalContext
      (.modify (sampleCallEnv "3") "sim-ord-1" (some 7) none) cancelled
    (∃ order, cancelled.orders "sim-ord-1" = some order ∧ order.currentStatus = .cancelled ∧
        order.statusHistory.length = 1 ∧ order.quantity = 10) ∧
      (∃ order, again.orders "sim-ord-1" = some order ∧ order.statusHistory.length = 2) ∧
      (∃ order, changed.orders "sim-ord-1" = some order ∧ order.quantity = 7) ∧
      ¬ KeepsTerminal cancelled again ∧ ¬ KeepsTerminal cancelled changed := by
  intro cancelled again changed
  refine ⟨⟨_, rfl, rfl, rfl, rfl⟩, ⟨_, rfl, rfl⟩, ⟨_, rfl, rfl⟩, fun keeps => ?_, fun keeps => ?_⟩
  · obtain ⟨other, found, same⟩ := keeps "sim-ord-1" _ rfl (.inr rfl)
    obtain rfl := Option.some.inj found
    exact absurd (congrArg List.length same.statusHistory) (by with_unfolding_all decide)
  · obtain ⟨other, found, same⟩ := keeps "sim-ord-1" _ rfl (.inr rfl)
    obtain rfl := Option.some.inj found
    exact absurd same.quantity (by with_unfolding_all decide)

end TradeOS.Execution
