import TradeOS.Execution.Ledger
import TradeOS.Execution.Runtime

/-!
# Engines that share their sinks

The engines of a router know nothing of each other, and their sinks may be shared. What a sink
holds is then an interleaving of what its engines did.

The books can still be kept from the sinks alone. As long as the engines of one sink have
different venues, every position of every engine is the account of the fills of its sink that
name its venue and its symbol, whatever is started, stopped, executed, cancelled, modified or
closed in between (`shared_sinks_keep_accounts`).

What one call may do to an engine and its sink is `Settles`: submissions, cancellations and
modifications do (`submitRecorded_settles`, `settles_of_updates`). `Kept` is the invariant of the
router.
-/

set_option autoImplicit false

namespace TradeOS.Execution

open TradeOS.Numeric

/-- The fills that name a venue. -/
def venueFills (venue : String) (fills : List FillRecord) : List FillRecord :=
  fills.filter fun fill => fill.venue = some venue

theorem venueFills_append (venue : String) (fills others : List FillRecord) :
    venueFills venue (fills ++ others) = venueFills venue fills ++ venueFills venue others :=
  List.filter_append ..

theorem venueFills_of_forall {venue : String} {fills : List FillRecord}
    (own : ∀ fill ∈ fills, fill.venue = some venue) : venueFills venue fills = fills :=
  List.filter_eq_self.mpr fun fill member => decide_eq_true (own fill member)

theorem venueFills_of_ne {venue other : String} {fills : List FillRecord}
    (own : ∀ fill ∈ fills, fill.venue = some venue) (different : venue ≠ other) :
    venueFills other fills = [] := by
  refine List.filter_eq_nil_iff.mpr fun fill member same => different ?_
  exact Option.some.inj ((own fill member).symm.trans (of_decide_eq_true same))

/-! ## One call -/

/-- The lists of a sink agree: a fill for every intent that settled, and a position and a filled
report for every fill. -/
structure Agrees (sink : MemoryEventSink) : Prop where
  intents : List.Sublist (sink.fills.map FillRecord.intentId)
    (sink.intents.map ExecutionIntent.intentId)
  positions : (sink.positions.map fun place => (some place.1, place.2)) =
    sink.fills.map fun fill => (fill.venue, fill.symbol)
  reports : ((sink.reports.filter fun report => report.status = .filled).map
    fun report => report.orderId) = sink.fills.map fun fill => some fill.orderId

/-- The positions of an engine are the accounts of a list of fills. -/
def Keeps (arith : Arithmetic) (engine : SimulationExecutionEngine) (fills : List FillRecord) :
    Prop :=
  ∀ symbol, Accounts arith (fillsOf symbol fills) (engine.positions symbol)

/-- What a call may do to an engine and its sink: the fills that the sink gains are of the venue
of the engine, and the engine books them. -/
structure Settles (arith : Arithmetic) (engine : SimulationExecutionEngine)
    (sink : MemoryEventSink) (next : SimulationExecutionEngine) (after : MemoryEventSink) :
    Prop where
  venue : next.venue = engine.venue
  closed : after.closed = sink.closed
  agrees : Agrees sink → Agrees after
  gained : ∃ gained, after.fills = sink.fills ++ gained ∧
    (∀ fill ∈ gained, fill.venue = some engine.venue) ∧
    ∀ executed, Keeps arith engine executed → Keeps arith next (executed ++ gained)

theorem buildFill_names {arith : Arithmetic} {venue : String} {env : CallEnv}
    {intent : ExecutionIntent} {orderId : String} {fill : FillRecord}
    (built : buildFill arith venue env intent orderId = some fill) :
    fill.intentId = intent.intentId ∧ fill.venue = some venue := by
  simp only [buildFill, Option.bind_eq_bind, Option.bind_eq_some_iff] at built
  obtain ⟨_, _, _, _, _, _, _, _, _, _, made⟩ := built
  cases made
  exact ⟨rfl, rfl⟩

section Calls

variable (arith : Arithmetic) (engine : SimulationExecutionEngine) (sink : MemoryEventSink)
  (env : CallEnv)

/-- A call that changes no position and writes no fill. -/
theorem settles_of_positions {next : SimulationExecutionEngine} {after : MemoryEventSink}
    (venue : next.venue = engine.venue) (positions : next.positions = engine.positions)
    (closed : after.closed = sink.closed) (agrees : Agrees sink → Agrees after)
    (fills : after.fills = sink.fills) : Settles arith engine sink next after := by
  refine ⟨venue, closed, agrees, [], ?_, fun fill member => absurd member List.not_mem_nil, ?_⟩
  · rw [fills, List.append_nil]
  · intro executed keeps symbol
    rw [List.append_nil, positions]
    exact keeps symbol

theorem Agrees.writeIntent {sink : MemoryEventSink} (agrees : Agrees sink)
    (intent : ExecutionIntent) : Agrees (sink.writeIntent intent) := by
  refine ⟨?_, agrees.positions, agrees.reports⟩
  rw [MemoryEventSink.writeIntent, List.map_append]
  exact agrees.intents.trans (List.sublist_append_left _ _)

theorem Agrees.writeReport {sink : MemoryEventSink} (agrees : Agrees sink)
    {report : ExecutionReport} (other : report.status ≠ .filled) :
    Agrees (sink.writeReport report) := by
  refine ⟨agrees.intents, agrees.positions, ?_⟩
  rw [MemoryEventSink.writeReport, List.filter_append]
  simpa [other] using agrees.reports

theorem agrees_recordAll {sink : MemoryEventSink} (agrees : Agrees sink)
    {intent : ExecutionIntent} {fill : FillRecord}
    (built : buildFill arith engine.venue env intent env.orderId = some fill) :
    Agrees (recordAll engine sink env intent fill) := by
  obtain ⟨orderId, _, symbol, _⟩ := buildFill_eq_some built
  obtain ⟨intentId, venue⟩ := buildFill_names built
  constructor
  · simp only [recordAll, MemoryEventSink.writeReport, MemoryEventSink.writePosition,
      MemoryEventSink.writeFill, MemoryEventSink.writeIntent, List.map_append, List.map_singleton]
    rw [intentId]
    exact agrees.intents.append (List.Sublist.refl _)
  · simp only [recordAll, MemoryEventSink.writeReport, MemoryEventSink.writePosition,
      MemoryEventSink.writeFill, MemoryEventSink.writeIntent, List.map_append, List.map_singleton]
    rw [agrees.positions, venue, symbol]
  · simp only [recordAll, MemoryEventSink.writeReport, MemoryEventSink.writePosition,
      MemoryEventSink.writeFill, MemoryEventSink.writeIntent, List.map_append, List.map_singleton,
      List.filter_append]
    rw [agrees.reports, orderId]
    rfl

/-- **A submission settles.** -/
theorem submitRecorded_settles (intent : ExecutionIntent) :
    Settles arith engine sink (submitRecorded arith engine sink env intent).1
      (submitRecorded arith engine sink env intent).2.1 := by
  have outcome := submitRecorded_cases arith engine sink env intent
  generalize submitRecorded arith engine sink env intent = result at outcome
  cases outcome with
  | refused guard e => exact settles_of_positions arith engine sink rfl rfl rfl id rfl
  | unfilled passed built =>
      exact settles_of_positions arith engine sink rfl rfl rfl (fun agrees => agrees.writeIntent _)
        rfl
  | unsettled passed built updated =>
      exact settles_of_positions arith engine sink rfl rfl rfl (fun agrees => agrees.writeIntent _)
        rfl
  | @settled passed fill position built updated result =>
      obtain ⟨orderId, _, symbol, side, _⟩ := buildFill_eq_some built
      refine ⟨rfl, rfl, fun agrees => agrees_recordAll arith engine env agrees built, [fill], rfl, ?_, ?_⟩
      · intro made member
        rw [List.mem_singleton.mp member]
        exact (buildFill_names built).2
      · intro executed keeps name
        rw [fillsOf_append_singleton, settled_positions]
        by_cases own : fill.symbol = name
        · subst own
          rw [if_pos rfl, symbol, Function.update_self]
          exact updatePosition_booked (symbol ▸ keeps fill.symbol) side orderId updated
        · rw [if_neg own, List.append_nil,
            Function.update_of_ne fun same => own (symbol.trans same.symm)]
          exact keeps name

theorem reported_eq_ok {report made : ExecutionReport} (ran : reported env report = .ok made) :
    made = report := by
  unfold reported at ran
  by_cases raised : env.raises .writeReport = true
  · rw [if_pos raised] at ran
    cases ran
  · rw [if_neg raised] at ran
    exact (Except.ok.inj ran).symm

/-- What a cancellation or a modification can do: fail, or store an order that is not filled and
report on it. -/
def Updates (outcome : SimulationExecutionEngine × Except ExecutionError ExecutionReport) : Prop :=
  (∃ e, outcome = (engine, .error e)) ∨
    ∃ orderId order report, report.status ≠ ExecutionStatus.filled ∧
      outcome = (engine.storeOrder orderId order, reported env report)

theorem cancelOrder_updates (orderId : String) (reason : Option String) :
    Updates engine env (cancelOrder engine env orderId reason) := by
  unfold cancelOrder
  cases engine.orders orderId with
  | none => exact .inl ⟨_, rfl⟩
  | some order =>
      by_cases done : order.currentStatus = .filled
      · exact .inl ⟨_, if_pos done⟩
      · exact .inr ⟨_, _, _, by simp [updateReport], if_neg done⟩

theorem modifyOrder_updates (orderId : String) (newQuantity newPrice : Option ℚ) :
    Updates engine env (modifyOrder engine env orderId newQuantity newPrice) := by
  unfold modifyOrder
  cases engine.orders orderId with
  | none => exact .inl ⟨_, rfl⟩
  | some order =>
      by_cases done : order.currentStatus = .filled
      · exact .inl ⟨_, if_pos done⟩
      · exact .inr ⟨_, _, _, done, if_neg done⟩

/-- **A cancellation or a modification settles nothing.** -/
theorem settles_of_updates
    {outcome : SimulationExecutionEngine × Except ExecutionError ExecutionReport}
    (updates : Updates engine env outcome) :
    Settles arith engine sink outcome.1 (reportedTo sink outcome.2) := by
  obtain ⟨e, rfl⟩ | ⟨orderId, order, report, other, rfl⟩ := updates
  · exact settles_of_positions arith engine sink rfl rfl rfl id rfl
  · cases ran : reported env report with
    | error e => exact settles_of_positions arith engine sink rfl rfl rfl id rfl
    | ok made =>
        obtain rfl := reported_eq_ok env ran
        exact settles_of_positions arith engine sink rfl rfl rfl
          (fun agrees => agrees.writeReport other) rfl

theorem cancelRecorded_settles (orderId : String) (reason : Option String) :
    Settles arith engine sink (cancelRecorded engine sink env orderId reason).1
      (cancelRecorded engine sink env orderId reason).2.1 :=
  settles_of_updates arith engine sink _ (cancelOrder_updates engine _ orderId reason)

theorem modifyRecorded_settles (orderId : String) (newQuantity newPrice : Option ℚ) :
    Settles arith engine sink (modifyRecorded engine sink env orderId newQuantity newPrice).1
      (modifyRecorded engine sink env orderId newQuantity newPrice).2.1 :=
  settles_of_updates arith engine sink _
    (modifyOrder_updates engine _ orderId newQuantity newPrice)

end Calls

/-! ## The engines of a router -/

/-- The venue and the sink of the engine under a key. -/
def SimulationRouter.wiring (router : SimulationRouter) (key : String) : Option (String × ℕ) :=
  (router.engines key).map fun attached => (attached.engine.venue, attached.sink)

/-- The engines of one sink have different venues. -/
def SimulationRouter.Separate (router : SimulationRouter) : Prop :=
  ∀ key other place, router.wiring key = some place → router.wiring other = some place →
    key = other

/-- The sinks of a router agree, and account for the positions of its engines. -/
structure Kept (arith : Arithmetic) (router : SimulationRouter) : Prop where
  separate : router.Separate
  sinks : ∀ n, Agrees (router.sinks n)
  accounts : ∀ key attached, router.engines key = some attached →
    Keeps arith attached.engine
      (venueFills attached.engine.venue (router.sinks attached.sink).fills)

section Router

variable {arith : Arithmetic} {router : SimulationRouter}

theorem wiring_of_engines {key : String} {attached : Attached}
    (found : router.engines key = some attached) :
    router.wiring key = some (attached.engine.venue, attached.sink) := by
  rw [SimulationRouter.wiring, found, Option.map_some]

theorem store_wiring {key : String} {attached : Attached}
    (found : router.engines key = some attached) {next : SimulationExecutionEngine}
    (venue : next.venue = attached.engine.venue) (after : MemoryEventSink) :
    (router.store key { attached with engine := next } after).wiring = router.wiring := by
  funext other
  rw [SimulationRouter.wiring, SimulationRouter.wiring, SimulationRouter.store_engines]
  by_cases own : other = key
  · subst own
    rw [Function.update_self, found]
    simp [venue]
  · rw [Function.update_of_ne own]

/-- **A call to one engine keeps the books of all.** -/
theorem Kept.store (kept : Kept arith router) {key : String} {attached : Attached}
    (found : router.engines key = some attached) {next : SimulationExecutionEngine}
    {after : MemoryEventSink}
    (settles : Settles arith attached.engine (router.sinks attached.sink) next after) :
    Kept arith (router.store key { attached with engine := next } after) := by
  obtain ⟨gained, fills, named, books⟩ := settles.gained
  constructor
  · intro first second place
    rw [store_wiring found settles.venue after]
    exact kept.separate first second place
  · intro n
    rw [SimulationRouter.store_sinks]
    by_cases own : n = attached.sink
    · subst own
      rw [Function.update_self]
      exact settles.agrees (kept.sinks attached.sink)
    · rw [Function.update_of_ne own]
      exact kept.sinks n
  · intro other engine stored
    rw [SimulationRouter.store_engines] at stored
    rw [SimulationRouter.store_sinks]
    by_cases own : other = key
    · subst own
      rw [Function.update_self] at stored
      cases stored
      rw [Function.update_self, fills, venueFills_append, settles.venue,
        venueFills_of_forall named]
      exact books _ (kept.accounts other attached found)
    · rw [Function.update_of_ne own] at stored
      by_cases shared : engine.sink = attached.sink
      · have different : attached.engine.venue ≠ engine.engine.venue := by
          intro same
          have here := wiring_of_engines stored
          rw [← same, shared] at here
          exact own (kept.separate other key _ here (wiring_of_engines found))
        dsimp only
        rw [shared, Function.update_self, fills, venueFills_append,
          venueFills_of_ne named different, List.append_nil, ← shared]
        exact kept.accounts other engine stored
      · dsimp only
        rw [Function.update_of_ne shared]
        exact kept.accounts other engine stored

/-- A change of the engines alone that keeps their venues and positions. -/
theorem Kept.map (kept : Kept arith router)
    {change : SimulationExecutionEngine → SimulationExecutionEngine}
    (venue : ∀ engine, (change engine).venue = engine.venue)
    (positions : ∀ engine, (change engine).positions = engine.positions) :
    Kept arith { router with engines := fun key => (router.engines key).map fun attached =>
      { attached with engine := change attached.engine } } := by
  constructor
  · intro key other place
    simp only [SimulationRouter.wiring, Option.map_map, Function.comp_def, venue]
    exact kept.separate key other place
  · exact kept.sinks
  · intro key engine stored
    obtain ⟨attached, found, rfl⟩ := Option.map_eq_some_iff.mp stored
    intro symbol
    dsimp only
    rw [positions, venue]
    exact kept.accounts key attached found symbol

theorem start_venue (engine : SimulationExecutionEngine) : engine.start.venue = engine.venue := by
  unfold SimulationExecutionEngine.start
  cases engine.running with
  | true => rfl
  | false => rfl

theorem start_positions (engine : SimulationExecutionEngine) :
    engine.start.positions = engine.positions := by
  unfold SimulationExecutionEngine.start
  cases engine.running with
  | true => rfl
  | false => rfl

theorem stop_venue (engine : SimulationExecutionEngine) : engine.stop.venue = engine.venue := by
  unfold SimulationExecutionEngine.stop
  cases engine.running with
  | true => rfl
  | false => rfl

theorem stop_positions (engine : SimulationExecutionEngine) :
    engine.stop.positions = engine.positions := by
  unfold SimulationExecutionEngine.stop
  cases engine.running with
  | true => rfl
  | false => rfl

theorem Kept.startAll (kept : Kept arith router) : Kept arith router.startAll :=
  kept.map start_venue start_positions

theorem Kept.stopAll (kept : Kept arith router) : Kept arith router.stopAll :=
  kept.map stop_venue stop_positions

theorem Kept.callEngine (kept : Kept arith router) {β : Type} (key : String)
    {work : SimulationExecutionEngine → MemoryEventSink →
      SimulationExecutionEngine × MemoryEventSink × β}
    (settles : ∀ engine sink, Settles arith engine sink (work engine sink).1
      (work engine sink).2.1) : Kept arith (router.callEngine key work) := by
  unfold SimulationRouter.callEngine
  cases found : router.engines key with
  | none => exact kept
  | some attached => exact kept.store found (settles _ _)

/-- A routed request is one for the engine under its target. -/
theorem route_eq_ok {intent : RoutedIntent} {attached : Attached}
    (routed : router.route intent = .ok attached) :
    router.engines (router.targetVenue intent.venue) = some attached := by
  unfold SimulationRouter.route at routed
  by_cases unnamed : router.targetVenue intent.venue = ""
  · rw [if_pos unnamed] at routed
    cases routed
  · rw [if_neg unnamed] at routed
    cases found : router.engines (router.targetVenue intent.venue) with
    | none =>
        rw [found] at routed
        cases routed
    | some engine =>
        rw [found] at routed
        rw [Except.ok.inj routed]

theorem Kept.dispatch (kept : Kept arith router) (request : CallEnv × RoutedIntent) :
    Kept arith (router.dispatch arith request).1 := by
  unfold SimulationRouter.dispatch
  cases routed : router.route request.2 with
  | error e => exact kept
  | ok attached =>
      exact kept.store (route_eq_ok routed)
        (submitRecorded_settles arith attached.engine _ request.1 request.2.toExecutionIntent)

theorem Kept.closeSink (kept : Kept arith router) (n : ℕ) : Kept arith (router.closeSink n) := by
  have lists : ∀ m, (Function.update router.sinks n (router.sinks n).close m).fills =
      (router.sinks m).fills := by
    intro m
    by_cases own : m = n
    · subst own
      rw [Function.update_self]
      rfl
    · rw [Function.update_of_ne own]
  refine ⟨kept.separate, fun m => ?_, fun key attached found => ?_⟩
  · by_cases own : m = n
    · subst own
      rw [SimulationRouter.closeSink_sinks, Function.update_self]
      exact ⟨(kept.sinks m).intents, (kept.sinks m).positions, (kept.sinks m).reports⟩
    · rw [SimulationRouter.closeSink_sinks, Function.update_of_ne own]
      exact kept.sinks m
  · rw [SimulationRouter.closeSink_sinks, lists]
    exact kept.accounts key attached found

/-- A router whose engines have the names of their keys. -/
theorem separate_of_named
    (named : ∀ key attached, router.engines key = some attached → attached.engine.venue = key) :
    router.Separate := by
  intro key other place first second
  obtain ⟨attached, found, rfl⟩ := Option.map_eq_some_iff.mp first
  obtain ⟨engine, stored, same⟩ := Option.map_eq_some_iff.mp second
  rw [← named key attached found, ← named other engine stored]
  exact (Prod.ext_iff.mp same).1.symm

end Router

/-! ## Runs -/

/-- What can be asked of a runtime, its engines and its sinks. -/
inductive SystemCall where
  | start (now : Timestamp)
  | stop (now : Timestamp)
  | restart (now later : Timestamp)
  | execute (env : CallEnv) (intent : RoutedIntent)
  | cancel (key : String) (env : CallEnv) (orderId : String) (reason : Option String)
  | modify (key : String) (env : CallEnv) (orderId : String) (newQuantity newPrice : Option ℚ)
  | close (sink : ℕ)

/-- The runtime after a call, whether it returns or raises. -/
def SystemCall.apply (arith : Arithmetic) (runtime : ExecutionRuntime SimulationRouter) :
    SystemCall → ExecutionRuntime SimulationRouter
  | .start now => (runtime.start (simulationInterface arith) now).1
  | .stop now => (runtime.stop (simulationInterface arith) now).1
  | .restart now later => (runtime.restart (simulationInterface arith) now later).1
  | .execute env intent => (runtime.execute (simulationInterface arith) (env, intent)).1
  | .cancel key env orderId reason =>
      { runtime with
        router := runtime.router.callEngine key fun engine sink =>
          cancelRecorded engine sink env orderId reason }
  | .modify key env orderId newQuantity newPrice =>
      { runtime with
        router := runtime.router.callEngine key fun engine sink =>
          modifyRecorded engine sink env orderId newQuantity newPrice }
  | .close sink => { runtime with router := runtime.router.closeSink sink }

section Runs

variable {arith : Arithmetic} {runtime : ExecutionRuntime SimulationRouter}

theorem kept_start (kept : Kept arith runtime.router) (now : Timestamp) :
    Kept arith (runtime.start (simulationInterface arith) now).1.router := by
  unfold ExecutionRuntime.start
  by_cases running : runtime.status = .running
  · rw [if_pos running]
    exact kept
  · rw [if_neg running]
    exact kept.startAll

theorem kept_stop (kept : Kept arith runtime.router) (now : Timestamp) :
    Kept arith (runtime.stop (simulationInterface arith) now).1.router := by
  unfold ExecutionRuntime.stop
  by_cases stopped : runtime.status = .stopped
  · rw [if_pos stopped]
    exact kept
  · rw [if_neg stopped]
    exact kept.stopAll

/-- **Every call keeps the books.** -/
theorem kept_apply (kept : Kept arith runtime.router) (call : SystemCall) :
    Kept arith (call.apply arith runtime).router := by
  cases call with
  | start now => exact kept_start kept now
  | stop now => exact kept_stop kept now
  | restart now later =>
      have left := kept_stop kept now
      simp only [SystemCall.apply, ExecutionRuntime.restart]
      generalize runtime.stop (simulationInterface arith) now = stopped at left
      obtain ⟨after, error⟩ := stopped
      cases error with
      | none => exact kept_start left later
      | some text => exact left
  | execute env intent =>
      simp only [SystemCall.apply, ExecutionRuntime.execute]
      by_cases idle : runtime.status ≠ .running
      · rw [if_pos idle]
        exact kept
      · rw [if_neg idle]
        exact kept.dispatch (env, intent)
  | cancel key env orderId reason =>
      simp only [SystemCall.apply]
      refine kept.callEngine key fun engine sink => ?_
      exact cancelRecorded_settles arith engine sink env orderId reason
  | modify key env orderId newQuantity newPrice =>
      simp only [SystemCall.apply]
      refine kept.callEngine key fun engine sink => ?_
      exact modifyRecorded_settles arith engine sink env orderId newQuantity newPrice
  | close sink => exact kept.closeSink sink

/-- **The books can be kept from the sinks.** In every run from engines without positions and
empty sinks, when the engines of one sink have different venues: each sink has as many fills as
filled reports and positions, about the same orders and in the same order, and each position of
an engine is the account of the fills of its sink with its venue and its symbol. -/
theorem shared_sinks_keep_accounts (runtime : ExecutionRuntime SimulationRouter)
    (separate : runtime.router.Separate) (empty : ∀ n, runtime.router.sinks n = {})
    (fresh : ∀ key attached, runtime.router.engines key = some attached →
      ∀ symbol, attached.engine.positions symbol = none) (calls : List SystemCall) :
    let router := (calls.foldl (SystemCall.apply arith) runtime).router
    (∀ n, Agrees (router.sinks n)) ∧
      ∀ key attached, router.engines key = some attached → ∀ symbol,
        Accounts arith
          (fillsOf symbol (venueFills attached.engine.venue (router.sinks attached.sink).fills))
          (attached.engine.positions symbol) := by
  have first : Kept arith runtime.router := by
    refine ⟨separate, fun n => ?_, fun key attached found symbol => ?_⟩
    · rw [empty]
      exact ⟨List.Sublist.refl _, rfl, rfl⟩
    · rw [empty, fresh key attached found]
      rfl
  have kept : Kept arith (calls.foldl (SystemCall.apply arith) runtime).router := by
    clear separate empty fresh
    induction calls generalizing runtime with
    | nil => exact first
    | cons call calls ih => exact ih _ (kept_apply first call)
  exact ⟨kept.sinks, kept.accounts⟩

end Runs

/-- Two venues that write to one sink. -/
def twoVenues : SimulationRouter :=
  (SimulationRouter.new .simulation 0 "NASDAQ").registerEngine "ARCA" ⟨{ venue := "ARCA" }, 0⟩

theorem twoVenues_engines {key : String} {attached : Attached}
    (found : twoVenues.engines key = some attached) :
    attached.engine.venue = key ∧ ∀ symbol, attached.engine.positions symbol = none := by
  simp only [twoVenues, SimulationRouter.registerEngine, SimulationRouter.new] at found
  by_cases second : key = "ARCA"
  · subst second
    rw [Function.update_self] at found
    cases found
    exact ⟨rfl, fun symbol => rfl⟩
  rw [Function.update_of_ne second] at found
  by_cases first : key = "NASDAQ"
  · subst first
    rw [Function.update_self] at found
    cases found
    exact ⟨rfl, fun symbol => rfl⟩
  · rw [Function.update_of_ne first] at found
    cases found

/-- The calls of a run over both venues, the second of which fails. -/
def twoVenueCalls : List SystemCall :=
  [.start 0, .execute (sampleCallEnv "1") { sampleIntent .buy 10 100 with venue := some "ARCA" },
    .execute (sampleCallEnv "2") { unpayableIntent with venue := none }, .close 0]

theorem shared_sinks_keep_accounts_two_venues :
    let router := (twoVenueCalls.foldl (SystemCall.apply decimalContext)
      { router := twoVenues }).router
    (∀ n, Agrees (router.sinks n)) ∧
      ∀ key attached, router.engines key = some attached → ∀ symbol,
        Accounts decimalContext
          (fillsOf symbol (venueFills attached.engine.venue (router.sinks attached.sink).fills))
          (attached.engine.positions symbol) :=
  shared_sinks_keep_accounts { router := twoVenues }
    (separate_of_named fun _ _ found => (twoVenues_engines found).1) (fun _ => rfl)
    (fun _ _ found => (twoVenues_engines found).2) twoVenueCalls

end TradeOS.Execution
