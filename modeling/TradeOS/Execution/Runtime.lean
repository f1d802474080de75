import TradeOS.Execution.Sinks

/-!
# The execution runtime

`ExecutionRuntime` starts and stops a router and sends intents through it. Of the router it uses
three calls, each of which may raise: `RouterInterface`. What a call that raises leaves behind is
the router that it returns beside its error. A cancellation is not caught by `except Exception`:
the runtime keeps the status that it entered before the call.

`SimulationRouter` keeps one engine for each venue. An intent goes to the engine of its own venue,
or to the venue that was registered first when it names none. Engines are given a sink when they
are built, and several may be given the same one: the router has the sinks apart, by number.

The awaits of these classes never suspend, so a call is one step.
-/

set_option autoImplicit false

namespace TradeOS.Execution

open TradeOS.Numeric

/-! ## The runtime over any router -/

/-- How a call ends that does not return: with an exception, which has a text, or with a
cancellation, which is no `Exception`. -/
inductive Interruption where
  | exception (text : String)
  | cancelled
  deriving DecidableEq

/-- What the runtime calls of a router, with how a start or a stop is interrupted, if it is. -/
structure RouterInterface (ρ ι β : Type) where
  startAll : ρ → ρ × Option Interruption
  stopAll : ρ → ρ × Option Interruption
  dispatch : ρ → ι → ρ × Except ExecutionError β

/-- `ExecutionRuntime`. -/
structure ExecutionRuntime (ρ : Type) where
  mode : ExecutionMode := .simulation
  router : ρ
  status : EngineStatus := .stopped
  startedAt : Option Timestamp := none
  stoppedAt : Option Timestamp := none
  lastError : Option String := none
  lastErrorAt : Option Timestamp := none

namespace ExecutionRuntime

variable {ρ ι β : Type} (interface : RouterInterface ρ ι β) (now : Timestamp)
  (runtime : ExecutionRuntime ρ)

/-- The runtime after a call to its router that was interrupted. It has entered a status before the
call, and an exception is recorded. -/
def interrupted (entered : EngineStatus) (router : ρ) : Interruption → ExecutionRuntime ρ
  | .exception text =>
      { runtime with
        router := router, status := .error, lastError := some text, lastErrorAt := some now }
  | .cancelled => { runtime with router := router, status := entered }

/-- `start`, with what it raises, if it does. -/
def start : ExecutionRuntime ρ × Option Interruption :=
  if runtime.status = .running then (runtime, none)
  else
    match interface.startAll runtime.router with
    | (router, none) =>
        ({ runtime with router := router, startedAt := some now, status := .running }, none)
    | (router, some interruption) =>
        (runtime.interrupted now .starting router interruption, some interruption)

/-- `stop`. -/
def stop : ExecutionRuntime ρ × Option Interruption :=
  if runtime.status = .stopped then (runtime, none)
  else
    match interface.stopAll runtime.router with
    | (router, none) =>
        ({ runtime with router := router, stoppedAt := some now, status := .stopped }, none)
    | (router, some interruption) =>
        (runtime.interrupted now .stopping router interruption, some interruption)

/-- `restart`, with a second reading of the clock for the start. -/
def restart (later : Timestamp) : ExecutionRuntime ρ × Option Interruption :=
  match runtime.stop interface now with
  | (stopped, none) => stopped.start interface later
  | (stopped, some interruption) => (stopped, some interruption)

/-- `execute`. -/
def execute (request : ι) : ExecutionRuntime ρ × Except ExecutionError β :=
  if runtime.status ≠ .running then
    (runtime, .error (.runtimeError "ExecutionRuntime is not running"))
  else
    let sent := interface.dispatch runtime.router request
    ({ runtime with router := sent.1 }, sent.2)

/-- `configure`. -/
def configure (router : ρ) : ExecutionRuntime ρ × Except ExecutionError Unit :=
  if runtime.status = .running then
    (runtime, .error (.runtimeError "Cannot configure while runtime is running"))
  else ({ runtime with router := router }, .ok ())

end ExecutionRuntime

/-! ## The router of the simulation -/

/-- An intent with the venue it names. -/
structure RoutedIntent extends ExecutionIntent where
  venue : Option String := none

/-- An engine and the number of the sink it was given. -/
structure Attached where
  engine : SimulationExecutionEngine
  sink : ℕ

/-- `SimulationRouter`, with the sinks of its engines. -/
structure SimulationRouter where
  mode : ExecutionMode := .simulation
  venues : List String := []
  engines : String → Option Attached := fun _ => none
  defaultVenue : Option String := none
  sinks : ℕ → MemoryEventSink := fun _ => {}

/-- What `execute_intent` returns. -/
structure ExecutionResult where
  intent : RoutedIntent
  report : ExecutionReport
  order : Option OrderRecord
  fills : List FillRecord
  position : Option PositionState
  venue : Option String
  mode : String

namespace SimulationRouter

variable (router : SimulationRouter)

/-- `register_engine`. -/
def registerEngine (venue : String) (attached : Attached) : SimulationRouter :=
  { router with
    venues := if venue ∈ router.venues then router.venues else router.venues ++ [venue]
    engines := Function.update router.engines venue (some attached)
    defaultVenue := router.defaultVenue.or (some venue) }

/-- `__init__`: the router of one engine. -/
def new (mode : ExecutionMode) (sink : ℕ) (venue : String) : SimulationRouter :=
  registerEngine { mode := mode } venue ⟨{ mode := mode, venue := venue }, sink⟩

/-- `intent.venue or self._default_venue`, the empty text where that is no venue. -/
def targetVenue (venue : Option String) : String :=
  match venue with
  | some name => if name = "" then router.defaultVenue.getD "" else name
  | none => router.defaultVenue.getD ""

/-- `route`. -/
def route (intent : RoutedIntent) : Except ExecutionError Attached :=
  let venue := router.targetVenue intent.venue
  if venue = "" then .error (.valueError "No venue specified and no default venue configured")
  else
    match router.engines venue with
    | none => .error (.runtimeError ("No engine configured for venue: " ++ venue))
    | some attached => .ok attached

/-- `start_all`: the engines of the simulation start without an error. -/
def startAll : SimulationRouter :=
  { router with engines := fun venue => (router.engines venue).map fun attached =>
      { attached with engine := attached.engine.start } }

/-- `stop_all`. -/
def stopAll : SimulationRouter :=
  { router with engines := fun venue => (router.engines venue).map fun attached =>
      { attached with engine := attached.engine.stop } }

/-- The router with the engine of a venue and its sink changed. -/
def store (venue : String) (attached : Attached) (sink : MemoryEventSink) : SimulationRouter :=
  { router with
    engines := Function.update router.engines venue (some attached)
    sinks := Function.update router.sinks attached.sink sink }

@[simp] theorem store_engines (venue : String) (attached : Attached) (sink : MemoryEventSink) :
    (router.store venue attached sink).engines =
      Function.update router.engines venue (some attached) :=
  rfl

@[simp] theorem store_sinks (venue : String) (attached : Attached) (sink : MemoryEventSink) :
    (router.store venue attached sink).sinks = Function.update router.sinks attached.sink sink :=
  rfl

/-- A call to the engine of a venue, which may write to its sink. -/
def callEngine {β : Type} (venue : String)
    (work : SimulationExecutionEngine → MemoryEventSink →
      SimulationExecutionEngine × MemoryEventSink × β) : SimulationRouter :=
  match router.engines venue with
  | none => router
  | some attached =>
      let done := work attached.engine (router.sinks attached.sink)
      router.store venue { attached with engine := done.1 } done.2.1

/-- The router after its owner closed a sink. -/
def closeSink (n : ℕ) : SimulationRouter :=
  { router with sinks := Function.update router.sinks n (router.sinks n).close }

@[simp] theorem closeSink_sinks (n : ℕ) :
    (router.closeSink n).sinks = Function.update router.sinks n (router.sinks n).close :=
  rfl

end SimulationRouter

/-- `execute_intent`: the submission, and then the order, the fills and the position of its
report. -/
def executeIntent (arith : Arithmetic) (engine : SimulationExecutionEngine)
    (sink : MemoryEventSink) (env : CallEnv) (intent : RoutedIntent) :
    SimulationExecutionEngine × MemoryEventSink × Except ExecutionError ExecutionResult :=
  let submitted := submitRecorded arith engine sink env intent.toExecutionIntent
  (submitted.1, submitted.2.1, submitted.2.2.map fun report =>
    { intent := intent
      report := report
      order := report.orderId.bind submitted.1.orders
      fills := (report.orderId.bind submitted.1.fills).getD []
      position := submitted.1.positions intent.symbol
      venue := report.venue
      mode := submitted.1.mode.value })

/-- `route`, and then `execute_intent` on the engine found. -/
def SimulationRouter.dispatch (arith : Arithmetic) (router : SimulationRouter)
    (request : CallEnv × RoutedIntent) :
    SimulationRouter × Except ExecutionError ExecutionResult :=
  match router.route request.2 with
  | .error e => (router, .error e)
  | .ok attached =>
      let done := executeIntent arith attached.engine (router.sinks attached.sink) request.1
        request.2
      (router.store (router.targetVenue request.2.venue) { attached with engine := done.1 }
        done.2.1, done.2.2)

/-- The router of the simulation, as the runtime uses it. -/
def simulationInterface (arith : Arithmetic) :
    RouterInterface SimulationRouter (CallEnv × RoutedIntent) ExecutionResult where
  startAll router := (router.startAll, none)
  stopAll router := (router.stopAll, none)
  dispatch router request := router.dispatch arith request

end TradeOS.Execution
