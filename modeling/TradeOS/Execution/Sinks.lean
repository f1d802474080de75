import TradeOS.Execution.Lifecycle

/-!
# What the sink of an engine receives

`MemoryEventSink` keeps the intents, reports, fills and positions that an engine writes, and
raises on every write once it is closed. An engine writes its intent first, and the fill, the
position and the report only after its own three maps are up to date; the callbacks come last.

A position is kept by reference: the list of the sink has the object that the engine goes on
changing. So an entry of that list is modelled as the place of the object, an engine and a
symbol.

`submitRecorded` is a submission together with its sink. `submitRecorded_cases` says once what it
writes: nothing, the intent alone, or one of each.
-/

set_option autoImplicit false

namespace TradeOS.Execution

open TradeOS.Numeric

/-- `MemoryEventSink`. -/
structure MemoryEventSink where
  intents : List ExecutionIntent := []
  reports : List ExecutionReport := []
  fills : List FillRecord := []
  positions : List (String × String) := []
  closed : Bool := false

namespace MemoryEventSink

/-- `write_intent`, on an open sink. -/
def writeIntent (sink : MemoryEventSink) (intent : ExecutionIntent) : MemoryEventSink :=
  { sink with intents := sink.intents ++ [intent] }

/-- `write_report`. -/
def writeReport (sink : MemoryEventSink) (report : ExecutionReport) : MemoryEventSink :=
  { sink with reports := sink.reports ++ [report] }

/-- `write_fill`. -/
def writeFill (sink : MemoryEventSink) (fill : FillRecord) : MemoryEventSink :=
  { sink with fills := sink.fills ++ [fill] }

/-- `write_position`: the place of the object. -/
def writePosition (sink : MemoryEventSink) (venue symbol : String) : MemoryEventSink :=
  { sink with positions := sink.positions ++ [(venue, symbol)] }

/-- `close`. -/
def close (sink : MemoryEventSink) : MemoryEventSink := { sink with closed := true }

end MemoryEventSink

/-- A call whose engine writes to a sink: a write raises when the sink is closed. -/
def CallEnv.writingTo (env : CallEnv) (sink : MemoryEventSink) : CallEnv :=
  { env with
    raises := fun effect =>
      match effect with
      | .writeIntent | .writeFill | .writePosition | .writeReport => sink.closed
      | .fillCallback => env.raises .fillCallback
      | .positionCallback => env.raises .positionCallback }

section Submission

variable (arith : Arithmetic) (engine : SimulationExecutionEngine) (sink : MemoryEventSink)
  (env : CallEnv) (intent : ExecutionIntent)

instance : Decidable (Refused engine env intent) :=
  inferInstanceAs (Decidable (_ ∨ _ ∨ _ ∨ _))

/-- The sink with the intent, the fill, the position and the report of a submission. -/
def recordAll (fill : FillRecord) : MemoryEventSink :=
  (((sink.writeIntent intent).writeFill fill).writePosition engine.venue intent.symbol).writeReport
    (filledReport engine.venue env intent engine.mode fill)

/-- What a submission writes to its sink. -/
def recorded : MemoryEventSink :=
  if Refused engine (env.writingTo sink) intent then sink
  else
    match buildFill arith engine.venue env intent env.orderId with
    | none => sink.writeIntent intent
    | some fill =>
        match updatePosition arith engine.venue env intent env.orderId fill
            (engine.positions intent.symbol) with
        | none => sink.writeIntent intent
        | some _ => recordAll engine sink env intent fill

/-- A submission with its sink. -/
def submitRecorded :
    SimulationExecutionEngine × MemoryEventSink × Except ExecutionError ExecutionReport :=
  let outcome := submitIntent arith engine (env.writingTo sink) intent
  (outcome.1, recorded arith engine sink env intent, outcome.2)

/-- What a submission with its sink can do. -/
inductive Recorded :
    SimulationExecutionEngine × MemoryEventSink × Except ExecutionError ExecutionReport → Prop
  | refused (guard : Refused engine (env.writingTo sink) intent) (e : ExecutionError) :
      Recorded (engine, sink, .error e)
  | unfilled (passed : ¬ Refused engine (env.writingTo sink) intent)
      (built : buildFill arith engine.venue env intent env.orderId = none) :
      Recorded (accepted engine env intent, sink.writeIntent intent, .error .invalidDecimal)
  | unsettled (passed : ¬ Refused engine (env.writingTo sink) intent) {fill : FillRecord}
      (built : buildFill arith engine.venue env intent env.orderId = some fill)
      (updated : updatePosition arith engine.venue env intent env.orderId fill
        (engine.positions intent.symbol) = none) :
      Recorded (filled engine env intent fill, sink.writeIntent intent, .error .invalidDecimal)
  | settled (passed : ¬ Refused engine (env.writingTo sink) intent) {fill : FillRecord}
      {position : PositionState}
      (built : buildFill arith engine.venue env intent env.orderId = some fill)
      (updated : updatePosition arith engine.venue env intent env.orderId fill
        (engine.positions intent.symbol) = some position)
      (outcome : Except ExecutionError ExecutionReport) :
      Recorded (settled engine env intent fill position, recordAll engine sink env intent fill,
        outcome)

/-- **A submission writes nothing, its intent, or its intent with the fill, the position and the
report.** The last is the case exactly when the engine settles. -/
theorem submitRecorded_cases :
    Recorded arith engine sink env intent (submitRecorded arith engine sink env intent) := by
  have outcome := submitIntent_cases arith engine (env.writingTo sink) intent
  unfold submitRecorded recorded
  generalize submitIntent arith engine (env.writingTo sink) intent = result at outcome
  cases outcome with
  | refused guard e =>
      rw [if_pos guard]
      exact .refused guard e
  | unfilled passed built =>
      have same : buildFill arith engine.venue env intent env.orderId = none := built
      rw [if_neg passed, same]
      exact .unfilled passed same
  | @unsettled passed fill built updated =>
      have same : buildFill arith engine.venue env intent env.orderId = some fill := built
      have stuck : updatePosition arith engine.venue env intent env.orderId fill
          (engine.positions intent.symbol) = none := updated
      rw [if_neg passed, same]
      dsimp only
      rw [stuck]
      exact .unsettled passed same stuck
  | @settled passed fill position built updated result =>
      have same : buildFill arith engine.venue env intent env.orderId = some fill := built
      have done : updatePosition arith engine.venue env intent env.orderId fill
          (engine.positions intent.symbol) = some position := updated
      rw [if_neg passed, same]
      dsimp only
      rw [done]
      exact .settled passed same done result

end Submission

/-! ## The other calls of an engine -/

section Updates

variable (engine : SimulationExecutionEngine) (sink : MemoryEventSink) (env : CallEnv)

/-- The sink with the report of a call that ends by writing one. -/
def reportedTo (outcome : Except ExecutionError ExecutionReport) : MemoryEventSink :=
  match outcome with
  | .ok report => sink.writeReport report
  | .error _ => sink

/-- `cancel_order` with its sink. -/
def cancelRecorded (orderId : String) (reason : Option String) :
    SimulationExecutionEngine × MemoryEventSink × Except ExecutionError ExecutionReport :=
  let outcome := cancelOrder engine (env.writingTo sink) orderId reason
  (outcome.1, reportedTo sink outcome.2, outcome.2)

/-- `modify_order` with its sink. -/
def modifyRecorded (orderId : String) (newQuantity newPrice : Option ℚ) :
    SimulationExecutionEngine × MemoryEventSink × Except ExecutionError ExecutionReport :=
  let outcome := modifyOrder engine (env.writingTo sink) orderId newQuantity newPrice
  (outcome.1, reportedTo sink outcome.2, outcome.2)

end Updates

end TradeOS.Execution
