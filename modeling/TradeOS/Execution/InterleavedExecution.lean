import TradeOS.Data.Interleaving
import TradeOS.Execution.SharedSinks

/-!
# Requests to different venues

A runtime is asked to execute requests one after the other, each at the engine of its venue.
Requests to different venues do not depend on each other: the engines, the results of each venue
and the fills of each venue in the shared sinks are the same for any two orders of arrival in
which each venue sees its own requests in the same order (`execution_independent_of_interleaving`).

The proof runs the requests on the engines alone (`answer`), which is a family of components that
are called one at a time (`executeAll_engines`). Of its sink an engine sees only whether it is
closed.
-/

set_option autoImplicit false

namespace TradeOS.Execution

open TradeOS.Interleaving TradeOS.Numeric

/-- A request with the environment of its call. -/
abbrev Request := CallEnv × RoutedIntent

/-- A list of requests in their order of arrival, with the results. -/
def executeAll (arith : Arithmetic) (runtime : ExecutionRuntime SimulationRouter) :
    List Request → ExecutionRuntime SimulationRouter × List (Except ExecutionError ExecutionResult)
  | [] => (runtime, [])
  | request :: rest =>
      let done := runtime.execute (simulationInterface arith) request
      let others := executeAll arith done.1 rest
      (others.1, done.2 :: others.2)

/-- The requests with the keys of the engines they are for. -/
def routed (router : SimulationRouter) (requests : List Request) : List (String × Request) :=
  requests.map fun request => (router.targetVenue request.2.venue, request)

/-- The results with the same keys. -/
def resultsOf (router : SimulationRouter) (requests : List Request)
    (results : List (Except ExecutionError ExecutionResult)) (key : String) :
    List (Except ExecutionError ExecutionResult) :=
  own key ((requests.map fun request => router.targetVenue request.2.venue).zip results)

/-! ## An engine sees of its sink whether it is closed -/

section Sinks

variable (arith : Arithmetic) (engine : SimulationExecutionEngine) (sink : MemoryEventSink)
  (env : CallEnv)

theorem writingTo_of_closed (other : MemoryEventSink) (same : other.closed = sink.closed) :
    env.writingTo other = env.writingTo sink := by
  unfold CallEnv.writingTo
  rw [same]

theorem recorded_fills (intent : ExecutionIntent) :
    (recorded arith engine sink env intent).fills =
      sink.fills ++ (recorded arith engine { closed := sink.closed } env intent).fills := by
  unfold recorded
  rw [writingTo_of_closed sink env { closed := sink.closed } rfl]
  by_cases guard : Refused engine (env.writingTo sink) intent
  · rw [if_pos guard, if_pos guard]
    exact (List.append_nil _).symm
  rw [if_neg guard, if_neg guard]
  cases buildFill arith engine.venue env intent env.orderId with
  | none => exact (List.append_nil _).symm
  | some fill =>
      dsimp only
      cases updatePosition arith engine.venue env intent env.orderId fill
          (engine.positions intent.symbol) with
      | none => exact (List.append_nil _).symm
      | some position => rfl

/-- **An execution on a sink is the execution on an empty one**, which is open or closed as the
sink is: the same engine, the same result and the same new fills. -/
theorem executeIntent_empty_sink (intent : RoutedIntent) :
    let done := executeIntent arith engine sink env intent
    let bare := executeIntent arith engine { closed := sink.closed } env intent
    done.1 = bare.1 ∧ done.2.2 = bare.2.2 ∧ done.2.1.fills = sink.fills ++ bare.2.1.fills := by
  intro done bare
  have same := writingTo_of_closed sink env { closed := sink.closed } rfl
  refine ⟨?_, ?_, recorded_fills arith engine sink env intent.toExecutionIntent⟩
  · simp only [done, bare, executeIntent, submitRecorded, same]
  · simp only [done, bare, executeIntent, submitRecorded, same]

end Sinks

/-! ## The requests on the engines alone -/

/-- What a request gives: its result and the fills it writes. -/
structure Answer where
  result : Except ExecutionError ExecutionResult
  fills : List FillRecord

/-- A request at the engine under a key, when the status of the runtime and the closed sinks are
given. -/
def answer (arith : Arithmetic) (status : EngineStatus) (closed : ℕ → Bool) (key : String)
    (attached : Option Attached) (request : Request) : Option Attached × Answer :=
  if status ≠ .running then
    (attached, ⟨.error (.runtimeError "ExecutionRuntime is not running"), []⟩)
  else if key = "" then
    (attached, ⟨.error (.valueError "No venue specified and no default venue configured"), []⟩)
  else
    match attached with
    | none => (none, ⟨.error (.runtimeError ("No engine configured for venue: " ++ key)), []⟩)
    | some found =>
        let done := executeIntent arith found.engine { closed := closed found.sink } request.1
          request.2
        (some { found with engine := done.1 }, ⟨done.2.2, done.2.1.fills⟩)

section Steps

variable (arith : Arithmetic) (runtime : ExecutionRuntime SimulationRouter)

/-- The sinks of a runtime that are closed. -/
def closedSinks (router : SimulationRouter) (n : ℕ) : Bool := (router.sinks n).closed

/-- What one request leaves, by what its engine answers. -/
structure Steps (request : Request) (key : String) (next : Option Attached × Answer)
    (left : ExecutionRuntime SimulationRouter × Except ExecutionError ExecutionResult) :
    Prop where
  status : left.1.status = runtime.status
  defaultVenue : left.1.router.defaultVenue = runtime.router.defaultVenue
  closed : closedSinks left.1.router = closedSinks runtime.router
  wiring : left.1.router.wiring = runtime.router.wiring
  engines : left.1.router.engines = Function.update runtime.router.engines key next.1
  result : left.2 = next.2.result
  named : ∀ place, runtime.router.wiring key = some place →
    ∀ fill ∈ next.2.fills, fill.venue = some place.1
  fills : ∀ n, (left.1.router.sinks n).fills = (runtime.router.sinks n).fills ++
    if (runtime.router.wiring key).map Prod.snd = some n then next.2.fills else []

/-- A request that is not sent to an engine changes nothing. -/
theorem steps_unsent (request : Request) (key : String) (e : ExecutionError) :
    Steps runtime request key (runtime.router.engines key, ⟨.error e, []⟩)
      (runtime, .error e) := by
  refine ⟨rfl, rfl, rfl, rfl, (Function.update_eq_self _ _).symm, rfl, ?_, ?_⟩
  · intro place found fill member
    exact absurd member List.not_mem_nil
  · intro n
    rw [ite_self, List.append_nil]

/-- **A request is answered by its engine and goes unnoticed by all others.** -/
theorem execute_steps (request : Request) :
    Steps runtime request (runtime.router.targetVenue request.2.venue)
      (answer arith runtime.status (closedSinks runtime.router)
        (runtime.router.targetVenue request.2.venue)
        (runtime.router.engines (runtime.router.targetVenue request.2.venue)) request)
      (runtime.execute (simulationInterface arith) request) := by
  generalize target : runtime.router.targetVenue request.2.venue = key
  unfold answer ExecutionRuntime.execute
  by_cases idle : runtime.status ≠ .running
  · rw [if_pos idle, if_pos idle]
    exact steps_unsent runtime request key _
  rw [if_neg idle, if_neg idle]
  simp only [simulationInterface, SimulationRouter.dispatch, SimulationRouter.route, target]
  by_cases unnamed : key = ""
  · rw [if_pos unnamed, if_pos unnamed]
    exact steps_unsent runtime request key _
  rw [if_neg unnamed, if_neg unnamed]
  cases found : runtime.router.engines key with
  | none =>
      have left := steps_unsent runtime request key
        (.runtimeError ("No engine configured for venue: " ++ key))
      rw [found] at left
      exact left
  | some attached =>
      obtain ⟨same, result, fills⟩ := executeIntent_empty_sink arith attached.engine
        (runtime.router.sinks attached.sink) request.1 request.2
      have settles := submitRecorded_settles arith attached.engine
        (runtime.router.sinks attached.sink) request.1 request.2.toExecutionIntent
      have place := wiring_of_engines found
      dsimp only
      refine ⟨rfl, rfl, ?_, ?_, ?_, ?_, ?_, ?_⟩
      · funext n
        simp only [closedSinks, SimulationRouter.store_sinks]
        by_cases own : n = attached.sink
        · subst own
          rw [Function.update_self]
          exact settles.closed
        · rw [Function.update_of_ne own]
      · exact store_wiring found settles.venue _
      · rw [SimulationRouter.store_engines, same]
        rfl
      · exact result
      · rintro _ wired fill member
        rw [place] at wired
        cases wired
        have bare := submitRecorded_settles arith attached.engine
          { closed := (runtime.router.sinks attached.sink).closed } request.1
          request.2.toExecutionIntent
        obtain ⟨gained, made, named, _⟩ := bare.gained
        refine named fill ?_
        rw [List.nil_append] at made
        rw [← made]
        exact member
      · intro n
        rw [SimulationRouter.store_sinks, place]
        by_cases own : attached.sink = n
        · subst own
          rw [Function.update_self]
          simpa [closedSinks] using fills
        · rw [Function.update_of_ne fun same => own same.symm]
          simp [own]

end Steps

/-! ## Runs -/

section Runs

variable (arith : Arithmetic) (status : EngineStatus) (closed : ℕ → Bool)

/-- The requests on the engines of a router, key by key. -/
def answered (key : String) (attached : Option Attached) (request : Request) : Option Attached :=
  (answer arith status closed key attached request).1

/-- What a request logs. -/
def answers (key : String) (attached : Option Attached) (request : Request) : List Answer :=
  [(answer arith status closed key attached request).2]

/-- What a list of requests leaves, by the log of the answers. -/
structure Ran (runtime : ExecutionRuntime SimulationRouter) (requests : List Request)
    (log : List (String × Answer))
    (left : ExecutionRuntime SimulationRouter × List (Except ExecutionError ExecutionResult)) :
    Prop where
  results : ((requests.map fun request => runtime.router.targetVenue request.2.venue).zip left.2) =
    log.map fun entry => (entry.1, entry.2.result)
  named : ∀ entry ∈ log, ∀ place, runtime.router.wiring entry.1 = some place →
    ∀ fill ∈ entry.2.fills, fill.venue = some place.1
  fills : ∀ n, (left.1.router.sinks n).fills = (runtime.router.sinks n).fills ++
    log.flatMap fun entry =>
      if (runtime.router.wiring entry.1).map Prod.snd = some n then entry.2.fills else []

theorem targetVenue_congr {router other : SimulationRouter}
    (same : other.defaultVenue = router.defaultVenue) (venue : Option String) :
    other.targetVenue venue = router.targetVenue venue := by
  unfold SimulationRouter.targetVenue
  rw [same]

/-- **A list of requests is a run of its engines.** -/
theorem executeAll_ran (runtime : ExecutionRuntime SimulationRouter) (requests : List Request) :
    let step := answered arith runtime.status (closedSinks runtime.router)
    let events := answers arith runtime.status (closedSinks runtime.router)
    let calls := routed runtime.router requests
    (executeAll arith runtime requests).1.router.engines =
        run step runtime.router.engines calls ∧
      Ran runtime requests (log step events runtime.router.engines calls)
        (executeAll arith runtime requests) := by
  induction requests generalizing runtime with
  | nil =>
      refine ⟨rfl, rfl, fun entry member => absurd member List.not_mem_nil, fun n => ?_⟩
      exact (List.append_nil _).symm
  | cons request rest ih =>
      have steps := execute_steps arith runtime request
      have targets := targetVenue_congr steps.defaultVenue
      obtain ⟨engines, ran⟩ := ih (runtime.execute (simulationInterface arith) request).1
      simp only [executeAll]
      generalize runtime.execute (simulationInterface arith) request = done
        at steps targets engines ran
      have same : routed done.1.router rest = routed runtime.router rest := by
        simp only [routed, targets]
      rw [steps.status, steps.closed, same, steps.engines] at engines ran
      refine ⟨engines, ?_, ?_, ?_⟩
      · have results := ran.results
        simp only [targets] at results
        rw [List.map_cons, List.zip_cons_cons, results, steps.result]
        rfl
      · intro entry member place wired
        rcases List.mem_cons.mp member with rfl | later
        · exact steps.named place wired
        · exact ran.named entry later place (steps.wiring ▸ wired)
      · intro n
        rw [ran.fills n, steps.fills n, steps.wiring, List.append_assoc]
        rfl

/-- The fills of a venue in a sink come from the one engine that is wired so. -/
theorem venueFills_log {router : SimulationRouter} {log : List (String × Answer)}
    (named : ∀ entry ∈ log, ∀ place, router.wiring entry.1 = some place →
      ∀ fill ∈ entry.2.fills, fill.venue = some place.1) (venue : String) (n : ℕ) :
    venueFills venue (log.flatMap fun entry =>
        if (router.wiring entry.1).map Prod.snd = some n then entry.2.fills else []) =
      log.flatMap fun entry =>
        if router.wiring entry.1 = some (venue, n) then entry.2.fills else [] := by
  induction log with
  | nil => rfl
  | cons entry rest ih =>
      rw [List.flatMap_cons, venueFills_append, List.flatMap_cons,
        ih fun other member => named other (List.mem_cons_of_mem _ member)]
      congr 1
      have own := named entry List.mem_cons_self
      cases wired : router.wiring entry.1 with
      | none => rfl
      | some place =>
          rw [Option.map_some]
          by_cases sink : place.2 = n
          · rw [if_pos (congrArg some sink)]
            by_cases here : place.1 = venue
            · rw [if_pos (congrArg some (Prod.ext here sink)), ← here]
              exact venueFills_of_forall (own place wired)
            · rw [if_neg fun same => here (congrArg Prod.fst (Option.some.inj same))]
              exact venueFills_of_ne (own place wired) here
          · rw [if_neg fun same => sink (Option.some.inj same),
              if_neg fun same => sink (congrArg Prod.snd (Option.some.inj same))]
            rfl

end Runs

/-! ## Orders of arrival -/

theorem own_routed (router : SimulationRouter) (requests : List Request) (key : String) :
    own key (routed router requests) =
      requests.filter fun request => router.targetVenue request.2.venue = key := by
  induction requests with
  | nil => rfl
  | cons request rest ih =>
      have split : routed router (request :: rest) =
        (router.targetVenue request.2.venue, request) :: routed router rest := rfl
      rw [split, own_cons, ih]
      by_cases here : router.targetVenue request.2.venue = key
      · simp [here]
      · simp [here]

/-- **The order of requests to different venues does not matter.** When two lists have the same
requests for each venue in the same order, all engines end the same, each venue returns the same
results, and the fills of each venue in each sink are the same, provided that the engines of one
sink have different venues. -/
theorem execution_independent_of_interleaving (arith : Arithmetic)
    (runtime : ExecutionRuntime SimulationRouter) (separate : runtime.router.Separate)
    {requests others : List Request}
    (same : ∀ key,
      (requests.filter fun request => runtime.router.targetVenue request.2.venue = key) =
        others.filter fun request => runtime.router.targetVenue request.2.venue = key) :
    let left := executeAll arith runtime requests
    let right := executeAll arith runtime others
    left.1.router.engines = right.1.router.engines ∧
      (∀ key, resultsOf runtime.router requests left.2 key =
        resultsOf runtime.router others right.2 key) ∧
      ∀ venue n, venueFills venue (left.1.router.sinks n).fills =
        venueFills venue (right.1.router.sinks n).fills := by
  intro left right
  have alike : ∀ key, own key (routed runtime.router requests) =
      own key (routed runtime.router others) := by
    intro key
    rw [own_routed, own_routed, same key]
  obtain ⟨engines, ran⟩ := executeAll_ran arith runtime requests
  obtain ⟨engines', ran'⟩ := executeAll_ran arith runtime others
  refine ⟨?_, fun key => ?_, fun venue n => ?_⟩
  · rw [engines, engines']
    exact run_eq_of_own_eq _ alike
  · rw [resultsOf, resultsOf, ran.results, ran'.results, own_map, own_map,
      own_log_eq_of_own_eq _ (alike key)]
  · rw [ran.fills n, ran'.fills n, venueFills_append, venueFills_append,
      venueFills_log ran.named, venueFills_log ran'.named]
    congr 1
    by_cases wired : ∃ key, runtime.router.wiring key = some (venue, n)
    · obtain ⟨key, wired⟩ := wired
      have only : ∀ other, other ≠ key → ∀ made : Answer,
          (if runtime.router.wiring other = some (venue, n) then made.fills else []) = [] := by
        intro other different made
        exact if_neg fun place => different (separate other key _ place wired)
      rw [flatMap_eq_own_flatMap key only, flatMap_eq_own_flatMap key only,
        own_log_eq_of_own_eq _ (alike key)]
    · have absent : ∀ (key : String) (made : Answer),
          (if runtime.router.wiring key = some (venue, n) then made.fills else []) = [] := by
        intro key made
        exact if_neg fun place => wired ⟨key, place⟩
      rw [List.flatMap_eq_nil_iff.mpr fun entry _ => absent entry.1 entry.2,
        List.flatMap_eq_nil_iff.mpr fun entry _ => absent entry.1 entry.2]

/-- The requests of two venues, one venue after the other. -/
def venueByVenue : List Request :=
  [(sampleCallEnv "1", { sampleIntent .buy 10 100 with venue := some "NASDAQ" }),
    (sampleCallEnv "2", { sampleIntent .buy 20 110 with venue := some "NASDAQ" }),
    (sampleCallEnv "3", { sampleIntent .sell 5 90 with venue := some "ARCA" })]

/-- The same requests, with the venues in turn. -/
def inTurn : List Request :=
  [(sampleCallEnv "1", { sampleIntent .buy 10 100 with venue := some "NASDAQ" }),
    (sampleCallEnv "3", { sampleIntent .sell 5 90 with venue := some "ARCA" }),
    (sampleCallEnv "2", { sampleIntent .buy 20 110 with venue := some "NASDAQ" })]

theorem inTurn_filter (key : String) :
    (venueByVenue.filter fun request => twoVenues.targetVenue request.2.venue = key) =
      inTurn.filter fun request => twoVenues.targetVenue request.2.venue = key := by
  have named : ∀ name : String, name ≠ "" → twoVenues.targetVenue (some name) = name := by
    intro name given
    exact if_neg given
  simp only [venueByVenue, inTurn, List.filter_cons, List.filter_nil, named "NASDAQ" (by decide),
    named "ARCA" (by decide)]
  by_cases first : "NASDAQ" = key
  · subst first
    rfl
  · simp [first]

theorem execution_independent_of_interleaving_in_turn :
    let runtime : ExecutionRuntime SimulationRouter :=
      { router := twoVenues.startAll, status := .running }
    let left := executeAll decimalContext runtime venueByVenue
    let right := executeAll decimalContext runtime inTurn
    left.1.router.engines = right.1.router.engines ∧
      (∀ key, resultsOf runtime.router venueByVenue left.2 key =
        resultsOf runtime.router inTurn right.2 key) ∧
      ∀ venue n, venueFills venue (left.1.router.sinks n).fills =
        venueFills venue (right.1.router.sinks n).fills := by
  intro runtime
  refine execution_independent_of_interleaving decimalContext runtime ?_ inTurn_filter
  refine separate_of_named fun key attached found => ?_
  obtain ⟨engine, stored, rfl⟩ := Option.map_eq_some_iff.mp found
  rw [← (twoVenues_engines stored).1]
  exact start_venue engine.engine

end TradeOS.Execution
