import Mathlib.Data.List.Induction

/-!
# Monitored runs

A monitor watches the events of a system. It has a state of its own, and says in each state which
events are allowed next. A list of events is accepted when every event is allowed after the ones
before it (`accepted_iff`).

A system keeps to a monitor when its state and the state of the monitor stay related: if every
call logs accepted events and restores the relation, the log of every run is accepted
(`accepted_log`).
-/

set_option autoImplicit false

namespace TradeOS.Monitor

variable {τ ε σ ω : Type} (next : τ → ε → τ) (allowed : τ → ε → Prop)

/-- Every event is allowed after the ones before it. -/
def Accepted : τ → List ε → Prop
  | _, [] => True
  | t, e :: events => allowed t e ∧ Accepted (next t e) events

variable {next allowed}

theorem accepted_append {t : τ} {first second : List ε} :
    Accepted next allowed t (first ++ second) ↔
      Accepted next allowed t first ∧ Accepted next allowed (first.foldl next t) second := by
  induction first generalizing t with
  | nil => simp [Accepted]
  | cons e events ih =>
      rw [List.cons_append, Accepted, Accepted, ih, and_assoc, List.foldl_cons]

/-- **A list of events is accepted when each is allowed in the state that those before it lead
to.** -/
theorem accepted_iff {t : τ} {events : List ε} :
    Accepted next allowed t events ↔ ∀ before e after, events = before ++ e :: after →
      allowed (before.foldl next t) e := by
  constructor
  · rintro accepted before e after rfl
    exact (accepted_append.mp accepted).2.1
  · intro each
    induction events using List.reverseRecOn with
    | nil => trivial
    | append_singleton events e ih =>
        refine accepted_append.mpr ⟨ih fun before f after split => ?_, ?_, trivial⟩
        · exact each before f (after ++ [e]) (by rw [split]; simp)
        · exact each events e [] rfl

section Systems

variable (step : σ → ω → σ) (log : σ → List ε)

/-- **A system whose every call logs accepted events keeps to its monitor in every run.** -/
theorem accepted_log {related : σ → τ → Prop}
    (keeps : ∀ s t call, related s t → ∃ events, log (step s call) = log s ++ events ∧
      Accepted next allowed t events ∧ related (step s call) (events.foldl next t))
    {first : τ} {s : σ} (accepted : Accepted next allowed first (log s))
    (start : related s ((log s).foldl next first)) (calls : List ω) :
    Accepted next allowed first (log (calls.foldl step s)) ∧
      related (calls.foldl step s) ((log (calls.foldl step s)).foldl next first) := by
  induction calls generalizing s with
  | nil => exact ⟨accepted, start⟩
  | cons call calls ih =>
      obtain ⟨events, logged, now, after⟩ := keeps s _ call start
      rw [← List.foldl_append, ← logged] at after
      refine ih ?_ after
      rw [logged]
      exact accepted_append.mpr ⟨accepted, now⟩

end Systems

end TradeOS.Monitor
