import Mathlib.Data.List.Basic
import Mathlib.Logic.Function.Basic

/-!
# Interleaved calls to a family of components

A call names the component it is for. It changes the state of that component and no other, and
it may write events to a log that all components share.

A component ends as if its own calls had been the only ones (`run_apply`), and the part of the
log that it wrote is the log of those calls (`own_log`). Two interleavings of the same calls
can therefore not be told apart by any component (`run_eq_of_own_eq`, `own_log_eq_of_own_eq`).
-/

set_option autoImplicit false

namespace TradeOS.Interleaving

variable {ι σ ω ε : Type} [DecidableEq ι]

/-- What is tagged with a component. -/
def own {τ : Type} (i : ι) (tagged : List (ι × τ)) : List τ :=
  (tagged.filter fun entry => entry.1 = i).map Prod.snd

section Own

variable {τ : Type} (i : ι)

@[simp] theorem own_nil : own i ([] : List (ι × τ)) = [] := rfl

theorem own_cons (entry : ι × τ) (rest : List (ι × τ)) :
    own i (entry :: rest) = if entry.1 = i then entry.2 :: own i rest else own i rest := by
  by_cases here : entry.1 = i
  · simp [own, here]
  · simp [own, here]

theorem own_append (first second : List (ι × τ)) :
    own i (first ++ second) = own i first ++ own i second := by
  simp [own]

theorem own_map_tag (j : ι) (events : List τ) :
    own i (events.map fun event => (j, event)) = if j = i then events else [] := by
  induction events with
  | nil => simp
  | cons event events ih =>
      rw [List.map_cons, own_cons, ih]
      by_cases here : j = i
      · simp [here]
      · simp [here]

theorem own_map {τ' : Type} (f : τ → τ') (tagged : List (ι × τ)) :
    own i (tagged.map fun entry => (entry.1, f entry.2)) = (own i tagged).map f := by
  induction tagged with
  | nil => rfl
  | cons entry rest ih =>
      rw [List.map_cons, own_cons, own_cons, ih]
      by_cases here : entry.1 = i
      · rw [if_pos here, if_pos here, List.map_cons]
      · rw [if_neg here, if_neg here]

/-- Where only one component contributes, only its own entries count. -/
theorem flatMap_eq_own_flatMap {ν : Type} {f : ι → τ → List ν}
    (only : ∀ j, j ≠ i → ∀ entry, f j entry = []) (tagged : List (ι × τ)) :
    tagged.flatMap (fun entry => f entry.1 entry.2) = (own i tagged).flatMap (f i) := by
  induction tagged with
  | nil => rfl
  | cons entry rest ih =>
      rw [List.flatMap_cons, ih, own_cons]
      by_cases here : entry.1 = i
      · rw [if_pos here, List.flatMap_cons, here]
      · rw [if_neg here, only entry.1 here, List.nil_append]

end Own

variable (step : ι → σ → ω → σ) (events : ι → σ → ω → List ε)

/-- The family after one call. -/
def call (family : ι → σ) (c : ι × ω) : ι → σ :=
  Function.update family c.1 (step c.1 (family c.1) c.2)

/-- The family after a list of calls. -/
def run (family : ι → σ) (calls : List (ι × ω)) : ι → σ := calls.foldl (call step) family

/-- The log of a list of calls, each event with the component that wrote it. -/
def log (family : ι → σ) : List (ι × ω) → List (ι × ε)
  | [] => []
  | c :: rest =>
      ((events c.1 (family c.1) c.2).map fun event => (c.1, event)) ++ log (call step family c) rest

/-- The events of one component that is called on its own. -/
def events1 (i : ι) (s : σ) : List ω → List ε
  | [] => []
  | c :: rest => events i s c ++ events1 i (step i s c) rest

variable {step events}

@[simp] theorem run_cons (family : ι → σ) (c : ι × ω) (rest : List (ι × ω)) :
    run step family (c :: rest) = run step (call step family c) rest :=
  rfl

theorem call_apply (family : ι → σ) (c : ι × ω) (i : ι) :
    call step family c i = if c.1 = i then step i (family i) c.2 else family i := by
  by_cases here : c.1 = i
  · subst here
    rw [if_pos rfl, call, Function.update_self]
  · rw [if_neg here, call, Function.update_of_ne fun same => here same.symm]

/-- **A component ends as if its own calls had been the only ones.** -/
theorem run_apply (family : ι → σ) (calls : List (ι × ω)) (i : ι) :
    run step family calls i = (own i calls).foldl (step i) (family i) := by
  induction calls generalizing family with
  | nil => rfl
  | cons c rest ih =>
      rw [run_cons, ih, own_cons, call_apply]
      by_cases here : c.1 = i
      · rw [if_pos here, if_pos here, List.foldl_cons]
      · rw [if_neg here, if_neg here]

/-- **What a component wrote to the log is the log of its own calls.** -/
theorem own_log (family : ι → σ) (calls : List (ι × ω)) (i : ι) :
    own i (log step events family calls) = events1 step events i (family i) (own i calls) := by
  induction calls generalizing family with
  | nil => rfl
  | cons c rest ih =>
      rw [log, own_append, own_map_tag, ih, own_cons, call_apply]
      by_cases here : c.1 = i
      · subst here
        rw [if_pos rfl, if_pos rfl, if_pos rfl]
        rfl
      · rw [if_neg here, if_neg here, if_neg here, List.nil_append]

/-- No component can tell two interleavings of the same calls apart by its state. -/
theorem run_eq_of_own_eq (family : ι → σ) {calls others : List (ι × ω)}
    (same : ∀ i, own i calls = own i others) : run step family calls = run step family others := by
  funext i
  rw [run_apply, run_apply, same]

/-- Nor by what it wrote. -/
theorem own_log_eq_of_own_eq (family : ι → σ) {calls others : List (ι × ω)} {i : ι}
    (same : own i calls = own i others) :
    own i (log step events family calls) = own i (log step events family others) := by
  rw [own_log, own_log, same]

end TradeOS.Interleaving
