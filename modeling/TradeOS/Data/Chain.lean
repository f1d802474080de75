import Mathlib.Data.List.Basic
import Mathlib.Data.List.Chain
import Mathlib.Algebra.Order.BigOperators.Group.List

/-!
# Chains of stages over a running value

A chain sends a value through a list of stages. Stage `x` turns the value `q` it
receives into `produce x q`. The run is recorded step by step (`steps`), as the
list of values it goes through (`values`) and by its last value (`result`).

Some rules carry the clients' proofs. What every step keeps holds along the run
(`invariant_of_steps`), and something once true stays true, from any point of the run
on, exactly when every step keeps it (`stays_iff`). What no stage can restore and what
holds of the result held at every step (`before_of_result`). A stage that bounds its
value bounds the result too, up to what the later stages may add (`result_le_cap`).
-/

set_option autoImplicit false

namespace TradeOS.Chain

variable {α σ : Type}

/-- One step of a run: the stage, the value it received and the value it
produced. -/
structure Step (α σ : Type) where
  stage : α
  before : σ
  after : σ

section Run

variable (produce : α → σ → σ)

/-- The steps of a run. -/
def steps : List α → σ → List (Step α σ)
  | [], _ => []
  | x :: xs, q => ⟨x, q, produce x q⟩ :: steps xs (produce x q)

/-- The values of a run, from the first to the last. -/
def values (xs : List α) (q : σ) : List σ := xs.scanl (fun q x => produce x q) q

/-- The last value of a run. -/
def result (xs : List α) (q : σ) : σ := xs.foldl (fun q x => produce x q) q

@[simp] theorem steps_nil (q : σ) : steps produce [] q = [] := rfl

@[simp] theorem steps_cons (x : α) (xs : List α) (q : σ) :
    steps produce (x :: xs) q = ⟨x, q, produce x q⟩ :: steps produce xs (produce x q) :=
  rfl

@[simp] theorem result_nil (q : σ) : result produce [] q = q := rfl

@[simp] theorem result_cons (x : α) (xs : List α) (q : σ) :
    result produce (x :: xs) q = result produce xs (produce x q) :=
  rfl

/-- Every stage is recorded, in order. -/
theorem map_stage_steps (xs : List α) (q : σ) : (steps produce xs q).map Step.stage = xs := by
  induction xs generalizing q with
  | nil => rfl
  | cons x xs ih => rw [steps_cons, List.map_cons, ih]

/-- The received values are the values of the run but the last. -/
theorem map_before_steps (xs : List α) (q : σ) :
    (steps produce xs q).map Step.before = (values produce xs q).dropLast := by
  induction xs generalizing q with
  | nil => rfl
  | cons x xs ih =>
      rw [steps_cons, List.map_cons, ih, values, values, List.scanl_cons, List.dropLast_cons_of_ne_nil]
      exact List.scanl_ne_nil

end Run

section Rules

variable {produce : α → σ → σ}

theorem step_eq {xs : List α} {q : σ} {s : Step α σ} (member : s ∈ steps produce xs q) :
    s.stage ∈ xs ∧ s.after = produce s.stage s.before := by
  induction xs generalizing q with
  | nil => cases member
  | cons x xs ih =>
      rcases List.mem_cons.mp member with rfl | later
      · exact ⟨List.mem_cons_self, rfl⟩
      · exact ⟨List.mem_cons_of_mem x (ih later).1, (ih later).2⟩

theorem result_append (xs ys : List α) (q : σ) :
    result produce (xs ++ ys) q = result produce ys (result produce xs q) :=
  List.foldl_append

theorem steps_append (xs ys : List α) (q : σ) :
    steps produce (xs ++ ys) q = steps produce xs q ++ steps produce ys (result produce xs q) := by
  induction xs generalizing q with
  | nil => rfl
  | cons x xs ih => rw [List.cons_append, steps_cons, ih, steps_cons, List.cons_append, result_cons]

/-- What every step keeps holds along the run. -/
theorem invariant_of_steps {p : σ → Prop} {xs : List α} {q : σ} (start : p q)
    (keeps : ∀ s ∈ steps produce xs q, p s.before → p s.after) :
    (∀ s ∈ steps produce xs q, p s.before) ∧ p (result produce xs q) := by
  induction xs generalizing q with
  | nil => exact ⟨fun s member => absurd member List.not_mem_nil, start⟩
  | cons x xs ih =>
      have next : p (produce x q) := keeps ⟨x, q, produce x q⟩ List.mem_cons_self start
      obtain ⟨rest, last⟩ := ih next fun s member => keeps s (List.mem_cons_of_mem _ member)
      refine ⟨fun s member => ?_, last⟩
      rcases List.mem_cons.mp member with rfl | later
      · exact start
      · exact rest s later

/-- A step is taken from the result of the stages before it. -/
theorem exists_append_of_mem_steps {xs : List α} {q : σ} {s : Step α σ}
    (member : s ∈ steps produce xs q) :
    ∃ earlier later, xs = earlier ++ s.stage :: later ∧ s.before = result produce earlier q := by
  induction xs generalizing q with
  | nil => cases member
  | cons x xs ih =>
      rcases List.mem_cons.mp member with rfl | after
      · exact ⟨[], xs, rfl, rfl⟩
      · obtain ⟨earlier, later, split, before⟩ := ih after
        exact ⟨x :: earlier, later, by rw [split]; rfl, before⟩

/-- **What holds at some point of a run holds from there on exactly when every step keeps
it.** -/
theorem stays_iff {p : σ → Prop} {xs : List α} {q : σ} :
    (∀ earlier middle later, xs = earlier ++ middle ++ later → p (result produce earlier q) →
        p (result produce (earlier ++ middle) q)) ↔
      ∀ s ∈ steps produce xs q, p s.before → p s.after := by
  constructor
  · intro stays s member holds
    obtain ⟨earlier, later, split, before⟩ := exists_append_of_mem_steps member
    have after := stays earlier [s.stage] later (by rw [split]; simp) (before ▸ holds)
    rw [result_append, ← before] at after
    rw [(step_eq member).2]
    exact after
  · intro keeps earlier middle later split holds
    rw [result_append]
    refine (invariant_of_steps holds fun s member => keeps s ?_).2
    rw [split, steps_append, steps_append]
    exact List.mem_append_left _ (List.mem_append_right _ member)

/-- What no stage can restore, and what holds at the end, held at every step. -/
theorem before_of_result {p : σ → Prop} {xs : List α}
    (lost : ∀ x ∈ xs, ∀ q, ¬ p q → ¬ p (produce x q)) {q : σ}
    (final : p (result produce xs q)) : p q ∧ ∀ s ∈ steps produce xs q, p s.before := by
  induction xs generalizing q with
  | nil => exact ⟨final, fun s member => absurd member List.not_mem_nil⟩
  | cons x xs ih =>
      obtain ⟨next, rest⟩ :=
        ih (fun y member => lost y (List.mem_cons_of_mem x member)) final
      have first : p q := by
        by_contra none
        exact lost x List.mem_cons_self q none next
      refine ⟨first, fun s member => ?_⟩
      rcases List.mem_cons.mp member with rfl | later
      · exact first
      · exact rest s later

end Rules

section Caps

variable [AddCommMonoid σ] [PartialOrder σ] [IsOrderedAddMonoid σ] {produce : α → σ → σ}

/-- A run ends above its start by at most what its steps add. -/
theorem result_le_add_slack (slack : α → σ) {xs : List α} {q : σ}
    (shrinks : ∀ s ∈ steps produce xs q, s.after ≤ s.before + slack s.stage) :
    result produce xs q ≤ q + (xs.map slack).sum := by
  induction xs generalizing q with
  | nil => simp
  | cons x xs ih =>
      have first : produce x q ≤ q + slack x :=
        shrinks ⟨x, q, produce x q⟩ List.mem_cons_self
      calc result produce xs (produce x q)
          ≤ produce x q + (xs.map slack).sum :=
            ih fun s member => shrinks s (List.mem_cons_of_mem _ member)
        _ ≤ q + slack x + (xs.map slack).sum := add_le_add_left first _
        _ = q + ((x :: xs).map slack).sum := by rw [List.map_cons, List.sum_cons, add_assoc]

/-- **A cap of one stage bounds the result, up to what the later stages add.** -/
theorem result_le_cap (slack : α → σ) (before : List α) (x : α) (after : List α) {q cap : σ}
    (shrinks : ∀ s ∈ steps produce (before ++ x :: after) q, s.after ≤ s.before + slack s.stage)
    (capped : ∀ s ∈ steps produce (before ++ x :: after) q, s.stage = x → s.after ≤ cap) :
    result produce (before ++ x :: after) q ≤ cap + (after.map slack).sum := by
  induction before generalizing q with
  | nil =>
      have cut : produce x q ≤ cap := capped ⟨x, q, produce x q⟩ List.mem_cons_self rfl
      calc result produce after (produce x q)
          ≤ produce x q + (after.map slack).sum :=
            result_le_add_slack slack fun s member => shrinks s (List.mem_cons_of_mem _ member)
        _ ≤ cap + (after.map slack).sum := add_le_add_left cut _
  | cons y before ih =>
      exact ih (fun s member => shrinks s (List.mem_cons_of_mem _ member))
        fun s member => capped s (List.mem_cons_of_mem _ member)

end Caps

end TradeOS.Chain
