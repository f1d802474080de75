import Mathlib.Algebra.Order.Ring.Int
import Mathlib.Data.Int.Order.Basic
import Mathlib.Data.List.Chain
import Mathlib.Data.List.Sort
import Mathlib.Tactic.Linarith
import Mathlib.Tactic.Ring

/-!
# Slots of a grid

Times that fill the slots of a grid from the first one to the last one, each once, are consecutive.
Put in order, each is one step after the one before (`consecutive_iff`).

A check that looks at adjacent entries alone cannot see a step that is longer than it should be by
less than its tolerance. On a grid it can: for entries on one grid, a tolerance of less than two
steps finds every missing slot (`isChain_sorted_iff`).
-/

set_option autoImplicit false

namespace TradeOS.Slots

variable {α : Type} {step : ℤ}

/-- The first slots of a grid, from a start on. -/
def slots (step : ℤ) : ℤ → ℕ → List ℤ
  | _, 0 => []
  | start, n + 1 => start :: slots step (start + step) n

/-- The times are those of consecutive slots, in some order. -/
def Consecutive (step : ℤ) (times : List ℤ) : Prop :=
  ∃ start, times.Perm (slots step start times.length)

/-! ## Chains -/

theorem isChain_slots (start : ℤ) (n : ℕ) :
    (slots step start n).IsChain fun x y => y = x + step := by
  induction n generalizing start with
  | zero => exact .nil
  | succ n ih =>
      cases n with
      | zero => exact .singleton start
      | succ n => exact List.isChain_cons_cons.mpr ⟨rfl, ih (start + step)⟩

/-- A list in steps of the grid is a list of slots. -/
theorem eq_slots_of_isChain {times : List ℤ} (chain : times.IsChain fun x y => y = x + step) :
    ∃ start, times = slots step start times.length := by
  induction times with
  | nil => exact ⟨0, rfl⟩
  | cons x rest ih =>
      refine ⟨x, ?_⟩
      cases rest with
      | nil => rfl
      | cons y rest =>
          obtain ⟨next, chain⟩ := List.isChain_cons_cons.mp chain
          obtain ⟨start, same⟩ := ih chain
          obtain rfl : y = start := (List.cons.inj same).1
          change x :: y :: rest = x :: slots step (x + step) (y :: rest).length
          rw [← next, ← same]

/-- Steps of the grid lead upward. -/
theorem pairwise_of_isChain (positive : 0 < step) {times : List ℤ}
    (chain : times.IsChain fun x y => y = x + step) : times.Pairwise (· < ·) := by
  refine List.isChain_iff_pairwise.mp (chain.imp fun x y next => ?_)
  rw [next]
  exact lt_add_of_pos_right x positive

/-- Consecutive times are, in order, each one step after the one before. -/
theorem consecutive_iff (positive : 0 < step) (times : List ℤ) :
    Consecutive step times ↔
      (times.insertionSort (· ≤ ·)).IsChain fun x y => y = x + step := by
  have perm := times.perm_insertionSort (· ≤ ·)
  constructor
  · rintro ⟨start, same⟩
    have chain : (slots step start times.length).IsChain fun x y => y = x + step :=
      isChain_slots start times.length
    have increasing := pairwise_of_isChain positive chain
    have sorted := times.pairwise_insertionSort (· ≤ ·)
    have equal : times.insertionSort (· ≤ ·) = slots step start times.length :=
      (perm.trans same).eq_of_pairwise' sorted (increasing.imp le_of_lt)
    rw [equal]
    exact chain
  · intro chain
    obtain ⟨start, same⟩ := eq_slots_of_isChain chain
    rw [perm.length_eq] at same
    exact ⟨start, same ▸ perm.symm⟩

/-! ## Tolerances -/

/-- On a grid, the next time within less than two steps is one step away. -/
theorem eq_add_step_iff {x y limit : ℤ} (positive : 0 < step) (aligned : step ∣ y - x)
    (loose : step ≤ limit) (tight : limit < 2 * step) :
    x < y ∧ y - x ≤ limit ↔ y = x + step := by
  constructor
  · rintro ⟨later, near⟩
    obtain ⟨k, distance⟩ := aligned
    have some : 0 < k := by
      by_contra none
      have := mul_nonpos_of_nonneg_of_nonpos positive.le (not_lt.mp none)
      linarith
    have one : k < 2 := by
      by_contra many
      have := mul_le_mul_of_nonneg_left (not_lt.mp many) positive.le
      linarith
    obtain rfl : k = 1 := by omega
    linarith
  · rintro rfl
    constructor <;> linarith

/-- Along steps of the grid, what holds of adjacent entries is what holds of entries one step
apart. -/
theorem isChain_iff_of_steps {time : α → ℤ} {R : α → α → Prop} (positive : 0 < step)
    {xs : List α} (steps : xs.IsChain fun x y => time y = time x + step) :
    xs.IsChain R ↔ ∀ x ∈ xs, ∀ y ∈ xs, time y = time x + step → R x y := by
  have increasing : xs.Pairwise fun x y => time x < time y := by
    have chain : (xs.map time).IsChain fun x y => y = x + step := (List.isChain_map time).mpr steps
    exact List.pairwise_map.mp (pairwise_of_isChain positive chain)
  induction xs with
  | nil => simp
  | cons x rest ih =>
      cases rest with
      | nil =>
          refine iff_of_true (.singleton x) ?_
          simp only [List.mem_singleton]
          rintro _ rfl _ rfl next
          linarith
      | cons y rest =>
          obtain ⟨next, following⟩ := List.isChain_cons_cons.mp steps
          obtain ⟨above, ascending⟩ := List.pairwise_cons.mp increasing
          have beyond := (List.pairwise_cons.mp ascending).1
          refine (List.isChain_cons_cons.trans (and_congr_right' (ih following ascending))).trans ?_
          constructor
          · rintro ⟨first, later⟩ a inA b inB apart
            rcases List.mem_cons.mp inA with rfl | memA
            · rcases List.mem_cons.mp inB with rfl | memB
              · linarith
              · rcases List.mem_cons.mp memB with rfl | farther
                · exact first
                · have far := beyond b farther
                  linarith
            · rcases List.mem_cons.mp inB with rfl | memB
              · have far := above a memA
                linarith
              · exact later a memA b memB apart
          · intro all
            exact ⟨all x List.mem_cons_self y (List.mem_cons_of_mem _ List.mem_cons_self) next,
              fun a inA b inB => all a (List.mem_cons_of_mem _ inA) b (List.mem_cons_of_mem _ inB)⟩

/-- **On a grid, a tolerance of less than two steps finds every missing slot.** The entries are
distinct and, in order, each within the tolerance of the one before exactly if they are
consecutive; a condition on adjacent entries is then one on entries one step apart. -/
theorem isChain_sorted_iff {time : α → ℤ} {R : α → α → Prop} {limit : ℤ} (positive : 0 < step)
    (loose : step ≤ limit) (tight : limit < 2 * step) {xs : List α}
    (aligned : ∀ x ∈ xs, ∀ y ∈ xs, step ∣ time y - time x) :
    ((xs.map time).Nodup ∧ (xs.insertionSort fun x y => time x ≤ time y).IsChain
        fun x y => time y - time x ≤ limit ∧ R x y) ↔
      Consecutive step (xs.map time) ∧
        ∀ x ∈ xs, ∀ y ∈ xs, time y = time x + step → R x y := by
  set sorted := xs.insertionSort fun x y => time x ≤ time y with sortedEq
  have perm : sorted.Perm xs := List.perm_insertionSort ..
  have times : (xs.map time).insertionSort (· ≤ ·) = sorted.map time :=
    (List.map_insertionSort (fun x y => time x ≤ time y) (· ≤ ·) time xs
      fun _ _ _ _ => Iff.rfl).symm
  have steps : Consecutive step (xs.map time) ↔
      sorted.IsChain fun x y => time y = time x + step := by
    rw [consecutive_iff positive, times, List.isChain_map]
  rw [steps]
  constructor
  · rintro ⟨distinct, chain⟩
    have increasing : (sorted.map time).Pairwise (· < ·) := by
      have nodup : (sorted.map time).Nodup := (perm.map time).nodup_iff.mpr distinct
      have ordered := (xs.map time).pairwise_insertionSort (· ≤ ·)
      rw [times] at ordered
      exact (ordered.and nodup).imp fun pair => lt_of_le_of_ne pair.1 pair.2
    have later : sorted.IsChain fun x y => time x < time y :=
      (List.isChain_map time).mp increasing.isChain
    have next : sorted.IsChain fun x y => time y = time x + step := by
      refine List.isChain_iff_getElem.mpr fun i inside => ?_
      refine (eq_add_step_iff positive ?_ loose tight).mp
        ⟨List.isChain_iff_getElem.mp later i inside, (List.isChain_iff_getElem.mp chain i inside).1⟩
      exact aligned _ (perm.mem_iff.mp (List.getElem_mem _)) _
        (perm.mem_iff.mp (List.getElem_mem _))
    exact ⟨next, fun x inX y inY => (isChain_iff_of_steps positive next).mp
      (chain.imp fun _ _ => And.right) x (perm.mem_iff.mpr inX) y (perm.mem_iff.mpr inY)⟩
  · rintro ⟨chain, related⟩
    have increasing : (sorted.map time).Pairwise (· < ·) :=
      pairwise_of_isChain positive ((List.isChain_map time).mpr chain)
    refine ⟨(perm.map time).nodup_iff.mp (increasing.imp ne_of_lt), ?_⟩
    refine (isChain_iff_of_steps positive chain).mpr fun x inX y inY apart => ⟨?_, ?_⟩
    · linarith
    · exact related x (perm.mem_iff.mp inX) y (perm.mem_iff.mp inY) apart

end TradeOS.Slots
