import Mathlib.Data.List.Count
import Mathlib.Data.List.Sort
import Mathlib.Algebra.BigOperators.Group.List.Basic
import Mathlib.Data.Finset.Max
import Mathlib.Data.Nat.Cast.Basic
import Mathlib.Tactic.NormNum
import Mathlib.Tactic.Linarith
import Mathlib.Tactic.Ring

/-!
# Average ranks

Equal entries of a list share the mean of the places that they have together when the list is in
order: the average rank. Around the middle of all places it is half the lead of an entry, the
number of entries below it less the number of those above it (`averageRank_sub_middle`).

Leads are antisymmetric. They sum to zero (`sum_lead`), they follow the order of the entries
(`lead_mono`), and the negated list has the opposite ones (`lead_map_antitone`). If the entries are
not all the same, the sizes of their leads sum to at least the number of the others of an entry
(`le_sum_abs_lead`).

The best entries of a list, by a score that tells them apart, are those with few higher scores in
the list, whatever its order (`mem_take_insertionSort_iff`).
-/

set_option autoImplicit false

namespace TradeOS.Ranking

variable {α β : Type} [LinearOrder α] [LinearOrder β]

/-! ## Counting -/

/-- The number of entries below a value. -/
def numBelow (xs : List α) (x : α) : ℕ := xs.countP (· < x)

/-- The number of entries above a value. -/
def numAbove (xs : List α) (x : α) : ℕ := xs.countP (x < ·)

@[simp] theorem numBelow_cons (y : α) (ys : List α) (x : α) :
    numBelow (y :: ys) x = numBelow ys x + if y < x then 1 else 0 := by
  simp [numBelow, List.countP_cons]

@[simp] theorem numAbove_cons (y : α) (ys : List α) (x : α) :
    numAbove (y :: ys) x = numAbove ys x + if x < y then 1 else 0 := by
  simp [numAbove, List.countP_cons]

/-- Every entry is below a value, above it, or the value itself. -/
theorem numBelow_add_count_add_numAbove (xs : List α) (x : α) :
    numBelow xs x + xs.count x + numAbove xs x = xs.length := by
  induction xs with
  | nil => rfl
  | cons y ys ih =>
      rw [numBelow_cons, numAbove_cons, List.count_cons, List.length_cons]
      rcases lt_trichotomy y x with lower | rfl | higher
      · simp [lower, lower.ne, lower.not_gt]
        omega
      · simp
        omega
      · simp [higher, higher.ne', higher.not_gt]
        omega

theorem sum_indicator (xs : List α) (y : α) :
    (xs.map fun x => if y < x then 1 else 0).sum = numAbove xs y := by
  induction xs with
  | nil => rfl
  | cons x xs ih =>
      rw [List.map_cons, List.sum_cons, ih, numAbove_cons]
      exact add_comm _ _

/-- Counted from both sides, the pairs in order are the same. -/
theorem sum_numBelow (xs ys : List α) :
    (xs.map (numBelow ys)).sum = (ys.map (numAbove xs)).sum := by
  induction ys with
  | nil =>
      refine List.sum_eq_zero fun n member => ?_
      obtain ⟨x, -, rfl⟩ := List.mem_map.mp member
      rfl
  | cons y ys ih =>
      have split : numBelow (y :: ys) = fun x => numBelow ys x + if y < x then 1 else 0 := by
        funext x
        exact numBelow_cons y ys x
      rw [split, List.sum_map_add, ih, sum_indicator, List.map_cons, List.sum_cons]
      exact add_comm _ _

theorem numBelow_mono (xs : List α) {x y : α} (le : x ≤ y) : numBelow xs x ≤ numBelow xs y :=
  List.countP_mono_left fun z _ lower => by
    rw [decide_eq_true_eq] at lower ⊢
    exact lower.trans_le le

theorem numAbove_anti (xs : List α) {x y : α} (le : x ≤ y) : numAbove xs y ≤ numAbove xs x :=
  List.countP_mono_left fun z _ higher => by
    rw [decide_eq_true_eq] at higher ⊢
    exact le.trans_lt higher

theorem numBelow_map_antitone {f : α → β} (turns : StrictAnti f) (xs : List α) (x : α) :
    numBelow (xs.map f) (f x) = numAbove xs x := by
  simp only [numBelow, numAbove, List.countP_map, Function.comp_def, turns.lt_iff_gt]

theorem numAbove_map_antitone {f : α → β} (turns : StrictAnti f) (xs : List α) (x : α) :
    numAbove (xs.map f) (f x) = numBelow xs x := by
  simp only [numBelow, numAbove, List.countP_map, Function.comp_def, turns.lt_iff_gt]

/-! ## Leads -/

/-- The number of entries below a value less the number of those above it. -/
def lead (xs : List α) (x : α) : ℚ := numBelow xs x - numAbove xs x

theorem sum_map_sub_cast {γ : Type} (xs : List γ) (f g : γ → ℕ) :
    (xs.map fun x => (f x - g x : ℚ)).sum = (xs.map f).sum - (xs.map g).sum := by
  induction xs with
  | nil => simp
  | cons x xs ih =>
      simp only [List.map_cons, List.sum_cons, ih]
      push_cast
      ring

theorem sum_lead (xs : List α) : (xs.map (lead xs)).sum = 0 := by
  have parts := sum_map_sub_cast xs (numBelow xs) (numAbove xs)
  rwa [sum_numBelow, sub_self] at parts

theorem lead_mono (xs : List α) {x y : α} (le : x ≤ y) : lead xs x ≤ lead xs y :=
  sub_le_sub (Nat.cast_le.mpr (numBelow_mono xs le)) (Nat.cast_le.mpr (numAbove_anti xs le))

theorem lead_map_antitone {f : α → β} (turns : StrictAnti f) (xs : List α) (x : α) :
    lead (xs.map f) (f x) = -lead xs x := by
  rw [lead, lead, numBelow_map_antitone turns, numAbove_map_antitone turns, neg_sub]

/-- A sum of numbers that are not negative is at least what a kind of entries contributes. -/
theorem countP_mul_le_sum {γ : Type} {xs : List γ} {kind : γ → Bool} {f : γ → ℚ} {c : ℚ}
    (nonneg : ∀ x ∈ xs, 0 ≤ f x) (large : ∀ x ∈ xs, kind x = true → c ≤ f x) :
    xs.countP kind * c ≤ (xs.map f).sum := by
  induction xs with
  | nil => simp
  | cons x xs ih =>
      have rest := ih (fun y member => nonneg y (List.mem_cons_of_mem x member))
        fun y member => large y (List.mem_cons_of_mem x member)
      rw [List.countP_cons, List.map_cons, List.sum_cons]
      by_cases ofKind : kind x = true
      · have first := large x List.mem_cons_self ofKind
        rw [if_pos ofKind]
        push_cast
        linarith
      · have first := nonneg x List.mem_cons_self
        rw [if_neg ofKind]
        push_cast
        linarith

/-- If there are two entries, the sizes of the leads sum to at least the number of the others of an
entry. The least entries alone have leads of this size. -/
theorem le_sum_abs_lead {xs : List α} {a b : α} (first : a ∈ xs) (second : b ∈ xs)
    (differ : a ≠ b) : (xs.length - 1 : ℚ) ≤ (xs.map fun x => |lead xs x|).sum := by
  obtain ⟨least, member, below⟩ := xs.toFinset.exists_min_image id ⟨a, List.mem_toFinset.mpr first⟩
  have minimal (x : α) (listed : x ∈ xs) : least ≤ x := below x (List.mem_toFinset.mpr listed)
  have noneBelow : numBelow xs least = 0 :=
    List.countP_eq_zero.mpr fun x listed => by simpa using minimal x listed
  have someAbove : 0 < numAbove xs least := by
    rw [numAbove, List.countP_pos_iff]
    by_cases own : a = least
    · exact ⟨b, second, decide_eq_true ((minimal b second).lt_of_ne (own ▸ differ))⟩
    · exact ⟨a, first, decide_eq_true ((minimal a first).lt_of_ne (Ne.symm own))⟩
  have present := List.count_pos_iff.mpr (List.mem_toFinset.mp member)
  have all := numBelow_add_count_add_numAbove xs least
  rw [noneBelow, zero_add] at all
  have ofLeast : xs.countP (· == least) * (numAbove xs least : ℚ) ≤
      (xs.map fun x => |lead xs x|).sum := by
    refine countP_mul_le_sum (fun x _ => abs_nonneg _) fun x _ same => ?_
    rw [eq_of_beq same, lead, noneBelow, Nat.cast_zero, zero_sub, abs_neg, Nat.abs_cast]
  have product : xs.length ≤ xs.count least * numAbove xs least + 1 := by
    obtain ⟨k, counted⟩ := Nat.exists_eq_add_of_lt present
    obtain ⟨m, higher⟩ := Nat.exists_eq_add_of_lt someAbove
    rw [← all, counted, higher]
    ring_nf
    omega
  have bound : (xs.length : ℚ) ≤ xs.countP (· == least) * numAbove xs least + 1 := by
    exact_mod_cast product
  linarith

/-! ## Average ranks -/

/-- The mean of the places of a value among the entries in order. -/
def averageRank (xs : List α) (x : α) : ℚ := numBelow xs x + (xs.count x + 1) / 2

theorem averageRank_sub_middle (xs : List α) (x : α) :
    averageRank xs x - (xs.length + 1) / 2 = lead xs x / 2 := by
  rw [← numBelow_add_count_add_numAbove xs x, averageRank, lead]
  push_cast
  ring

example : ([3, 1, 3, 2] : List ℚ).map (averageRank [3, 1, 3, 2]) = [7 / 2, 1, 7 / 2, 2] := by
  decide +kernel

/-! ## The best entries -/

section Best

variable {γ : Type} {score : γ → β} {xs : List γ} {x : γ}

/-- In a list in order of falling scores, the first entries are those with few higher scores. -/
theorem mem_take_iff (ordered : xs.Pairwise fun a b => score b < score a) (k : ℕ) :
    x ∈ xs.take k ↔ x ∈ xs ∧ xs.countP (fun y => score x < score y) < k := by
  induction xs generalizing k with
  | nil => simp
  | cons y ys ih =>
      obtain ⟨first, later⟩ := List.pairwise_cons.mp ordered
      cases k with
      | zero => simp
      | succ k =>
          rw [List.take_succ_cons, List.mem_cons, ih later, List.mem_cons, List.countP_cons]
          constructor
          · rintro (rfl | ⟨member, few⟩)
            · have none : ys.countP (fun y => score x < score y) = 0 :=
                List.countP_eq_zero.mpr fun y member => by simpa using (first y member).le
              refine ⟨.inl rfl, ?_⟩
              rw [none]
              simp
            · refine ⟨.inr member, ?_⟩
              rw [if_pos (decide_eq_true (first x member))]
              exact Nat.succ_lt_succ few
          · rintro ⟨rfl | member, few⟩
            · exact .inl rfl
            · rw [if_pos (decide_eq_true (first x member))] at few
              exact .inr ⟨member, Nat.lt_of_succ_lt_succ few⟩

/-- **The best entries, of distinct scores, are those with few higher scores.** -/
theorem mem_take_insertionSort_iff {r : γ → γ → Prop} [DecidableRel r]
    (follows : ∀ a ∈ xs, ∀ b ∈ xs, r a b ↔ score b ≤ score a) (distinct : (xs.map score).Nodup)
    (k : ℕ) :
    x ∈ (xs.insertionSort r).take k ↔ x ∈ xs ∧ xs.countP (fun y => score x < score y) < k := by
  have scores : (xs.insertionSort r).map score = (xs.map score).insertionSort (· ≥ ·) :=
    List.map_insertionSort r (· ≥ ·) score xs follows
  have falling : ((xs.insertionSort r).map score).Pairwise (· ≥ ·) := by
    rw [scores]
    exact List.pairwise_insertionSort _ _
  have perm := List.perm_insertionSort r xs
  have apart : ((xs.insertionSort r).map score).Nodup := (perm.map score).nodup_iff.mpr distinct
  have ordered : (xs.insertionSort r).Pairwise fun a b => score b < score a := by
    refine ((List.pairwise_map.mp falling).and (List.pairwise_map.mp apart)).imp ?_
    rintro a b ⟨above, differ⟩
    exact above.lt_of_ne (Ne.symm differ)
  rw [mem_take_iff ordered, perm.mem_iff, perm.countP_eq]

end Best

end TradeOS.Ranking
