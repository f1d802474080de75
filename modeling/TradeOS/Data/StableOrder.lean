import Mathlib.Data.List.Sort

/-!
# Stable orders

A stable sort by a score, the highest first, keeps the entries of one score in the order in which
they were (`filter_mergeSort`). So where the entries of a list have turns, each entry of the sorted
list precedes the later ones: by its score, or by its turn if the scores are the same
(`pairwise_mergeSort`).

An order like this leaves no choice. Two lists with the same entries that are both in it are the
same list (`eq_of_ranked`).
-/

set_option autoImplicit false

namespace TradeOS.StableOrder

variable {α β : Type} [LinearOrder β]

/-- The higher score precedes, and of two entries of one score the one of the earlier turn. -/
def Precedes (score : α → β) (turn : α → ℕ) (x y : α) : Prop :=
  score y < score x ∨ score x = score y ∧ turn x < turn y

theorem not_precedes_self (score : α → β) (turn : α → ℕ) (x : α) : ¬ Precedes score turn x x := by
  rintro (lower | ⟨-, later⟩)
  · exact lt_irrefl _ lower
  · exact lt_irrefl _ later

theorem Precedes.asymm {score : α → β} {turn : α → ℕ} {x y : α} (before : Precedes score turn x y) :
    ¬ Precedes score turn y x := by
  rcases before with lower | ⟨same, later⟩
  · rintro (higher | ⟨same, -⟩)
    · exact lt_asymm lower higher
    · exact lower.ne same
  · rintro (higher | ⟨-, earlier⟩)
    · exact higher.ne same
    · exact lt_asymm later earlier

instance (score : α → β) (turn : α → ℕ) : Std.Irrefl (Precedes score turn) :=
  ⟨not_precedes_self score turn⟩

instance (score : α → β) (turn : α → ℕ) : Std.Antisymm (Precedes score turn) :=
  ⟨fun _ _ before after => absurd after before.asymm⟩

/-- Two lists of the same entries in this order are one list. -/
theorem eq_of_ranked {score : α → β} {turn : α → ℕ} {xs ys : List α}
    (first : xs.Pairwise (Precedes score turn)) (second : ys.Pairwise (Precedes score turn))
    (same : ∀ x, x ∈ xs ↔ x ∈ ys) : xs = ys :=
  first.eq_of_mem_iff second same

/-! ## Sorting -/

section Sorting

variable {score : α → β} {le : α → α → Bool} (ranks : ∀ x y, le x y = true ↔ score y ≤ score x)

include ranks

theorem le_trans_of_ranks (x y z : α) (first : le x y = true) (second : le y z = true) :
    le x z = true :=
  (ranks x z).mpr (((ranks y z).mp second).trans ((ranks x y).mp first))

theorem le_total_of_ranks (x y : α) : (le x y || le y x) = true := by
  rw [Bool.or_eq_true, ranks, ranks]
  exact le_total (score y) (score x)

/-- The entries of one score keep their order. -/
theorem filter_mergeSort (xs : List α) (s : β) :
    (xs.mergeSort le).filter (fun x => score x = s) = xs.filter fun x => score x = s := by
  have tied : (xs.filter fun x => score x = s).Pairwise fun x y => le x y = true := by
    apply List.pairwise_of_forall_mem_list
    intro x inX y inY
    have first : score x = s := of_decide_eq_true (List.mem_filter.mp inX).2
    have second : score y = s := of_decide_eq_true (List.mem_filter.mp inY).2
    rw [ranks, first, second]
  have kept := List.sublist_mergeSort (le_trans_of_ranks ranks) (le_total_of_ranks ranks) tied
    (List.filter_sublist (l := xs))
  have own := kept.filter fun x => score x = s
  rw [List.filter_filter] at own
  simp only [Bool.and_self] at own
  have length := ((List.mergeSort_perm xs le).filter fun x => score x = s).length_eq
  exact (own.eq_of_length length.symm).symm

/-- **A stable sort by a score ranks the entries: by score, and in a tie by turn.** -/
theorem pairwise_mergeSort {turn : α → ℕ} {xs : List α}
    (turns : xs.Pairwise fun x y => turn x < turn y) :
    (xs.mergeSort le).Pairwise (Precedes score turn) := by
  apply List.pairwise_of_forall_sublist
  intro x y pair
  have sorted := List.pairwise_mergeSort (le_trans_of_ranks ranks) (le_total_of_ranks ranks) xs
  rcases ((ranks x y).mp (sorted.forall_sublist pair)).lt_or_eq with lower | same
  · exact .inl lower
  · refine .inr ⟨same.symm, ?_⟩
    have tied := pair.filter fun z => score z = score x
    rw [filter_mergeSort ranks] at tied
    have both : [x, y].filter (fun z => score z = score x) = [x, y] := by
      simp [same]
    rw [both] at tied
    exact turns.forall_sublist (tied.trans List.filter_sublist)

end Sorting

end TradeOS.StableOrder
