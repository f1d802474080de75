import TradeOS.Technical.ColumnForms
import TradeOS.Technical.Patterns

/-!
# What the search for extrema finds

The search runs two loops at every bar that has a full window on both sides. It returns the
bars that are local extrema, in their order (`extrema_eq`): those beyond all bars of the window
before them, with no bar of the window after them beyond them.
-/

set_option autoImplicit false

namespace TradeOS.Technical

open Programs CheckedArray

/-- A bar beyond the window before it, and not passed in the window after it. -/
structure LocalExtremum (beyond : ℚ → ℚ → Bool) (prices : List ℚ) (window i : ℕ) : Prop where
  before : window ≤ i
  behind : i + window < prices.length
  earlier : ∀ j ∈ List.range' 1 window, beyond (priceAt prices i) (priceAt prices (i - j)) = true
  later : ∀ j ∈ List.range' 1 window, beyond (priceAt prices (i + j)) (priceAt prices i) = false

section Search

variable (beyond : ℚ → ℚ → Bool) (prices : List ℚ) (window : ℕ)

instance (i : ℕ) : Decidable (LocalExtremum beyond prices window i) :=
  decidable_of_iff (window ≤ i ∧ i + window < prices.length ∧
      (∀ j ∈ List.range' 1 window, beyond (priceAt prices i) (priceAt prices (i - j)) = true) ∧
      ∀ j ∈ List.range' 1 window, beyond (priceAt prices (i + j)) (priceAt prices i) = false)
    ⟨fun ⟨before, behind, earlier, later⟩ => ⟨before, behind, earlier, later⟩,
      fun found => ⟨found.before, found.behind, found.earlier, found.later⟩⟩

/-- The local extrema of a series. -/
def localExtrema : List ℕ :=
  (List.range prices.length).filter fun i => LocalExtremum beyond prices window i

variable {beyond prices window}

theorem mem_localExtrema {i : ℕ} :
    i ∈ localExtrema beyond prices window ↔ LocalExtremum beyond prices window i := by
  rw [localExtrema, List.mem_filter, List.mem_range, decide_eq_true_eq, and_iff_right_iff_imp]
  intro found
  have behind := found.behind
  omega

theorem sorted_localExtrema : (localExtrema beyond prices window).Pairwise (· < ·) :=
  List.pairwise_lt_range.filter _

/-- One bar of the search. -/
theorem isExtremum_eq {i : ℕ} (before : window ≤ i) (behind : i + window < prices.length) :
    isExtremum beyond prices window i = .ok (decide (LocalExtremum beyond prices window i)) := by
  have earlier : allOf (fun j => do
      let other ← readAt prices (i - j)
      return beyond (priceAt prices i) other) (List.range' 1 window) =
        .ok ((List.range' 1 window).all fun j =>
          beyond (priceAt prices i) (priceAt prices (i - j))) := by
    refine allOf_eq fun j member => ?_
    rw [readAt_eq_priceAt (by omega)]
    rfl
  have later : allOf (fun j => do
      let other ← readAt prices (i + j)
      return !beyond other (priceAt prices i)) (List.range' 1 window) =
        .ok ((List.range' 1 window).all fun j =>
          !beyond (priceAt prices (i + j)) (priceAt prices i)) := by
    refine allOf_eq fun j member => ?_
    have reach := (List.mem_range'_1.mp member).2
    rw [readAt_eq_priceAt (by omega)]
    rfl
  rw [isExtremum, readAt_eq_priceAt (by omega)]
  show (allOf _ _ >>= _) = _
  rw [earlier]
  show (if _ then allOf _ _ else _) = _
  have same : decide (LocalExtremum beyond prices window i) =
      (((List.range' 1 window).all fun j =>
          beyond (priceAt prices i) (priceAt prices (i - j))) &&
        (List.range' 1 window).all fun j =>
          !beyond (priceAt prices (i + j)) (priceAt prices i)) := by
    rw [Bool.eq_iff_iff, decide_eq_true_eq, Bool.and_eq_true, List.all_eq_true, List.all_eq_true]
    simp only [Bool.not_eq_true']
    exact ⟨fun found => ⟨found.earlier, found.later⟩,
      fun ⟨first, second⟩ => ⟨before, behind, first, second⟩⟩
  rw [later, same]
  cases (List.range' 1 window).all fun j => beyond (priceAt prices i) (priceAt prices (i - j)) <;>
    rfl

/-- **The search returns the local extrema.** -/
theorem extrema_eq (beyond : ℚ → ℚ → Bool) (prices : List ℚ) (window : ℕ) :
    extrema beyond prices window = .ok (localExtrema beyond prices window) := by
  have selected : extrema beyond prices window =
      .ok ((List.range' window (prices.length - window - window)).filter fun i =>
        decide (LocalExtremum beyond prices window i)) := by
    refine select_eq fun i member => ?_
    obtain ⟨before, reach⟩ := List.mem_range'_1.mp member
    exact isExtremum_eq before (by omega)
  rw [selected]
  refine congrArg Except.ok (List.Pairwise.eq_of_mem_iff (r := (· < ·))
    (List.Pairwise.filter _ List.pairwise_lt_range') sorted_localExtrema fun i => ?_)
  rw [mem_localExtrema, List.mem_filter, decide_eq_true_eq, List.mem_range'_1,
    and_iff_right_iff_imp]
  intro found
  have before := found.before
  have behind := found.behind
  omega

theorem findLocalExtrema_eq (prices : List ℚ) (window : ℕ) :
    findLocalExtrema prices window =
      .ok (localExtrema above prices window, localExtrema below prices window) := by
  rw [findLocalExtrema, extrema_eq, extrema_eq]
  rfl

end Search

end TradeOS.Technical
