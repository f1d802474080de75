import TradeOS.Data.GreedyFill
import TradeOS.OrderFlow.Metrics

/-!
# The estimated quality of an execution

The order flow engine asks only for bought sizes. Here the estimate is taken as the source has
it, for both sides of the market and for a missing book, and with the rounding of its result as
a parameter: `roundTo` gives what is reported, the identity gives the exact estimate.

The loop over the levels is a greedy fill (`fillLevels_eq`), which ends silently when the side
is used up. So the slippage is that of the part which was filled:

* it grows with the order (`estimate_mono`), up to the whole side and not beyond;
* an order larger than its side takes the whole side (`takenLevels_eq_self`) and is rated by it.
  `rated_within_depth_iff` says when the rating is excellent or good only with enough depth.

A rating may hang on the last digit of a slippage (`ratedWell_edgeBook`), so what is said of
ratings is said for every arithmetic in which the slippage is computed.
-/

set_option autoImplicit false

namespace TradeOS.OrderFlow

open Numeric MarketData
open GreedyFill (Sized total costOf)
open Risk (ExecutionQuality)

/-! ## The estimate -/

/-- The estimate before its result is rounded. -/
def exactEstimate (snapshot : Option OrderBookSnapshot) (orderSize : ℚ) (side : String) :
    ExecutionMetrics :=
  estimateWith (fun _ value => value) snapshot orderSize side

/-- The ratings from the best to the worst. -/
def grade : ExecutionQuality → ℕ
  | .excellent => 0
  | .good => 1
  | .fair => 2
  | .poor => 3
  | .failed => 4

theorem grade_mono {s t : ℚ} (le : s ≤ t) :
    grade (slippageQuality s) ≤ grade (slippageQuality t) := by
  unfold slippageQuality
  split_ifs <;> first | decide | (exfalso; linarith)

/-- Excellent and good are the ratings of a slippage below fifteen basis points. -/
theorem slippageQuality_top_iff (s : ℚ) :
    slippageQuality s = .excellent ∨ slippageQuality s = .good ↔ s < 15 := by
  unfold slippageQuality
  split_ifs with excellent good
  · simp only [true_or, true_iff]
    linarith
  · simpa using good
  · simpa using good
  · simpa using good

/-! ## The loop over the levels -/

/-- The loop fills what the levels have, up to the size of the order. -/
theorem fillLevels_eq {levels : List (ℚ × ℚ)} (sized : Sized levels) {orderSize filled : ℚ}
    (cost : ℚ) (fitting : filled ≤ orderSize) :
    fillLevels exactRounding orderSize levels filled cost =
      (filled + min (total levels) (orderSize - filled),
        cost + costOf levels (orderSize - filled)) := by
  induction levels generalizing filled cost with
  | nil =>
      rw [GreedyFill.total_nil, min_eq_left (sub_nonneg.mpr fitting), add_zero]
      show (filled, cost) = (filled, cost + 0)
      rw [add_zero]
  | cons level levels ih =>
      obtain ⟨own, others⟩ := GreedyFill.sized_cons.mp sized
      have rest := GreedyFill.total_nonneg others
      rw [GreedyFill.total_cons, GreedyFill.given_cons rest, GreedyFill.costOf_cons]
      simp only [fillLevels]
      split
      · -- The order is complete, and the levels behind are not touched.
        rename_i complete
        have taken : min level.2 (orderSize - filled) = orderSize - filled :=
          le_antisymm (min_le_right _ _) (by linarith)
        rw [taken, sub_self, min_eq_right rest, GreedyFill.costOf_zero others, add_zero, add_zero]
      · rename_i incomplete
        rw [ih others _ (not_le.mp incomplete).le, sub_sub, add_assoc, add_assoc]

/-! ## Well-formed books -/

/-- A book with positive prices and sizes. -/
structure PositiveBook (book : OrderBookSnapshot) : Prop where
  bids : ∀ level ∈ book.bids, 0 < level.1 ∧ 0 < level.2
  asks : ∀ level ∈ book.asks, 0 < level.1 ∧ 0 < level.2

/-- A positive book with the best level of each side first. -/
structure SortedBook (book : OrderBookSnapshot) : Prop extends PositiveBook book where
  descending : book.bids.Pairwise fun better worse => worse.1 ≤ better.1
  ascending : book.asks.Pairwise fun better worse => better.1 ≤ worse.1

/-- The average price of an amount taken from levels. -/
def averagePrice (levels : List (ℚ × ℚ)) (amount : ℚ) : ℚ :=
  costOf levels amount / min (total levels) amount

section Books

variable {book : OrderBookSnapshot} {side : String}

theorem PositiveBook.consumed (positive : PositiveBook book) (side : String) :
    ∀ level ∈ consumedLevels book side, 0 < level.1 ∧ 0 < level.2 := by
  unfold consumedLevels
  split
  · exact positive.asks
  · exact positive.bids

theorem PositiveBook.sized (positive : PositiveBook book) (side : String) :
    Sized (consumedLevels book side) :=
  fun level member => (positive.consumed side level member).2.le

theorem consumedLevels_ne_nil (present : ¬ (book.bids.isEmpty ∨ book.asks.isEmpty))
    (side : String) : consumedLevels book side ≠ [] := by
  rw [List.isEmpty_iff, List.isEmpty_iff, not_or] at present
  unfold consumedLevels
  split
  · exact present.2
  · exact present.1

theorem PositiveBook.total_pos (positive : PositiveBook book)
    (nonempty : consumedLevels book side ≠ []) : 0 < total (consumedLevels book side) := by
  have sized := positive.sized side
  have each := positive.consumed side
  revert sized each
  cases same : consumedLevels book side with
  | nil => exact absurd same nonempty
  | cons level levels =>
      intro sized each
      rw [GreedyFill.total_cons]
      exact add_pos_of_pos_of_nonneg (each level List.mem_cons_self).2
        (GreedyFill.total_nonneg (GreedyFill.sized_cons.mp sized).2)

/-- The estimate of an order for a book with levels on both sides. -/
theorem estimateWith_some (positive : PositiveBook book)
    (present : ¬ (book.bids.isEmpty ∨ book.asks.isEmpty)) (round : ℕ → ℚ → ℚ) {orderSize : ℚ}
    (wanted : 0 < orderSize) :
    estimateWith round (some book) orderSize side =
      { expectedSlippage := round 1 (slippageBps (averagePrice (consumedLevels book side) orderSize)
          ((consumedLevels book side).headD (0, 0)).1)
        executionCondition := slippageQuality
          (slippageBps (averagePrice (consumedLevels book side) orderSize)
            ((consumedLevels book side).headD (0, 0)).1)
        availableLiquidity := round 2 (total (consumedLevels book side))
        marketImpact := round 4 (share orderSize (total (consumedLevels book side)) 1) } := by
  have depth := positive.total_pos (consumedLevels_ne_nil present side)
  have filled : min (total (consumedLevels book side)) orderSize ≠ 0 := (lt_min depth wanted).ne'
  simp only [estimateWith, if_neg present, fillLevels_eq (positive.sized side) 0 wanted.le,
    zero_add, sub_zero, if_neg filled, averagePrice]
  rfl

end Books

/-! ## A larger order -/

section Growth

variable {levels : List (ℚ × ℚ)} {a b : ℚ}

/-- Upwards from the best price, the average moves away from it. -/
theorem distance_mono_of_ascending (sized : Sized levels) (depth : 0 < total levels)
    (ascending : levels.Pairwise fun better worse => better.1 ≤ worse.1) (pos : 0 < a)
    (le : a ≤ b) : |averagePrice levels a - (levels.headD (0, 0)).1| ≤
      |averagePrice levels b - (levels.headD (0, 0)).1| := by
  have small : 0 < min (total levels) a := lt_min depth pos
  have large : 0 < min (total levels) b := lt_min depth (pos.trans_le le)
  have average : averagePrice levels a ≤ averagePrice levels b :=
    (div_le_div_iff₀ small large).mpr (GreedyFill.average_mono sized ascending pos.le le)
  have best : (levels.headD (0, 0)).1 ≤ averagePrice levels a := by
    refine (le_div_iff₀ small).mpr (GreedyFill.costOf_ge sized ?_ pos.le)
    cases levels with
    | nil => exact fun level member => absurd member List.not_mem_nil
    | cons level levels =>
        exact List.forall_mem_cons.mpr ⟨le_rfl, (List.pairwise_cons.mp ascending).1⟩
  rw [abs_of_nonneg (sub_nonneg.mpr best), abs_of_nonneg (sub_nonneg.mpr (best.trans average))]
  exact sub_le_sub_right average _

/-- Downwards from the best price as well. -/
theorem distance_mono_of_descending (sized : Sized levels) (depth : 0 < total levels)
    (descending : levels.Pairwise fun better worse => worse.1 ≤ better.1) (pos : 0 < a)
    (le : a ≤ b) : |averagePrice levels a - (levels.headD (0, 0)).1| ≤
      |averagePrice levels b - (levels.headD (0, 0)).1| := by
  have small : 0 < min (total levels) a := lt_min depth pos
  have large : 0 < min (total levels) b := lt_min depth (pos.trans_le le)
  have average : averagePrice levels b ≤ averagePrice levels a :=
    (div_le_div_iff₀ large small).mpr (GreedyFill.average_anti sized descending pos.le le)
  have best : averagePrice levels a ≤ (levels.headD (0, 0)).1 := by
    refine (div_le_iff₀ small).mpr (GreedyFill.costOf_le sized ?_ pos.le)
    cases levels with
    | nil => exact fun level member => absurd member List.not_mem_nil
    | cons level levels =>
        exact List.forall_mem_cons.mpr ⟨le_rfl, (List.pairwise_cons.mp descending).1⟩
  rw [abs_of_nonpos (sub_nonpos.mpr best), abs_of_nonpos (sub_nonpos.mpr (average.trans best))]
  exact neg_le_neg (sub_le_sub_right average _)

end Growth

/-- A price farther from the best one has no smaller slippage. -/
theorem slippageBps_mono {near far bestPrice : ℚ}
    (farther : |near - bestPrice| ≤ |far - bestPrice|) :
    slippageBps near bestPrice ≤ slippageBps far bestPrice := by
  refine mul_le_mul_of_nonneg_right ?_ (by norm_num)
  unfold share
  split_ifs with priced
  · exact div_le_div_of_nonneg_right farther priced.le
  · exact le_rfl

theorem SortedBook.slippage_mono {book : OrderBookSnapshot} {side : String}
    (sorted : SortedBook book) (nonempty : consumedLevels book side ≠ []) {a b : ℚ} (pos : 0 < a)
    (le : a ≤ b) :
    slippageBps (averagePrice (consumedLevels book side) a)
        ((consumedLevels book side).headD (0, 0)).1 ≤
      slippageBps (averagePrice (consumedLevels book side) b)
        ((consumedLevels book side).headD (0, 0)).1 := by
  refine slippageBps_mono ?_
  have sized := sorted.sized side
  have depth := sorted.total_pos nonempty
  revert sized depth
  unfold consumedLevels
  split
  · exact fun sized depth => distance_mono_of_ascending sized depth sorted.ascending pos le
  · exact fun sized depth => distance_mono_of_descending sized depth sorted.descending pos le

/-- **The larger of two orders has no smaller slippage and impact, and no better rating.** It
holds with every rounding that keeps the order. -/
theorem estimateWith_mono {round : ℕ → ℚ → ℚ} (rounding : ∀ digits, Monotone (round digits))
    {book : OrderBookSnapshot} (sorted : SortedBook book) (side : String) {a b : ℚ} (pos : 0 < a)
    (le : a ≤ b) :
    (estimateWith round (some book) a side).expectedSlippage ≤
        (estimateWith round (some book) b side).expectedSlippage ∧
      (estimateWith round (some book) a side).marketImpact ≤
        (estimateWith round (some book) b side).marketImpact ∧
      grade (estimateWith round (some book) a side).executionCondition ≤
        grade (estimateWith round (some book) b side).executionCondition := by
  by_cases present : book.bids.isEmpty ∨ book.asks.isEmpty
  · simp only [estimateWith, if_pos present]
    exact ⟨le_rfl, le_rfl, le_rfl⟩
  · have nonempty := consumedLevels_ne_nil present side
    have slippage := sorted.slippage_mono nonempty pos le
    have depth := sorted.total_pos nonempty
    rw [estimateWith_some sorted.toPositiveBook present round pos,
      estimateWith_some sorted.toPositiveBook present round (pos.trans_le le)]
    refine ⟨rounding 1 slippage, rounding 4 ?_, grade_mono slippage⟩
    rw [share, share, if_pos depth, if_pos depth]
    exact div_le_div_of_nonneg_right le depth.le

/-- **Slippage, impact and rating of the exact estimate grow with the order.** -/
theorem estimate_mono (book : OrderBookSnapshot) (sorted : SortedBook book) (side : String)
    (a b : ℚ) (pos : 0 < a) (le : a ≤ b) :
    (exactEstimate (some book) a side).expectedSlippage ≤
        (exactEstimate (some book) b side).expectedSlippage ∧
      (exactEstimate (some book) a side).marketImpact ≤
        (exactEstimate (some book) b side).marketImpact ∧
      grade (exactEstimate (some book) a side).executionCondition ≤
        grade (exactEstimate (some book) b side).executionCondition :=
  estimateWith_mono (fun _ => monotone_id) sorted side pos le

/-- A small book. -/
def sampleBook : OrderBookSnapshot where
  symbol := "AAPL"
  timestamp := 0
  bids := [(99, 1), (98, 2)]
  asks := [(100, 1), (101, 2)]

theorem sampleBook_sorted : SortedBook sampleBook where
  bids := by simp [sampleBook]
  asks := by simp [sampleBook]
  descending := by norm_num [sampleBook]
  ascending := by norm_num [sampleBook]

theorem estimate_mono_sample :
    (exactEstimate (some sampleBook) 1 "buy").expectedSlippage ≤
        (exactEstimate (some sampleBook) 2 "buy").expectedSlippage ∧
      (exactEstimate (some sampleBook) 1 "buy").marketImpact ≤
        (exactEstimate (some sampleBook) 2 "buy").marketImpact ∧
      grade (exactEstimate (some sampleBook) 1 "buy").executionCondition ≤
        grade (exactEstimate (some sampleBook) 2 "buy").executionCondition :=
  estimate_mono sampleBook sampleBook_sorted "buy" 1 2 one_pos one_le_two

/-! ## An order larger than its side -/

section Taken

variable (fl : Rounding)

/-- What an order takes of each level, of which a part is filled already. Nothing is taken of the
levels behind the one that completes the order. -/
def takenLevels (orderSize : ℚ) : List (ℚ × ℚ) → ℚ → List (ℚ × ℚ)
  | [], _ => []
  | (price, size) :: levels, filled =>
      let fill := min size (fl (orderSize - filled))
      (price, fill) ::
        if orderSize ≤ fl (filled + fill) then []
        else takenLevels orderSize levels (fl (filled + fill))

/-- The loop adds up what is taken, and what it costs. -/
theorem fillLevels_eq_sums (orderSize : ℚ) (levels : List (ℚ × ℚ)) (filled cost : ℚ) :
    fillLevels fl orderSize levels filled cost =
      (((takenLevels fl orderSize levels filled).map Prod.snd).foldl
          (fun total size => fl (total + size)) filled,
        ((takenLevels fl orderSize levels filled).map fun level => fl (level.2 * level.1)).foldl
          (fun total spent => fl (total + spent)) cost) := by
  induction levels generalizing filled cost with
  | nil => rfl
  | cons level levels ih =>
      simp only [fillLevels, takenLevels]
      split
      · rfl
      · rw [ih]
        rfl

/-- The levels hold less than an order wants, also as their sizes are added up. -/
def RunsBelow (orderSize : ℚ) : List (ℚ × ℚ) → ℚ → Prop
  | [], _ => True
  | (_, size) :: levels, filled =>
      size ≤ fl (orderSize - filled) ∧ fl (filled + size) < orderSize ∧
        RunsBelow orderSize levels (fl (filled + size))

/-- Such an order takes the whole side. -/
theorem takenLevels_eq_self {orderSize : ℚ} {levels : List (ℚ × ℚ)} {filled : ℚ}
    (below : RunsBelow fl orderSize levels filled) :
    takenLevels fl orderSize levels filled = levels := by
  induction levels generalizing filled with
  | nil => rfl
  | cons level levels ih =>
      obtain ⟨fits, more, rest⟩ := below
      simp only [takenLevels, min_eq_left fits, if_neg (not_le.mpr more), ih rest]

/-- Where nothing is rounded, an order larger than its side is such an order. -/
theorem runsBelow_exact {orderSize : ℚ} {levels : List (ℚ × ℚ)} (sized : Sized levels)
    {filled : ℚ} (larger : filled + total levels < orderSize) :
    RunsBelow exactRounding orderSize levels filled := by
  induction levels generalizing filled with
  | nil => trivial
  | cons level levels ih =>
      obtain ⟨own, others⟩ := GreedyFill.sized_cons.mp sized
      have rest := GreedyFill.total_nonneg others
      rw [GreedyFill.total_cons, ← add_assoc] at larger
      refine ⟨?_, ?_, ih others larger⟩
      · show level.2 ≤ orderSize - filled
        linarith
      · show filled + level.2 < orderSize
        linarith

theorem takenLevels_exact {orderSize : ℚ} {levels : List (ℚ × ℚ)} (sized : Sized levels)
    (larger : total levels < orderSize) :
    takenLevels exactRounding orderSize levels 0 = levels :=
  takenLevels_eq_self exactRounding (runsBelow_exact sized (by rwa [zero_add]))

/-- The computed average price of what is taken. -/
def takenPrice (taken : List (ℚ × ℚ)) : ℚ :=
  fl (fl.sum (taken.map fun level => fl (level.2 * level.1)) / fl.sum (taken.map Prod.snd))

/-- What is taken is nothing, or its average price is off the best price by fifteen basis points,
as they are computed. -/
def OffTheBest (taken : List (ℚ × ℚ)) (bestPrice : ℚ) : Prop :=
  fl.sum (taken.map Prod.snd) = 0 ∨ 15 ≤ slippageBps (takenPrice fl taken) bestPrice fl

instance (taken : List (ℚ × ℚ)) (bestPrice : ℚ) : Decidable (OffTheBest fl taken bestPrice) :=
  inferInstanceAs (Decidable (_ ∨ _))

end Taken

section Depth

variable {fl : Rounding} {book : OrderBookSnapshot} {side : String} {orderSize : ℚ}

/-- The estimate rates an order as one of the two best. -/
def RatedWell (fl : Rounding) (book : OrderBookSnapshot) (orderSize : ℚ) (side : String) : Prop :=
  (estimateWith roundTo (some book) orderSize side fl).executionCondition = .excellent ∨
    (estimateWith roundTo (some book) orderSize side fl).executionCondition = .good

/-- Without levels on one of the sides the rating is fair. -/
theorem not_ratedWell_of_missing (missing : book.bids.isEmpty ∨ book.asks.isEmpty) :
    ¬ RatedWell fl book orderSize side := by
  simp only [RatedWell, estimateWith, if_pos missing]
  decide

/-- With levels on both sides the rating is that of what is taken. -/
theorem ratedWell_iff (present : ¬ (book.bids.isEmpty ∨ book.asks.isEmpty)) :
    RatedWell fl book orderSize side ↔
      ¬ OffTheBest fl (takenLevels fl orderSize (consumedLevels book side) 0)
        ((consumedLevels book side).headD (0, 0)).1 := by
  rw [RatedWell, OffTheBest, Rounding.sum, not_or, not_le]
  simp only [estimateWith, if_neg present, fillLevels_eq_sums]
  split
  · rename_i nothing
    exact iff_of_false (by decide) fun taken => taken.1 nothing
  · rename_i filled
    exact (slippageQuality_top_iff _).trans (and_iff_right filled).symm

/-- **The best ratings are kept for orders within the depth of their side exactly if the order
is one, a side has no levels, or what the order takes is off the best price.** -/
theorem rated_within_depth_iff (fl : Rounding) (book : OrderBookSnapshot) (orderSize : ℚ)
    (side : String) :
    (RatedWell fl book orderSize side → orderSize ≤ total (consumedLevels book side)) ↔
      orderSize ≤ total (consumedLevels book side) ∨ book.bids = [] ∨ book.asks = [] ∨
        OffTheBest fl (takenLevels fl orderSize (consumedLevels book side) 0)
          ((consumedLevels book side).headD (0, 0)).1 := by
  by_cases enough : orderSize ≤ total (consumedLevels book side)
  · exact iff_of_true (fun _ => enough) (Or.inl enough)
  · by_cases present : book.bids.isEmpty ∨ book.asks.isEmpty
    · refine iff_of_true (fun rated => absurd rated (not_ratedWell_of_missing present)) ?_
      rw [List.isEmpty_iff, List.isEmpty_iff] at present
      exact Or.inr (present.imp_right Or.inl)
    · have rated := @ratedWell_iff fl book side orderSize present
      rw [List.isEmpty_iff, List.isEmpty_iff, not_or] at present
      simp only [enough, present.1, present.2, false_or, imp_false, rated, not_not]

/-- Of the sample a large order takes the whole side, far off its best price. -/
theorem rated_within_depth_sample :
    RatedWell binary64 sampleBook 5 "buy" → (5 : ℚ) ≤ total (consumedLevels sampleBook "buy") :=
  (rated_within_depth_iff binary64 sampleBook 5 "buy").mpr
    (.inr (.inr (.inr (by decide +kernel))))

/-- A book with one level on each side. -/
def thinBook : OrderBookSnapshot where
  symbol := "AAPL"
  timestamp := 0
  bids := [(99, 1)]
  asks := [(100, 1)]

/-- An order of a hundred units is rated excellent on a side that has one. -/
theorem rated_beyond_depth :
    ¬ ∀ (book : OrderBookSnapshot) (orderSize : ℚ) (side : String),
      PositiveBook book → 0 < orderSize → RatedWell binary64 book orderSize side →
        orderSize ≤ total (consumedLevels book side) := by
  intro within
  have positive : PositiveBook thinBook := ⟨by simp [thinBook], by simp [thinBook]⟩
  have rated : RatedWell binary64 thinBook 100 "buy" := .inl (by decide +kernel)
  have enough := within thinBook 100 "buy" positive (by norm_num) rated
  exact absurd enough (by decide +kernel)

/-- A book whose asks are fifteen basis points off on average, and a little less in doubles. -/
def edgeBook : OrderBookSnapshot where
  symbol := "AAPL"
  timestamp := 0
  bids := [(62, 1)]
  asks := [(63, 1), (binary64 (63189 / 1000), 1)]

/-- The last digit decides the rating. -/
theorem ratedWell_edgeBook :
    RatedWell binary64 edgeBook 3 "buy" ∧ ¬ RatedWell exactRounding edgeBook 3 "buy" := by
  rw [ratedWell_iff (by decide), ratedWell_iff (by decide)]
  decide +kernel

end Depth

end TradeOS.OrderFlow
