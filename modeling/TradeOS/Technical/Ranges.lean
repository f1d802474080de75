import TradeOS.Technical.ColumnForms
import Mathlib.Algebra.Order.BigOperators.Group.List
import Mathlib.Tactic.Ring

/-!
# The ranges of the indicators

Relative strength, the two lines of the oscillator and the directional indices are percentages:
where they have a value it is between zero and a hundred, and the two directional indicators
have at most a hundred together (`indicators_in_range`). All of them are averages, and what an
average keeps is carried along their recurrences: that changes are not negative, and that values
lie in an interval (`wilderStep_mem`).

The directional indicators rest on a comparison of each bar with the one before: the movement of
a bar is not larger than its true range, because the last close lies between the last low and
the last high (`movement_le_trueRange`). The running sums are linear, so they keep this order
(`sumAt_movement_le`).
-/

set_option autoImplicit false

namespace TradeOS.Technical

open Numeric Numeric.Extended Programs CheckedArray

/-! ## Averages -/

section Averages

variable {low high : ℚ} {period : ℕ}

theorem average_mem {xs : List ℚ} (nonempty : xs ≠ []) (each : ∀ x ∈ xs, low ≤ x ∧ x ≤ high) :
    low ≤ average xs ∧ average xs ≤ high := by
  have count : (0 : ℚ) < xs.length := by
    exact_mod_cast List.length_pos_iff.mpr nonempty
  have least := List.card_nsmul_le_sum xs low fun x member => (each x member).1
  have most := List.sum_le_card_nsmul xs high fun x member => (each x member).2
  rw [nsmul_eq_mul] at least most
  exact ⟨(le_div_iff₀ count).mpr (by linarith), (div_le_iff₀ count).mpr (by linarith)⟩

/-- An average of numbers from an interval is in it. -/
theorem wilderStep_mem {last value : ℚ} (positive : 0 < period) (lastIn : low ≤ last ∧ last ≤ high)
    (valueIn : low ≤ value ∧ value ≤ high) :
    low ≤ wilderStep period last value ∧ wilderStep period last value ≤ high := by
  have one : (1 : ℚ) ≤ period := by exact_mod_cast positive
  have above : (0 : ℚ) < period := by linarith
  have least := mul_le_mul_of_nonneg_right lastIn.1 (sub_nonneg.mpr one)
  have most := mul_le_mul_of_nonneg_right lastIn.2 (sub_nonneg.mpr one)
  unfold wilderStep
  exact ⟨(le_div_iff₀ above).mpr (by linarith [valueIn.1]),
    (div_le_iff₀ above).mpr (by linarith [valueIn.2])⟩

theorem wilderStep_nonneg {last value : ℚ} (positive : 0 < period) (lastNonneg : 0 ≤ last)
    (valueNonneg : 0 ≤ value) : 0 ≤ wilderStep period last value :=
  (wilderStep_mem positive ⟨lastNonneg, le_max_left last value⟩
    ⟨valueNonneg, le_max_right last value⟩).1

end Averages

/-- The values of a column are numbers of an interval, where there are any. -/
def Within (low high : ℚ) (column : Column) : Prop :=
  ∀ x ∈ column, x = nan ∨ ∃ q, x = fin q ∧ low ≤ q ∧ q ≤ high

theorem within_nans (low high : ℚ) (n : ℕ) : Within low high (nans n) :=
  fun _ member => Or.inl (List.eq_of_mem_replicate member)

theorem within_fromPlace {low high : ℚ} {n place : ℕ} {value : ℕ → ℚ}
    (each : ∀ i, place ≤ i → i < n → low ≤ value i ∧ value i ≤ high) :
    Within low high (table n (fromPlace place value)) := by
  intro x member
  obtain ⟨i, inside, rfl⟩ := mem_table.mp member
  by_cases before : i < place
  · exact Or.inl (if_pos before)
  · exact Or.inr ⟨value i, if_neg before, each i (not_lt.mp before) inside⟩

/-! ## Relative strength -/

section Strength

variable {period : ℕ}

/-- A running mean of changes that are not negative is not negative. -/
theorem changeAt_nonneg {change : ℕ → ℚ} (positive : 0 < period) (each : ∀ i, 0 ≤ change i)
    (i : ℕ) : 0 ≤ changeAt period change i := by
  refine valueFrom_induct ?_ fun j _ _ last kept => wilderStep_nonneg positive kept (each _)
  refine div_nonneg (List.sum_nonneg fun x member => ?_) (Nat.cast_nonneg _)
  obtain ⟨j, _, rfl⟩ := mem_table.mp member
  exact each j

theorem gainOf_nonneg (delta : ℚ) : 0 ≤ gainOf delta := by
  unfold gainOf
  split_ifs <;> linarith

theorem lossOf_nonneg (delta : ℚ) : 0 ≤ lossOf delta := by
  unfold lossOf
  split_ifs <;> linarith

/-- The index of averages that are not negative is a percentage. -/
theorem strengthOf_mem {gain loss : ℚ} (gains : 0 ≤ gain) (losses : 0 ≤ loss) :
    ∃ q, strengthOf gain loss = fin q ∧ 0 ≤ q ∧ q ≤ 100 := by
  obtain ⟨divisor, same, above⟩ : ∃ divisor : ℚ,
      (if fin loss = fin 0 then fin (1 / 10 ^ 10) else fin loss) = fin divisor ∧ 0 < divisor := by
    by_cases lossless : loss = 0
    · exact ⟨1 / 10 ^ 10, if_pos (congrArg fin lossless), by norm_num⟩
    · refine ⟨loss, if_neg fun equal => lossless (by simpa using equal), ?_⟩
      exact lt_of_le_of_ne losses (Ne.symm lossless)
  have ratio : 0 ≤ gain / divisor := div_nonneg gains above.le
  have whole : 0 < 1 + gain / divisor := by linarith
  refine ⟨100 - 100 / (1 + gain / divisor), ?_, ?_, ?_⟩
  · rw [strengthOf, same, fin_div above.ne', fin_add, fin_div whole.ne', fin_sub]
  · rw [sub_nonneg, div_le_iff₀ whole]
    linarith
  · exact sub_le_self _ (div_nonneg (by norm_num) whole.le)

/-- **Relative strength is a percentage.** -/
theorem rsi_within {prices : List ℚ} (positive : 0 < period) {column : Column}
    (made : rsi prices period = .ok column) : Within 0 100 column := by
  by_cases long : period + 1 ≤ prices.length
  · cases made.symm.trans (rsi_eq_table positive long)
    intro x member
    obtain ⟨i, _, rfl⟩ := mem_table.mp member
    by_cases before : i < period
    · exact Or.inl (if_pos before)
    · rw [rsiAt, if_neg before]
      exact Or.inr (strengthOf_mem (changeAt_nonneg positive (fun _ => gainOf_nonneg _) i)
        (changeAt_nonneg positive (fun _ => lossOf_nonneg _) i))
  · simp only [rsi, if_pos (not_le.mp long)] at made
    cases made
    exact within_nans 0 100 _

end Strength

/-! ## Bars -/

/-- Bars whose close lies between their low and their high. -/
structure OrderedBars (high low close : List ℚ) : Prop where
  above : List.Forall₂ (· ≤ ·) low close
  below : List.Forall₂ (· ≤ ·) close high

namespace OrderedBars

variable {high low close : List ℚ} {i : ℕ}

theorem lows (ordered : OrderedBars high low close) : low.length = close.length :=
  ordered.above.length_eq

theorem highs (ordered : OrderedBars high low close) : high.length = close.length :=
  ordered.below.length_eq.symm

theorem low_le (ordered : OrderedBars high low close) (i : ℕ) :
    priceAt low i ≤ priceAt close i := by
  by_cases inside : i < close.length
  · have within : i < low.length := by rwa [ordered.lows]
    simpa [priceAt, inside, within] using ordered.above.get within inside
  · have outside : ¬ i < low.length := by rwa [ordered.lows]
    simp [priceAt, not_lt.mp inside, not_lt.mp outside]

theorem le_high (ordered : OrderedBars high low close) (i : ℕ) :
    priceAt close i ≤ priceAt high i := by
  by_cases inside : i < close.length
  · have within : i < high.length := by rwa [ordered.highs]
    simpa [priceAt, inside, within] using ordered.below.get inside within
  · have outside : ¬ i < high.length := by rwa [ordered.highs]
    simp [priceAt, not_lt.mp inside, not_lt.mp outside]

end OrderedBars

/-! ## Stochastic oscillator -/

section Oscillator

variable {high low close : List ℚ} {n i : ℕ}

theorem leastOf_le {xs : List ℚ} {x : ℚ} (member : x ∈ xs) : leastOf xs ≤ x := by
  cases xs with
  | nil => exact absurd member List.not_mem_nil
  | cons first rest => exact (foldl_min_spec first rest).2 x member

theorem le_greatestOf {xs : List ℚ} {x : ℚ} (member : x ∈ xs) : x ≤ greatestOf xs := by
  have upper (first : ℚ) (rest : List ℚ) : ∀ y ∈ first :: rest, y ≤ rest.foldl max first := by
    induction rest generalizing first with
    | nil => simp
    | cons next rest ih =>
        intro y listed
        rw [List.foldl_cons]
        have larger := ih (max first next) _ List.mem_cons_self
        rcases List.mem_cons.mp listed with rfl | listed
        · exact (le_max_left _ _).trans larger
        · rcases List.mem_cons.mp listed with rfl | listed
          · exact (le_max_right _ _).trans larger
          · exact ih _ y (List.mem_cons_of_mem _ listed)
  cases xs with
  | nil => exact absurd member List.not_mem_nil
  | cons first rest => exact upper first rest x member

/-- A window has the price it ends at. -/
theorem priceAt_mem_window {prices : List ℚ} (positive : 0 < n) (inside : i < prices.length) :
    priceAt prices i ∈ window prices n i := by
  refine List.mem_iff_getElem?.mpr ⟨i - (i + 1 - n), ?_⟩
  have place : i + 1 - n + (i - (i + 1 - n)) = i := by omega
  rw [window, slice, List.getElem?_drop, place, List.getElem?_take_of_lt (Nat.lt_succ_self i),
    List.getElem?_eq_getElem inside, priceAt, List.getD_eq_getElem prices 0 inside]

/-- The close of a bar lies in the range of its window. -/
theorem stochasticAt_mem (ordered : OrderedBars high low close) (positive : 0 < n)
    (inside : i < close.length) :
    0 ≤ stochasticAt n high low close i ∧ stochasticAt n high low close i ≤ 100 := by
  have least := (leastOf_le (priceAt_mem_window positive (ordered.lows ▸ inside))).trans
    (ordered.low_le i)
  have most := (ordered.le_high i).trans
    (le_greatestOf (priceAt_mem_window positive (ordered.highs ▸ inside)))
  simp only [stochasticAt]
  split
  · norm_num
  · rename_i apart
    have wide : 0 < greatestOf (window high n i) - leastOf (window low n i) :=
      sub_pos.mpr (lt_of_le_of_ne (least.trans most) (Ne.symm apart))
    rw [div_le_iff₀ wide]
    exact ⟨div_nonneg (by linarith) wide.le, by linarith⟩

/-- A line through percentages has percentages. -/
theorem lineAt_mem {start period : ℕ} {value : ℕ → ℚ} (positive : 0 < period)
    (each : ∀ j, j ≤ i → 0 ≤ value j ∧ value j ≤ 100) :
    0 ≤ lineAt start period value i ∧ lineAt start period value i ≤ 100 := by
  refine valueFrom_induct (p := fun q => 0 ≤ q ∧ q ≤ 100) ⟨by norm_num, by norm_num⟩ ?_
  exact fun j _ upTo last kept => wilderStep_mem positive kept (each j upTo)

/-- **The K and D lines are percentages.** -/
theorem kdjWith_within {m1 m2 : ℕ} (ordered : OrderedBars high low close) (positive : 0 < n)
    (positive1 : 0 < m1) (positive2 : 0 < m2) {data : KdjData}
    (made : kdjWith n m1 m2 high low close = .ok data) :
    Within 0 100 data.k ∧ Within 0 100 data.d := by
  by_cases enough : n ≤ close.length
  · cases made.symm.trans
      (kdjWith_eq_table ordered.highs ordered.lows positive positive1 positive2 enough)
    have k (i : ℕ) (inside : i < close.length) :
        0 ≤ kAt n m1 high low close i ∧ kAt n m1 high low close i ≤ 100 :=
      lineAt_mem positive1 fun j upTo => stochasticAt_mem ordered positive (by omega)
    refine ⟨within_fromPlace fun i _ inside => k i inside, ?_⟩
    exact within_fromPlace fun i _ inside => lineAt_mem positive2 fun j upTo => k j (by omega)
  · simp only [kdjWith, if_pos (not_le.mp enough)] at made
    cases made
    exact ⟨within_nans 0 100 _, within_nans 0 100 _⟩

end Oscillator

/-! ## Directional movement -/

section Movement

variable {high low close : List ℚ} {period i : ℕ}

theorem prevailing_nonneg (move opposite : ℚ) : 0 ≤ prevailing move opposite := by
  unfold prevailing
  split_ifs with prevails
  · exact prevails.2.le
  · exact le_rfl

theorem movementAt_nonneg (upward : Bool) (high low : List ℚ) (i : ℕ) :
    0 ≤ movementAt upward high low i := by
  unfold movementAt
  split
  · exact le_rfl
  · cases upward <;> exact prevailing_nonneg _ _

/-- Only one of two opposite moves prevails, so the two are bounded together by what bounds
each. -/
theorem prevailing_add_le {move opposite bound : ℚ} (nonneg : 0 ≤ bound) (first : move ≤ bound)
    (second : opposite ≤ bound) : prevailing move opposite + prevailing opposite move ≤ bound := by
  unfold prevailing
  split_ifs with up down down
  · linarith [up.1, down.1]
  · linarith
  · linarith
  · linarith

/-- **The movement of a bar is not larger than its true range**: the last close lies between the
last low and the last high. -/
theorem movement_le_trueRange (ordered : OrderedBars high low close) (i : ℕ) :
    movementAt true high low i + movementAt false high low i ≤ trueRangeAt high low close i := by
  have wide (j : ℕ) : 0 ≤ priceAt high j - priceAt low j :=
    sub_nonneg.mpr ((ordered.low_le j).trans (ordered.le_high j))
  by_cases first : i = 0
  · simp only [movementAt, trueRangeAt, if_pos first, add_zero]
    exact wide 0
  · have up := le_abs_self (priceAt high i - priceAt close (i - 1))
    have down := neg_abs_le (priceAt low i - priceAt close (i - 1))
    have closed := ordered.low_le (i - 1)
    have opened := ordered.le_high (i - 1)
    simp only [movementAt, trueRangeAt, if_neg first, if_true, Bool.false_eq_true, if_false]
    refine prevailing_add_le ?_ ?_ ?_
    · exact (wide i).trans ((le_max_left _ _).trans (le_max_left _ _))
    · refine le_trans ?_ ((le_max_right _ _).trans (le_max_left _ _))
      linarith
    · refine le_trans ?_ (le_max_right _ _)
      linarith

/-! ## Running sums -/

/-- A running sum of numbers that are not negative is not negative. -/
theorem sumAt_nonneg {value : ℕ → ℚ} (positive : 0 < period) (each : ∀ j, 0 ≤ value j) (i : ℕ) :
    0 ≤ sumAt period value i := by
  have one : (1 : ℚ) ≤ period := by exact_mod_cast positive
  refine valueFrom_induct (p := fun q => 0 ≤ q) ?_ fun j _ _ last kept => ?_
  · refine List.sum_nonneg fun x member => ?_
    obtain ⟨j, _, rfl⟩ := mem_table.mp member
    exact each j
  · have part : last / period ≤ last := div_le_self kept one
    exact add_nonneg (sub_nonneg.mpr part) (each j)

/-- The running sum is linear. -/
theorem sumAt_add (period : ℕ) (a b : ℕ → ℚ) (i : ℕ) :
    sumAt period (fun j => a j + b j) i = sumAt period a i + sumAt period b i := by
  have seeds : (table period fun j => a j + b j).sum =
      (table period a).sum + (table period b).sum :=
    List.sum_map_add
  induction i with
  | zero => exact seeds
  | succ i ih =>
      by_cases before : i + 1 ≤ period - 1
      · rw [sumAt, sumAt, sumAt, valueFrom_of_le before, valueFrom_of_le before,
          valueFrom_of_le before, seeds]
      · have after : period - 1 ≤ i := by omega
        rw [sumAt, sumAt, sumAt, valueFrom_succ after, valueFrom_succ after, valueFrom_succ after]
        rw [sumAt, sumAt, sumAt] at ih
        rw [ih]
        ring

/-- The running sums of the movements are not larger than that of the true ranges, because the
difference is the running sum of the differences. -/
theorem sumAt_movement_le (ordered : OrderedBars high low close) (positive : 0 < period)
    (i : ℕ) :
    sumAt period (movementAt true high low) i + sumAt period (movementAt false high low) i ≤
      sumAt period (trueRangeAt high low close) i := by
  let moved (j : ℕ) : ℚ := movementAt true high low j + movementAt false high low j
  have parts : trueRangeAt high low close =
      fun j => moved j + (trueRangeAt high low close j - moved j) := by
    funext j
    exact (add_sub_cancel _ _).symm
  have rest := sumAt_nonneg positive (fun j => sub_nonneg.mpr (movement_le_trueRange ordered j)) i
  rw [parts, sumAt_add, ← sumAt_add]
  exact le_add_of_nonneg_right rest

end Movement

/-! ## Directional indices -/

section Indices

variable {high low close : List ℚ} {period : ℕ}

/-- Two indicators that are not negative and have at most a hundred together. -/
structure SharePercent (plus minus : ℚ) : Prop where
  plusNonneg : 0 ≤ plus
  minusNonneg : 0 ≤ minus
  together : plus + minus ≤ 100

theorem diAt_share (ordered : OrderedBars high low close) (positive : 0 < period) (i : ℕ) :
    SharePercent (diAt true period high low close i) (diAt false period high low close i) := by
  have plus := sumAt_nonneg positive (movementAt_nonneg true high low) i
  have minus := sumAt_nonneg positive (movementAt_nonneg false high low) i
  have bounded := sumAt_movement_le ordered positive i
  unfold diAt percentFrom
  split_ifs with before above
  · constructor <;> norm_num
  · refine ⟨div_nonneg (by linarith) above.le, div_nonneg (by linarith) above.le, ?_⟩
    rw [← add_div, div_le_iff₀ above]
    linarith
  · constructor <;> norm_num

/-- The directional index of two such indicators is a percentage. -/
theorem dxAt_mem {plus minus : ℕ → ℚ} {i : ℕ} (plusNonneg : 0 ≤ plus i)
    (minusNonneg : 0 ≤ minus i) : 0 ≤ dxAt plus minus i ∧ dxAt plus minus i ≤ 100 := by
  have apart : |plus i - minus i| ≤ plus i + minus i := by
    rw [abs_le]
    constructor <;> linarith
  simp only [dxAt, percentFrom, Nat.not_lt_zero, if_false]
  split_ifs with above
  · refine ⟨div_nonneg (by positivity) above.le, ?_⟩
    rw [div_le_iff₀ above]
    linarith
  · norm_num

theorem indexAt_mem (ordered : OrderedBars high low close) (positive : 0 < period) (i : ℕ) :
    0 ≤ indexAt period high low close i ∧ indexAt period high low close i ≤ 100 :=
  dxAt_mem (diAt_share ordered positive i).plusNonneg (diAt_share ordered positive i).minusNonneg

theorem adxAt_mem {dx : ℕ → ℚ} (positive : 0 < period) (each : ∀ i, 0 ≤ dx i ∧ dx i ≤ 100)
    (i : ℕ) : 0 ≤ adxAt period dx i ∧ adxAt period dx i ≤ 100 := by
  refine valueFrom_induct (p := fun q => 0 ≤ q ∧ q ≤ 100) ?_ ?_
  · refine average_mem ?_ fun x member => ?_
    · rw [← List.length_pos_iff, List.length_drop, length_table]
      omega
    · obtain ⟨j, _, rfl⟩ := mem_table.mp (List.mem_of_mem_drop member)
      exact each j
  · exact fun j _ _ last kept => wilderStep_mem positive kept (each j)

/-- The directional columns side by side: no numbers, or shares of a hundred. -/
def ShareColumns (plusDi minusDi : Column) : Prop :=
  ∀ pair ∈ plusDi.zip minusDi, pair = (nan, nan) ∨
    ∃ plus minus, pair = (fin plus, fin minus) ∧ SharePercent plus minus

/-- Without numbers the directional index is zero. -/
theorem directionalIndex_nans (n : ℕ) :
    directionalIndex (nans n) (nans n) = table n fun _ => fin 0 := by
  rw [directionalIndex, nans_eq_table, zipWith_table, zipWith_table, percentOf, zipWith_table]
  rfl

/-- **The directional indicators share a hundred, and the directional index and its average are
percentages.** -/
theorem adx_within (ordered : OrderedBars high low close) (positive : 0 < period) {data : AdxData}
    (made : adx high low close period = .ok data) :
    Within 0 100 data.adx ∧ Within 0 100 (directionalIndex data.plusDi data.minusDi) ∧
      ShareColumns data.plusDi data.minusDi := by
  by_cases long : period + 1 ≤ close.length
  · have enough := seed_lt_of_adx ordered.highs ordered.lows positive long made
    cases made.symm.trans (adx_eq_table ordered.highs ordered.lows positive long enough)
    refine ⟨within_fromPlace fun i _ _ => adxAt_mem positive (indexAt_mem ordered positive) i,
      ?_, ?_⟩
    · rw [directionalIndex_eq_table]
      intro x member
      obtain ⟨i, _, rfl⟩ := mem_table.mp member
      exact Or.inr ⟨_, rfl, indexAt_mem ordered positive i⟩
    · intro pair member
      rw [List.zip, zipWith_table] at member
      obtain ⟨i, _, rfl⟩ := mem_table.mp member
      exact Or.inr ⟨_, _, rfl, diAt_share ordered positive i⟩
  · have short : high.length < period + 1 := by
      rw [ordered.highs]
      exact not_le.mp long
    simp only [adx, if_pos short] at made
    cases made
    refine ⟨within_nans 0 100 _, ?_, ?_⟩
    · rw [directionalIndex_nans]
      intro x member
      obtain ⟨i, _, rfl⟩ := mem_table.mp member
      exact Or.inr ⟨0, rfl, by norm_num⟩
    · intro pair member
      rw [nans_eq_table, List.zip, zipWith_table] at member
      obtain ⟨i, _, rfl⟩ := mem_table.mp member
      exact Or.inl rfl

end Indices

/-! ## All of them -/

/-- **Where they are defined, the indicators are in their ranges**, for every period. -/
theorem indicators_in_range (high low close : List ℚ) (ordered : OrderedBars high low close)
    (period n m1 m2 : ℕ) (several : 2 ≤ period) (window : 2 ≤ n) (smooth1 : 2 ≤ m1)
    (smooth2 : 2 ≤ m2) :
    (∀ column, rsi close period = .ok column → Within 0 100 column) ∧
      (∀ data, kdjWith n m1 m2 high low close = .ok data →
        Within 0 100 data.k ∧ Within 0 100 data.d) ∧
      ∀ data, adx high low close period = .ok data →
        Within 0 100 data.adx ∧ Within 0 100 (directionalIndex data.plusDi data.minusDi) ∧
          ShareColumns data.plusDi data.minusDi := by
  have positive : 0 < period := by omega
  refine ⟨fun column made => rsi_within positive made, fun data made => ?_, fun data made => ?_⟩
  · exact kdjWith_within ordered (by omega) (by omega) (by omega) made
  · exact adx_within ordered positive made

theorem risingBars_ordered : OrderedBars [3, 4, 5] [1, 2, 3] [2, 3, 4] where
  above := by norm_num
  below := by norm_num

theorem indicators_in_range_rising :
    (∀ column, rsi [2, 3, 4] 2 = .ok column → Within 0 100 column) ∧
      (∀ data, kdjWith 2 2 2 [3, 4, 5] [1, 2, 3] [2, 3, 4] = .ok data →
        Within 0 100 data.k ∧ Within 0 100 data.d) ∧
      ∀ data, adx [3, 4, 5] [1, 2, 3] [2, 3, 4] 2 = .ok data →
        Within 0 100 data.adx ∧ Within 0 100 (directionalIndex data.plusDi data.minusDi) ∧
          ShareColumns data.plusDi data.minusDi :=
  indicators_in_range [3, 4, 5] [1, 2, 3] [2, 3, 4] risingBars_ordered 2 2 2 2 le_rfl le_rfl le_rfl
    le_rfl

end TradeOS.Technical
