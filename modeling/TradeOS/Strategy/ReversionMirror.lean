import TradeOS.Arbitration.Rules
import TradeOS.Strategy.BuilderTotality
import Mathlib.Tactic.FieldSimp
import Mathlib.Tactic.Ring

/-!
# Mean reversion on reflected closes

Where every close `p` is replaced by `c - p`, gains become losses and the upper band becomes the
lower one. A mean reversion strategy whose thresholds are symmetric around fifty should then emit
the opposite directions with the same strengths. It does so at a bar (`yieldAt_mirror_iff`) unless

* **the closes of the index window do not change**: the index is one hundred without losses, and a
  window without gains has none either;
* **the index is on both sides of its thresholds**, which overlap if the lower one is above fifty;
* **the bands meet on the close**, which counts as a touch of the lower band only.
-/

set_option autoImplicit false

namespace TradeOS.Strategy

open Numeric Indexing

/-! ## Reflected closes -/

/-- The bar with its close reflected. -/
def PriceBar.reflect (c : ℚ) (bar : PriceBar) : PriceBar := { bar with close := c - bar.close }

/-- The close at a position. -/
def closeAt (data : List PriceBar) (i : ℤ) : ℚ := ((item data i).map PriceBar.close).getD 0

/-- The changes of the close in the window of the index. -/
def changesAt (data : List PriceBar) (period i : ℤ) : List ℚ :=
  (range (i - period + 1) (i + 1)).map fun j => closeAt data j - closeAt data (j - 1)

section Reflect

variable {data : List PriceBar} (c : ℚ) {period i : ℤ}

theorem readItem_eq_closeAt (data : List PriceBar) (i : ℤ) (nonneg : 0 ≤ i)
    (inside : i < data.length) : ∃ bar, readItem data i = .ok bar ∧ bar.close = closeAt data i := by
  obtain ⟨bar, -, found⟩ := item_eq_some data i (by omega) inside
  exact ⟨bar, by rw [readItem, found], by rw [closeAt, found]; rfl⟩

theorem closeAt_reflect (nonneg : 0 ≤ i) (inside : i < data.length) :
    closeAt (data.map (PriceBar.reflect c)) i = c - closeAt data i := by
  obtain ⟨bar, -, found⟩ := item_eq_some data i (by omega) inside
  rw [closeAt, closeAt, item_map, found]
  rfl

theorem changeAt_eq (nonneg : 1 ≤ i) (inside : i < data.length) :
    changeAt data i = .ok (closeAt data i - closeAt data (i - 1)) := by
  obtain ⟨bar, now, close⟩ := readItem_eq_closeAt data i (by omega) inside
  obtain ⟨previous, before, close'⟩ := readItem_eq_closeAt data (i - 1) (by omega) (by omega)
  rw [changeAt, now, before, ← close, ← close']
  rfl

theorem mapM_changeAt (late : period ≤ i) (inside : i < data.length) :
    (range (i - period + 1) (i + 1)).mapM (changeAt data) = .ok (changesAt data period i) := by
  refine mapM_eq_map fun j member => ?_
  obtain ⟨lower, upper⟩ := mem_range_iff.mp member
  exact changeAt_eq (by omega) (by omega)

theorem changesAt_reflect (late : period ≤ i) (inside : i < data.length) :
    changesAt (data.map (PriceBar.reflect c)) period i =
      (changesAt data period i).map fun change => -change := by
  rw [changesAt, changesAt, List.map_map]
  refine List.map_congr_left fun j member => ?_
  obtain ⟨lower, upper⟩ := mem_range_iff.mp member
  rw [closeAt_reflect c (by omega) (by omega), closeAt_reflect c (by omega) (by omega),
    Function.comp_apply]
  ring

end Reflect

/-! ## The index -/

theorem gains_cons (change : ℚ) (changes : List ℚ) :
    gains (change :: changes) = max change 0 + gains changes := by
  unfold gains
  rw [List.filter_cons]
  split_ifs with up
  · rw [List.sum_cons, max_eq_left (of_decide_eq_true up).le]
  · rw [max_eq_right (not_lt.mp (of_decide_eq_false (Bool.eq_false_iff.mpr up))), zero_add]

theorem losses_cons (change : ℚ) (changes : List ℚ) :
    losses (change :: changes) = max (-change) 0 + losses changes := by
  unfold losses
  rw [List.filter_cons]
  split_ifs with down
  · have fallen : change ≤ 0 := not_lt.mp (of_decide_eq_true down)
    rw [List.map_cons, List.sum_cons, abs_of_nonpos fallen, max_eq_left (neg_nonneg.mpr fallen)]
  · have risen : 0 < change := by simpa using down
    rw [max_eq_right (neg_nonpos.mpr risen.le), zero_add]

/-- Gains and losses change places. -/
theorem gains_neg (changes : List ℚ) :
    gains (changes.map fun change => -change) = losses changes ∧
      losses (changes.map fun change => -change) = gains changes := by
  induction changes with
  | nil => exact ⟨rfl, rfl⟩
  | cons change changes ih =>
      rw [List.map_cons, gains_cons, losses_cons, gains_cons, losses_cons, ih.1, ih.2, neg_neg]
      exact ⟨rfl, rfl⟩

/-- There are gains or losses unless nothing changes. -/
theorem gains_add_losses_eq_zero_iff (changes : List ℚ) :
    gains changes + losses changes = 0 ↔ ∀ change ∈ changes, change = 0 := by
  have total : gains changes + losses changes = (changes.map fun change => |change|).sum := by
    induction changes with
    | nil => exact add_zero 0
    | cons change changes ih =>
        rw [gains_cons, losses_cons, List.map_cons, List.sum_cons, ← ih]
        rcases le_total change 0 with down | up
        · rw [max_eq_right down, max_eq_left (neg_nonneg.mpr down), abs_of_nonpos down]
          ring
        · rw [max_eq_left up, max_eq_right (neg_nonpos.mpr up), abs_of_nonneg up]
          ring
  have nonneg : ∀ x ∈ changes.map fun change => |change|, 0 ≤ x :=
    List.forall_mem_map.mpr fun change _ => abs_nonneg change
  rw [total]
  constructor
  · intro zero change member
    have part := List.single_le_sum nonneg |change| (List.mem_map_of_mem member)
    exact abs_nonpos_iff.mp (part.trans zero.le)
  · intro still
    refine List.sum_eq_zero (List.forall_mem_map.mpr fun change member => ?_)
    rw [still change member, abs_zero]

/-- The gains and the losses that the index weighs at a position: one each, as long as the window
is not filled. -/
def balance (data : List PriceBar) (period i : ℤ) : ℚ × ℚ :=
  if i < period then (1, 1)
  else (gains (changesAt data period i), losses (changesAt data period i))

/-- The index of gains and losses. -/
def indexOf (weights : ℚ × ℚ) : ℚ :=
  if weights.2 = 0 then 100 else 100 * weights.1 / (weights.1 + weights.2)

section Index

variable {data : List PriceBar} (c : ℚ) {period i : ℤ}

theorem balance_nonneg : 0 ≤ (balance data period i).1 ∧ 0 ≤ (balance data period i).2 := by
  unfold balance
  split_ifs
  · exact ⟨zero_le_one, zero_le_one⟩
  · exact ⟨gains_nonneg _, losses_nonneg _⟩

theorem rsiAt_eq (positive : 0 < period) (inside : i < data.length) :
    rsiAt data period i = .ok (indexOf (balance data period i)) := by
  unfold rsiAt balance
  split_ifs with early
  · refine congrArg Except.ok ?_
    norm_num [indexOf]
  · have scale : (0 : ℚ) < period := by exact_mod_cast positive
    rw [mapM_changeAt (not_lt.mp early) inside]
    simp only [strengthIndex, bind, Except.bind, quotient_eq scale.ne', indexOf,
      div_eq_zero_iff, scale.ne', or_false]
    split_ifs with unlosing
    · rfl
    · have up := gains_nonneg (changesAt data period i)
      have down := lt_of_le_of_ne (losses_nonneg (changesAt data period i)) (Ne.symm unlosing)
      have lossy : losses (changesAt data period i) / period ≠ 0 := (div_pos down scale).ne'
      have ratio : 0 ≤ gains (changesAt data period i) / period /
          (losses (changesAt data period i) / period) :=
        div_nonneg (div_nonneg up scale.le) (div_pos down scale).le
      simp only [quotient_eq lossy, quotient_eq (add_pos_of_pos_of_nonneg one_pos ratio).ne']
      refine congrArg Except.ok ?_
      have whole := add_pos_of_nonneg_of_pos up down
      rw [div_div_div_cancel_right₀ scale.ne', one_add_div unlosing, div_div_eq_mul_div,
        add_comm (losses _), eq_div_iff whole.ne', sub_mul, div_mul_cancel₀ _ whole.ne']
      ring

theorem balance_reflect (inside : i < data.length) :
    balance (data.map (PriceBar.reflect c)) period i = (balance data period i).swap := by
  unfold balance
  split_ifs with early
  · rfl
  · rw [changesAt_reflect c (not_lt.mp early) inside, (gains_neg _).1, (gains_neg _).2]
    rfl

/-- The closes of the window of the index do not change. -/
def Still (data : List PriceBar) (period i : ℤ) : Prop :=
  period ≤ i ∧ ∀ j, i - period < j → j ≤ i → closeAt data j = closeAt data (j - 1)

theorem still_iff : Still data period i ↔
    (balance data period i).1 + (balance data period i).2 = 0 := by
  unfold Still balance
  split_ifs with early
  · refine iff_of_false (fun still => absurd still.1 (not_le.mpr early)) ?_
    norm_num
  · rw [and_iff_right (not_lt.mp early), gains_add_losses_eq_zero_iff, changesAt,
      List.forall_mem_map]
    constructor
    · intro still j member
      obtain ⟨lower, upper⟩ := mem_range_iff.mp member
      exact sub_eq_zero.mpr (still j (by omega) (by omega))
    · intro still j lower upper
      exact sub_eq_zero.mp (still j (mem_range_iff.mpr (by omega)))

end Index

/-! ## The bands -/

/-- The closes of the window of the bands. -/
def bandCloses (data : List PriceBar) (period i : ℤ) : List ℚ :=
  (slice data (i - period + 1) (i + 1)).map PriceBar.close

/-- The mean of the closes of the window of the bands. -/
def bandMean (data : List PriceBar) (period i : ℤ) : ℚ := (bandCloses data period i).sum / period

/-- The distance of the bands from their mean. -/
def bandWidth (root : ℚ → ℚ) (params : MeanReversionParams) (data : List PriceBar) (i : ℤ) : ℚ :=
  params.bbStd * root
    (((bandCloses data params.bbPeriod i).map fun x =>
      (x - bandMean data params.bbPeriod i) ^ 2).sum / params.bbPeriod)

section Bands

variable {data : List PriceBar} {root : ℚ → ℚ} {params : MeanReversionParams} (c : ℚ) {i : ℤ}

theorem bandAt_eq (positive : 0 < params.bbPeriod) (late : params.bbPeriod ≤ i) :
    bandAt root data params.bbPeriod params.bbStd i = .ok
      ⟨.fin (bandMean data params.bbPeriod i + bandWidth root params data i),
        .fin (bandMean data params.bbPeriod i),
        .fin (bandMean data params.bbPeriod i - bandWidth root params data i)⟩ := by
  have nonzero : (params.bbPeriod : ℚ) ≠ 0 := by exact_mod_cast positive.ne'
  unfold bandAt
  rw [if_neg (by omega)]
  simp only [bind, Except.bind, quotient_eq nonzero]
  rfl

theorem sum_reflect (xs : List ℚ) : (xs.map fun x => c - x).sum = c * xs.length - xs.sum := by
  induction xs with
  | nil => simp
  | cons x xs ih =>
      rw [List.map_cons, List.sum_cons, ih, List.sum_cons, List.length_cons]
      push_cast
      ring

theorem bandCloses_reflect :
    bandCloses (data.map (PriceBar.reflect c)) params.bbPeriod i =
      (bandCloses data params.bbPeriod i).map fun x => c - x := by
  rw [bandCloses, slice_map, bandCloses, List.map_map, List.map_map]
  rfl

/-- The mean is reflected, and the bands are as wide. -/
theorem band_reflect (positive : 0 < params.bbPeriod) (late : params.bbPeriod ≤ i)
    (inside : i < data.length) :
    bandMean (data.map (PriceBar.reflect c)) params.bbPeriod i =
        c - bandMean data params.bbPeriod i ∧
      bandWidth root params (data.map (PriceBar.reflect c)) i = bandWidth root params data i := by
  have nonzero : (params.bbPeriod : ℚ) ≠ 0 := by exact_mod_cast positive.ne'
  have length : ((bandCloses data params.bbPeriod i).length : ℚ) = params.bbPeriod := by
    have bars := length_slice data (i - params.bbPeriod + 1) (i + 1) (by omega) (by omega)
      (by omega)
    rw [bandCloses, List.length_map]
    exact_mod_cast (show _ = params.bbPeriod by omega)
  have mean : bandMean (data.map (PriceBar.reflect c)) params.bbPeriod i =
      c - bandMean data params.bbPeriod i := by
    rw [bandMean, bandCloses_reflect, sum_reflect, length, bandMean, sub_div,
      mul_div_cancel_right₀ c nonzero]
  refine ⟨mean, ?_⟩
  have squares : ((bandCloses data params.bbPeriod i).map fun x => c - x).map
      (fun x => (x - (c - bandMean data params.bbPeriod i)) ^ 2) =
        (bandCloses data params.bbPeriod i).map
          fun x => (x - bandMean data params.bbPeriod i) ^ 2 := by
    rw [List.map_map]
    refine List.map_congr_left fun x _ => ?_
    rw [Function.comp_apply]
    ring
  rw [bandWidth, mean, bandCloses_reflect, squares, bandWidth]

/-- The close is at the lower band or below it. -/
def Below (root : ℚ → ℚ) (params : MeanReversionParams) (data : List PriceBar) (i : ℤ) : Prop :=
  closeAt data i ≤ bandMean data params.bbPeriod i - bandWidth root params data i

/-- The close is at the upper band or above it. -/
def Above (root : ℚ → ℚ) (params : MeanReversionParams) (data : List PriceBar) (i : ℤ) : Prop :=
  bandMean data params.bbPeriod i + bandWidth root params data i ≤ closeAt data i

theorem below_reflect (positive : 0 < params.bbPeriod) (late : params.bbPeriod ≤ i)
    (inside : i < data.length) :
    (Below root params (data.map (PriceBar.reflect c)) i ↔ Above root params data i) ∧
      (Above root params (data.map (PriceBar.reflect c)) i ↔ Below root params data i) := by
  obtain ⟨mean, width⟩ := @band_reflect data root params c i positive late inside
  unfold Below Above
  rw [mean, width, closeAt_reflect c (by omega) inside]
  constructor
  · constructor <;> intro touches <;> linarith
  · constructor <;> intro touches <;> linarith

instance : Decidable (Below root params data i) := inferInstanceAs (Decidable (_ ≤ _))

instance : Decidable (Above root params data i) := inferInstanceAs (Decidable (_ ≤ _))

end Bands

/-- The side on which a close touches the bands, where it touches them. -/
def sideOf (below above : Prop) [Decidable below] [Decidable above] : ℤ :=
  if below then 1 else if above then -1 else 0

section Sides

variable {below above : Prop} [Decidable below] [Decidable above]

theorem sideOf_eq_one_iff : sideOf below above = 1 ↔ below := by
  unfold sideOf
  split_ifs with touched other
  · exact iff_of_true rfl touched
  · exact iff_of_false (by decide) touched
  · exact iff_of_false (by decide) touched

theorem sideOf_eq_neg_one_iff : sideOf below above = -1 ↔ ¬below ∧ above := by
  unfold sideOf
  split_ifs with touched other
  · exact iff_of_false (by decide) fun both => both.1 touched
  · exact iff_of_true rfl ⟨touched, other⟩
  · exact iff_of_false (by decide) fun both => other both.2

end Sides

/-! ## What a bar yields -/

/-- The strength of an index below a threshold. -/
def depthOf (oversold r : ℚ) : ℚ := 6 / 10 + (oversold - r) / oversold * (3 / 10)

/-- A strength with the bonus of a touched band. -/
def boosted (strength : ℚ) (touched : Prop) [Decidable touched] : ℚ :=
  if touched then min 1 (strength + 2 / 10) else strength

/-- The direction and the strength of an index, for thresholds that are symmetric around fifty. -/
def drawn (oversold r : ℚ) (side : ℤ) : Option (Direction × ℚ) :=
  if r < oversold then some (.long, boosted (depthOf oversold r) (side = 1))
  else if 100 - oversold < r then
    some (.short, boosted (depthOf oversold (100 - r)) (side = -1))
  else none

/-- A direction with the strength and the confidence of a bundle. -/
def inBundle (found : Direction × ℚ) : Direction × ℚ × ℚ :=
  (found.1, (UnitRational.clamp found.2).val, (UnitRational.clamp (found.2 * (85 / 100))).val)

/-- The opposite direction, as strong. -/
def mirrored (found : Direction × ℚ × ℚ) : Direction × ℚ × ℚ :=
  (Arbitration.opposite found.1, found.2)

theorem indexOf_mem {weights : ℚ × ℚ} (nonneg : 0 ≤ weights.1 ∧ 0 ≤ weights.2) :
    0 ≤ indexOf weights ∧ indexOf weights ≤ 100 := by
  unfold indexOf
  split_ifs with unlosing
  · norm_num
  · have down := lt_of_le_of_ne nonneg.2 (Ne.symm unlosing)
    have whole := add_pos_of_nonneg_of_pos nonneg.1 down
    exact ⟨by have := nonneg.1; positivity, (div_le_iff₀ whole).mpr (by linarith)⟩

/-- A bonus can be told from the strength of the bundle. -/
theorem clamp_boosted_inj {oversold r : ℚ} (nonneg : 0 ≤ r) (low : r < oversold)
    {touched other : Prop} [Decidable touched] [Decidable other] :
    (UnitRational.clamp (boosted (depthOf oversold r) touched)).val =
        (UnitRational.clamp (boosted (depthOf oversold r) other)).val ↔
      (touched ↔ other) := by
  have scale := nonneg.trans_lt low
  have some : 0 < (oversold - r) / oversold := div_pos (sub_pos.mpr low) scale
  have part : (oversold - r) / oversold ≤ 1 := (div_le_one scale).mpr (by linarith)
  have strength : 6 / 10 < depthOf oversold r ∧ depthOf oversold r ≤ 9 / 10 := by
    unfold depthOf
    constructor <;> linarith
  have bonus : depthOf oversold r < min 1 (depthOf oversold r + 2 / 10) :=
    lt_min (by linarith) (by linarith)
  have plain : (UnitRational.clamp (depthOf oversold r)).val = depthOf oversold r :=
    UnitRational.clamp_of_mem (by linarith) (by linarith)
  have lifted : (UnitRational.clamp (min 1 (depthOf oversold r + 2 / 10))).val =
      min 1 (depthOf oversold r + 2 / 10) :=
    UnitRational.clamp_of_mem (by linarith) (min_le_left _ _)
  unfold boosted
  split_ifs with first second second
  · exact iff_of_true rfl (iff_of_true first second)
  · rw [plain, lifted]
    exact iff_of_false bonus.ne' fun same => second (same.mp first)
  · rw [plain, lifted]
    exact iff_of_false bonus.ne fun same => first (same.mpr second)
  · exact iff_of_true rfl (iff_of_false first second)

theorem drawn_fst (oversold r : ℚ) (side : ℤ) :
    (drawn oversold r side).map Prod.fst =
      if r < oversold then some .long else if 100 - oversold < r then some .short else none := by
  unfold drawn
  split_ifs <;> rfl

/-- The index of the weights in the other order. -/
theorem indexOf_of_pos {weights : ℚ × ℚ} (nonneg : 0 ≤ weights.1 ∧ 0 ≤ weights.2)
    (moves : 0 < weights.1 + weights.2) :
    indexOf weights = 100 * weights.1 / (weights.1 + weights.2) ∧
      indexOf weights.swap = 100 - 100 * weights.1 / (weights.1 + weights.2) := by
  have plain : ∀ a b : ℚ, 0 ≤ a → 0 ≤ b → 0 < a + b → indexOf (a, b) = 100 * a / (a + b) := by
    intro a b _ _ total
    unfold indexOf
    split_ifs with unlosing
    · have gained : a ≠ 0 := by
        rintro rfl
        simp only at unlosing
        linarith
      rw [show b = 0 from unlosing, add_zero, mul_div_assoc, div_self gained, mul_one]
    · rfl
  refine ⟨plain _ _ nonneg.1 nonneg.2 moves, ?_⟩
  change indexOf (weights.2, weights.1) = _
  rw [plain _ _ nonneg.2 nonneg.1 (by linarith), add_comm weights.2]
  field_simp
  ring

/-- Two bundles of one direction are no mirror images. -/
theorem ne_mirrored (side : Direction) (sided : side ≠ .flat) {found other : Option (Direction × ℚ)}
    (first : found.map Prod.fst = some side) (second : other.map Prod.fst = some side) :
    found.map inBundle ≠ (other.map inBundle).map mirrored := by
  obtain ⟨⟨_, strength⟩, rfl, own⟩ := Option.map_eq_some_iff.mp first
  obtain ⟨⟨_, strength'⟩, rfl, own'⟩ := Option.map_eq_some_iff.mp second
  intro same
  have directions : side = Arbitration.opposite side := by
    rw [← own] at own' ⊢
    have both := congrArg Prod.fst (Option.some.inj same)
    exact both.trans (congrArg Arbitration.opposite own')
  cases side with
  | long => cases directions
  | short => cases directions
  | flat => exact sided rfl

/-- Two bundles of opposite directions and of one depth are mirror images if both have a bonus or
none has. -/
theorem inBundle_mirror_iff {oversold r : ℚ} (nonneg : 0 ≤ r) (low : r < oversold)
    (side : Direction) {touched other : Prop} [Decidable touched] [Decidable other] :
    (some (Arbitration.opposite side, boosted (depthOf oversold r) touched)).map inBundle =
        ((some (side, boosted (depthOf oversold r) other)).map inBundle).map mirrored ↔
      (touched ↔ other) := by
  constructor
  · intro same
    refine (clamp_boosted_inj nonneg low).mp ?_
    exact congrArg (fun found : Direction × ℚ × ℚ => found.2.1) (Option.some.inj same)
  · intro same
    have strengths : boosted (depthOf oversold r) touched = boosted (depthOf oversold r) other :=
      if_congr same rfl rfl
    rw [strengths]
    rfl

/-- What an index and the index on the other side of fifty yield. -/
theorem drawn_sub_mirror_iff {oversold r : ℚ} (range : 0 ≤ r ∧ r ≤ 100) (below above : Prop)
    [Decidable below] [Decidable above] :
    (drawn oversold (100 - r) (sideOf above below)).map inBundle =
        ((drawn oversold r (sideOf below above)).map inBundle).map mirrored ↔
      ¬(r < oversold ∧ 100 - oversold < r) ∧
        (r < oversold ∨ 100 - oversold < r → ¬(below ∧ above)) := by
  by_cases isLow : r < oversold
  · by_cases isHigh : 100 - oversold < r
    · refine iff_of_false ?_ fun sided => sided.1 ⟨isLow, isHigh⟩
      refine ne_mirrored .long (by decide) ?_ ?_
      · rw [drawn_fst, if_pos (by linarith)]
      · rw [drawn_fst, if_pos isLow]
    · have risen : ¬100 - r < oversold := by linarith
      have crossed : 100 - oversold < 100 - r := by linarith
      rw [drawn, if_neg risen, if_pos crossed, drawn, if_pos isLow, sub_sub_cancel]
      refine (inBundle_mirror_iff range.1 isLow .long).trans ?_
      rw [sideOf_eq_neg_one_iff, sideOf_eq_one_iff, and_iff_right_iff_imp]
      constructor
      · exact fun clear => ⟨fun sides => isHigh sides.2, fun _ both => clear both.1 both.2⟩
      · exact fun sided lower upper => sided.2 (.inl isLow) ⟨lower, upper⟩
  · by_cases isHigh : 100 - oversold < r
    · have crossed : 100 - r < oversold := by linarith
      rw [drawn, if_pos crossed, drawn, if_neg isLow, if_pos isHigh]
      refine (inBundle_mirror_iff (sub_nonneg.mpr range.2) crossed .short).trans ?_
      rw [sideOf_eq_neg_one_iff, sideOf_eq_one_iff, iff_and_self]
      constructor
      · exact fun clear => ⟨fun sides => isLow sides.1, fun _ both => clear both.2 both.1⟩
      · exact fun sided upper lower => sided.2 (.inr isHigh) ⟨lower, upper⟩
    · have risen : ¬100 - r < oversold := by linarith
      have fallen : ¬100 - oversold < 100 - r := by linarith
      rw [drawn, if_neg risen, if_neg fallen, drawn, if_neg isLow, if_neg isHigh]
      have between : ¬(r < oversold ∨ 100 - oversold < r) := not_or_intro isLow isHigh
      exact iff_of_true rfl ⟨fun both => isLow both.1, fun one => absurd one between⟩

/-- **What the reflected closes yield is the mirror image, if and only if the closes of the window
change, unless there are no thresholds to cross, the index is not on both sides of its
thresholds, and where it has crossed one the close does not touch both bands.** -/
theorem drawn_mirror_iff {oversold : ℚ} {weights : ℚ × ℚ}
    (nonneg : 0 ≤ weights.1 ∧ 0 ≤ weights.2) (below above : Prop) [Decidable below]
    [Decidable above] :
    (drawn oversold (indexOf weights.swap) (sideOf above below)).map inBundle =
        ((drawn oversold (indexOf weights) (sideOf below above)).map inBundle).map mirrored ↔
      (weights.1 + weights.2 = 0 → oversold ≤ 0) ∧
        ¬(100 * weights.1 < oversold * (weights.1 + weights.2) ∧
          100 * weights.2 < oversold * (weights.1 + weights.2)) ∧
        (100 * weights.1 < oversold * (weights.1 + weights.2) ∨
            100 * weights.2 < oversold * (weights.1 + weights.2) → ¬(below ∧ above)) := by
  rcases (add_nonneg nonneg.1 nonneg.2).eq_or_lt with still | moves
  · have up : weights.1 = 0 := by linarith
    have down : weights.2 = 0 := by linarith
    have index : indexOf weights = 100 ∧ indexOf weights.swap = 100 := ⟨if_pos down, if_pos up⟩
    rw [index.1, index.2, ← still, imp_iff_right rfl, mul_zero, up, down, mul_zero]
    simp only [lt_irrefl, and_self, not_false_eq_true, or_self, false_imp_iff, and_true]
    by_cases crossed : oversold ≤ 0
    · have silent : ∀ side, drawn oversold 100 side = none := fun side => by
        rw [drawn, if_neg (by linarith), if_neg (by linarith)]
      rw [silent, silent]
      exact iff_of_true rfl crossed
    · refine iff_of_false ?_ crossed
      by_cases far : 100 < oversold
      · refine ne_mirrored .long (by decide) ?_ ?_ <;> rw [drawn_fst, if_pos far]
      · refine ne_mirrored .short (by decide) ?_ ?_ <;>
          rw [drawn_fst, if_neg far, if_pos (by linarith)]
  · obtain ⟨plain, swapped⟩ := indexOf_of_pos nonneg moves
    have range := indexOf_mem nonneg
    rw [plain] at range
    rw [plain, swapped]
    have low : 100 * weights.1 < oversold * (weights.1 + weights.2) ↔
        100 * weights.1 / (weights.1 + weights.2) < oversold := (div_lt_iff₀ moves).symm
    have high : 100 * weights.2 < oversold * (weights.1 + weights.2) ↔
        100 - oversold < 100 * weights.1 / (weights.1 + weights.2) := by
      rw [lt_div_iff₀ moves]
      constructor <;> intro crossed <;> linarith
    rw [low, high]
    exact (drawn_sub_mirror_iff range below above).trans
      (and_iff_right fun still => absurd still.symm moves.ne).symm

/-! ## Emissions -/

/-- The direction, the strength and the confidence that a bar yields. -/
def yieldAt (root : ℚ → ℚ) (params : MeanReversionParams) (data : List PriceBar) (i : ℤ) :
    Option (Direction × ℚ × ℚ) :=
  (drawn params.oversold (indexOf (balance data params.rsiPeriod i))
    (sideOf (Below root params data i) (Above root params data i))).map inBundle

/-- The bundle that a bar yields. -/
def bundleAt (root : ℚ → ℚ) (params : MeanReversionParams) (symbol : String)
    (data : List PriceBar) (i : ℤ) : Option BuilderBundle :=
  (drawn params.oversold (indexOf (balance data params.rsiPeriod i))
    (sideOf (Below root params data i) (Above root params data i))).map fun found =>
      makeBundle params.strategyId symbol found.1 found.2 (found.2 * (85 / 100))
        [("signal_type", .text "rsi_bb"),
          ("rsi", .number (.fin (indexOf (balance data params.rsiPeriod i)))),
          ("close", .number (.fin (closeAt data i))),
          ("bb_signal", .number (.fin
            (sideOf (Below root params data i) (Above root params data i))))]

/-- An entry without the names and the metadata of its bundle. -/
def outline (entry : ℤ × BuilderBundle) : ℤ × Direction × ℚ × ℚ :=
  (entry.1, entry.2.direction, entry.2.strength.val, entry.2.confidence.val)

section Emission

variable {root : ℚ → ℚ} {params : MeanReversionParams} {symbol : String} {data : List PriceBar}

theorem reaction_eq (symmetric : params.overbought = 100 - params.oversold) {r : ℚ}
    (range : 0 ≤ r ∧ r ≤ 100) (side : ℤ) :
    params.reaction r side = .ok (drawn params.oversold r side) := by
  unfold MeanReversionParams.reaction drawn
  rw [symmetric]
  by_cases low : r < params.oversold
  · have scale : params.oversold ≠ 0 := (range.1.trans_lt low).ne'
    rw [if_pos low, if_pos low]
    simp only [bind, Except.bind, quotient_eq scale]
    rfl
  rw [if_neg low, if_neg low]
  by_cases high : 100 - params.oversold < r
  · have positive : 0 < 100 - (100 - params.oversold) := by linarith [range.2]
    have depth : (r - (100 - params.oversold)) / (100 - (100 - params.oversold)) =
        (params.oversold - (100 - r)) / params.oversold := by
      rw [sub_sub_cancel]
      congr 1
      ring
    rw [if_pos high, if_pos high]
    simp only [bind, Except.bind, quotient_eq positive.ne', depth]
    rfl
  · rw [if_neg high, if_neg high]
    rfl

theorem bbSignal_eq (root : ℚ → ℚ) (params : MeanReversionParams) (data : List PriceBar) (i : ℤ) :
    bbSignal
        ⟨.fin (bandMean data params.bbPeriod i + bandWidth root params data i),
          .fin (bandMean data params.bbPeriod i),
          .fin (bandMean data params.bbPeriod i - bandWidth root params data i)⟩ (closeAt data i) =
      sideOf (Below root params data i) (Above root params data i) := by
  unfold bbSignal sideOf Below Above
  rw [if_neg (by rintro (absurdity | absurdity) <;> cases absurdity)]
  exact if_congr (Extended.le_fin_iff _ _) rfl (if_congr (Extended.le_fin_iff _ _) rfl rfl)

theorem signalAt_eq (symmetric : params.overbought = 100 - params.oversold)
    (rsiPositive : 0 < params.rsiPeriod) (bbPositive : 0 < params.bbPeriod) {rsi : List ℚ}
    {bands : List Band} (rsiMade : computeRsi data params.rsiPeriod = .ok rsi)
    (bandsMade : computeBollinger root data params.bbPeriod params.bbStd = .ok bands) {i : ℤ}
    (late : params.bbPeriod ≤ i) (inside : i < data.length) :
    params.signalAt symbol data rsi bands i = .ok (bundleAt root params symbol data i) := by
  obtain ⟨bar, now, close⟩ := readItem_eq_closeAt data i (by omega) inside
  have index := (readItem_of_mapM rsiMade (show 0 ≤ i by omega) inside).trans
    (rsiAt_eq rsiPositive inside)
  have band := (readItem_of_mapM bandsMade (show 0 ≤ i by omega) inside).trans
    (@bandAt_eq data root params i bbPositive late)
  unfold MeanReversionParams.signalAt bundleAt
  simp only [index, now, band, bind, Except.bind, close, bbSignal_eq,
    reaction_eq symmetric (indexOf_mem balance_nonneg)]
  cases drawn params.oversold (indexOf (balance data params.rsiPeriod i))
      (sideOf (Below root params data i) (Above root params data i)) with
  | none => rfl
  | some found => rfl

/-- **The bundles of a list, bar by bar.** -/
theorem emission_eq (symmetric : params.overbought = 100 - params.oversold)
    (rsiPositive : 0 < params.rsiPeriod) (bbPositive : 0 < params.bbPeriod) :
    params.emission root symbol data =
      ((range params.bbPeriod data.length).filterMap fun i =>
        (bundleAt root params symbol data i).map fun bundle => (i, bundle), none) := by
  unfold MeanReversionParams.emission MeanReversionParams.guard
  split_ifs with short
  · have empty : range params.bbPeriod data.length = [] := by
      rw [range, Int.toNat_of_nonpos (by omega)]
      rfl
    rw [empty]
    rfl
  · obtain ⟨rsi, rsiMade⟩ := exists_computeRsi data params.rsiPeriod rsiPositive
    obtain ⟨bands, bandsMade⟩ :=
      exists_computeBollinger root data params.bbPeriod params.bbStd bbPositive
    have computed : params.indicators root data = .ok (rsi, bands) := by
      rw [MeanReversionParams.indicators, rsiMade, bandsMade]
      rfl
    rw [computed, loopAfter]
    refine emit_of_ok fun i member => ?_
    obtain ⟨late, inside⟩ := mem_range_iff.mp member
    exact signalAt_eq symmetric rsiPositive bbPositive rsiMade bandsMade late inside

theorem emission_outline (symmetric : params.overbought = 100 - params.oversold)
    (rsiPositive : 0 < params.rsiPeriod) (bbPositive : 0 < params.bbPeriod) :
    (params.emission root symbol data).1.map outline =
      (range params.bbPeriod data.length).filterMap fun i =>
        (yieldAt root params data i).map fun found => (i, found) := by
  rw [emission_eq symmetric rsiPositive bbPositive, List.map_filterMap]
  refine List.filterMap_congr fun i _ => ?_
  rw [bundleAt, yieldAt, Option.map_map, Option.map_map, Option.map_map]
  rfl

end Emission

/-! ## Mirrored signals -/

/-- The reflected closes give the opposite directions at the same bars with the same strengths and
confidences, and a bar whose window does not change gives nothing on either side. -/
structure MirrorsSignals (root : ℚ → ℚ) (params : MeanReversionParams) (symbol : String)
    (data : List PriceBar) (c : ℚ) : Prop where
  ends : (params.emission root symbol (data.map (PriceBar.reflect c))).2 =
    (params.emission root symbol data).2
  mirror : (params.emission root symbol (data.map (PriceBar.reflect c))).1.map outline =
    ((params.emission root symbol data).1.map outline).map
      fun entry => (entry.1, mirrored entry.2)
  quiet : ∀ i, Still data params.rsiPeriod i →
    (∀ entry ∈ (params.emission root symbol data).1, entry.1 ≠ i) ∧
      ∀ entry ∈ (params.emission root symbol (data.map (PriceBar.reflect c))).1, entry.1 ≠ i

/-- The gains of the window are below the lower threshold. -/
def Oversold (params : MeanReversionParams) (data : List PriceBar) (i : ℤ) : Prop :=
  100 * (balance data params.rsiPeriod i).1 < params.oversold *
    ((balance data params.rsiPeriod i).1 + (balance data params.rsiPeriod i).2)

/-- The losses of the window are below the lower threshold. -/
def Overbought (params : MeanReversionParams) (data : List PriceBar) (i : ℤ) : Prop :=
  100 * (balance data params.rsiPeriod i).2 < params.oversold *
    ((balance data params.rsiPeriod i).1 + (balance data params.rsiPeriod i).2)

/-- The closes of the window change, unless no index is below the lower threshold; the window is
not on both sides of the thresholds; and where it is on one, the close does not touch both bands. -/
structure SymmetricAt (root : ℚ → ℚ) (params : MeanReversionParams) (data : List PriceBar)
    (i : ℤ) : Prop where
  moves : Still data params.rsiPeriod i → params.oversold ≤ 0
  oneSided : ¬(Oversold params data i ∧ Overbought params data i)
  bands : Oversold params data i ∨ Overbought params data i →
    ¬(Below root params data i ∧ Above root params data i)

section Mirrors

variable {root : ℚ → ℚ} {params : MeanReversionParams} {symbol : String} {data : List PriceBar}
  {c : ℚ}

/-- **One bar yields its mirror image on the reflected closes exactly if it is symmetric.** -/
theorem yieldAt_mirror_iff (bbPositive : 0 < params.bbPeriod) {i : ℤ}
    (late : params.bbPeriod ≤ i) (inside : i < data.length) :
    yieldAt root params (data.map (PriceBar.reflect c)) i =
        (yieldAt root params data i).map mirrored ↔ SymmetricAt root params data i := by
  obtain ⟨below, above⟩ := @below_reflect data root params c i bbPositive late inside
  have side : sideOf (Below root params (data.map (PriceBar.reflect c)) i)
      (Above root params (data.map (PriceBar.reflect c)) i) =
        sideOf (Above root params data i) (Below root params data i) := by
    unfold sideOf
    exact if_congr below rfl (if_congr above rfl rfl)
  rw [yieldAt, balance_reflect c inside, side, yieldAt, drawn_mirror_iff balance_nonneg,
    ← still_iff]
  exact ⟨fun ⟨moves, oneSided, bands⟩ => ⟨moves, oneSided, bands⟩,
    fun ⟨moves, oneSided, bands⟩ => ⟨moves, oneSided, bands⟩⟩

/-- The outlines of two lists are mirror images exactly if every bar is symmetric. -/
theorem outlines_mirror_iff (symmetric : params.overbought = 100 - params.oversold)
    (rsiPositive : 0 < params.rsiPeriod) (bbPositive : 0 < params.bbPeriod) :
    (params.emission root symbol (data.map (PriceBar.reflect c))).1.map outline =
        ((params.emission root symbol data).1.map outline).map
          (fun entry => (entry.1, mirrored entry.2)) ↔
      ∀ i, params.bbPeriod ≤ i → i < data.length → SymmetricAt root params data i := by
  have mapped : ((range params.bbPeriod data.length).filterMap fun i =>
      (yieldAt root params data i).map fun found => (i, found)).map
        (fun entry => (entry.1, mirrored entry.2)) =
      (range params.bbPeriod data.length).filterMap fun i =>
        ((yieldAt root params data i).map mirrored).map fun found => (i, found) := by
    rw [List.map_filterMap]
    refine List.filterMap_congr fun i _ => ?_
    rw [Option.map_map, Option.map_map]
    rfl
  rw [emission_outline symmetric rsiPositive bbPositive,
    emission_outline symmetric rsiPositive bbPositive, List.length_map, mapped,
    filterMap_positions_eq_iff]
  constructor
  · intro same i late inside
    exact (yieldAt_mirror_iff bbPositive late inside).mp
      (same i (mem_range_iff.mpr ⟨late, inside⟩))
  · intro same i member
    obtain ⟨late, inside⟩ := mem_range_iff.mp member
    exact (yieldAt_mirror_iff bbPositive late inside).mpr (same i late inside)

/-- Without a threshold to cross, a window that does not change yields nothing. -/
theorem bundleAt_eq_none {i : ℤ} (still : Still data params.rsiPeriod i)
    (uncrossed : params.oversold ≤ 0) : bundleAt root params symbol data i = none := by
  obtain ⟨up, down⟩ := @balance_nonneg data params.rsiPeriod i
  have total := still_iff.mp still
  have index : indexOf (balance data params.rsiPeriod i) = 100 := if_pos (by linarith)
  rw [bundleAt, index, drawn, if_neg (by linarith), if_neg (by linarith)]
  rfl

theorem not_emitted (symmetric : params.overbought = 100 - params.oversold)
    (rsiPositive : 0 < params.rsiPeriod) (bbPositive : 0 < params.bbPeriod) {i : ℤ}
    (quiet : params.bbPeriod ≤ i → i < data.length →
      Still data params.rsiPeriod i ∧ params.oversold ≤ 0) :
    ∀ entry ∈ (params.emission root symbol data).1, entry.1 ≠ i := by
  rw [emission_eq symmetric rsiPositive bbPositive]
  rintro entry emitted rfl
  obtain ⟨j, member, found⟩ := List.mem_filterMap.mp emitted
  obtain ⟨bundle, yielded, rfl⟩ := Option.map_eq_some_iff.mp found
  obtain ⟨late, inside⟩ := mem_range_iff.mp member
  obtain ⟨still, uncrossed⟩ := quiet late inside
  rw [bundleAt_eq_none still uncrossed] at yielded
  cases yielded

theorem still_reflect {i : ℤ} (inside : i < data.length)
    (still : Still data params.rsiPeriod i) :
    Still (data.map (PriceBar.reflect c)) params.rsiPeriod i := by
  rw [still_iff] at still ⊢
  rw [balance_reflect c inside, Prod.fst_swap, Prod.snd_swap, add_comm]
  exact still

/-- For accepted parameters the thresholds do not overlap. -/
theorem symmetricAt_iff (accepted : params.validateParams)
    (symmetric : params.overbought = 100 - params.oversold) (i : ℤ) :
    SymmetricAt root params data i ↔ ¬Still data params.rsiPeriod i ∧
      (Oversold params data i ∨ Overbought params data i →
        ¬(Below root params data i ∧ Above root params data i)) := by
  obtain ⟨-, positive, ordered, -, -⟩ := of_decide_eq_true accepted
  rw [symmetric] at ordered
  constructor
  · rintro ⟨moves, -, bands⟩
    exact ⟨fun still => absurd (moves still) (not_le.mpr positive), bands⟩
  · rintro ⟨changes, bands⟩
    refine ⟨fun still => absurd still changes, fun both => ?_, bands⟩
    obtain ⟨up, down⟩ := @balance_nonneg data params.rsiPeriod i
    have half := mul_le_mul_of_nonneg_right (show params.oversold ≤ 50 by linarith)
      (add_nonneg up down)
    unfold Oversold Overbought at both
    linarith [both.1, both.2]

end Mirrors

/-- **A mean reversion strategy with thresholds that are symmetric around fifty emits the mirror
image of its signals on reflected closes, and nothing where the closes do not change, if and only
if at every bar of its loop the closes of the index window change, the index is not on both sides
of the thresholds, and where it has crossed one the close does not touch both bands.** -/
theorem mirrors_signals_iff (root : ℚ → ℚ) (params : MeanReversionParams)
    (symmetric : params.overbought = 100 - params.oversold) (rsiPositive : 0 < params.rsiPeriod)
    (bbPositive : 0 < params.bbPeriod) (symbol : String) (data : List PriceBar) (c : ℚ) :
    MirrorsSignals root params symbol data c ↔
      ∀ i, params.bbPeriod ≤ i → i < data.length → SymmetricAt root params data i := by
  constructor
  · intro mirrors
    exact (outlines_mirror_iff symmetric rsiPositive bbPositive).mp mirrors.mirror
  · intro same
    refine ⟨?_, (outlines_mirror_iff symmetric rsiPositive bbPositive).mpr same,
      fun i still => ?_⟩
    · rw [emission_eq symmetric rsiPositive bbPositive,
        emission_eq symmetric rsiPositive bbPositive]
    · constructor
      · exact not_emitted symmetric rsiPositive bbPositive fun late inside =>
          ⟨still, (same i late inside).moves still⟩
      · refine not_emitted symmetric rsiPositive bbPositive fun late inside => ?_
        rw [List.length_map] at inside
        exact ⟨still_reflect inside still, (same i late inside).moves still⟩

/-- Six closes, each one below the one before. -/
def fallingBars : List PriceBar := [6, 5, 4, 3, 2, 1].map fun close => ⟨close, close, close, 0⟩

theorem mirrors_signals_sample :
    MirrorsSignals abs { rsiPeriod := 5, bbPeriod := 5 } "AAPL" fallingBars 7 := by
  have symmetric : (70 : ℚ) = 100 - 30 := by norm_num
  refine (mirrors_signals_iff abs { rsiPeriod := 5, bbPeriod := 5 } symmetric (by decide)
    (by decide) "AAPL" fallingBars 7).mpr fun i late inside => ?_
  have last : i = 5 := by
    change i < 6 at inside
    change 5 ≤ i at late
    omega
  have weights : balance fallingBars 5 5 = (0, 5) := by with_unfolding_all decide
  have distant : ¬Above abs { rsiPeriod := 5, bbPeriod := 5 } fallingBars 5 := by
    with_unfolding_all decide
  rw [last]
  refine (symmetricAt_iff (by with_unfolding_all decide) symmetric 5).mpr
    ⟨?_, fun _ both => distant both.2⟩
  rw [still_iff, weights]
  norm_num

/-- Six closes at one price are sold at the last bar, and their reflection too. -/
theorem flat_closes_sold :
    (MeanReversionParams.emission abs { rsiPeriod := 5, bbPeriod := 5 } "AAPL"
        (onePrice 6)).1.map outline = [(5, .short, 9 / 10, 153 / 200)] ∧
      (MeanReversionParams.emission abs { rsiPeriod := 5, bbPeriod := 5 } "AAPL"
        ((onePrice 6).map (PriceBar.reflect 2))).1.map outline =
          [(5, .short, 9 / 10, 153 / 200)] ∧
      ¬MirrorsSignals abs { rsiPeriod := 5, bbPeriod := 5 } "AAPL" (onePrice 6) 2 := by
  have sold : (MeanReversionParams.emission abs { rsiPeriod := 5, bbPeriod := 5 } "AAPL"
      (onePrice 6)).1.map outline = [(5, .short, 9 / 10, 153 / 200)] := by
    with_unfolding_all decide
  have reflected : (onePrice 6).map (PriceBar.reflect 2) = onePrice 6 := by
    with_unfolding_all decide
  refine ⟨sold, by rw [reflected, sold], fun mirrors => ?_⟩
  have image := mirrors.mirror
  rw [reflected, sold] at image
  exact absurd image (by decide)

end TradeOS.Strategy
