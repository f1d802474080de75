import TradeOS.Research.AlphaFactors
import Mathlib.Data.Rat.Sqrt
import Mathlib.Tactic.Ring
import Mathlib.Tactic.Linarith
import Mathlib.Tactic.FieldSimp
import Mathlib.Tactic.Positivity

/-!
# Factors that mix symbols

No builder of the alpha library groups the rows by symbol, so near the start of a symbol its window
reaches into the rows of another one. `factors_separate_iff` says for which tables a factor is still
reported as on the rows of the symbol alone, and that all of them are only for tables of one symbol.

The factors with a window are missing where the window is cut off, so they stay apart exactly where
they are missing on the windows that reach above the symbol (`separate_iff_of_windowed`). The other
two are a recursion and a count of signs that takes a missing value for zero.
-/

set_option autoImplicit false

namespace TradeOS.Alpha

open Numeric Numeric.Extended Histories PriceSeries

/-! ## Windows of series -/

theorem windowed_close : ReadsWindow nan 1 close where
  short history cut := by
    cases history with
    | nil => rfl
    | cons row above => simp at cut
  within history above long := by
    cases history with
    | nil => simp at long
    | cons row rest => rfl

theorem windowed_volume : ReadsWindow nan 1 volume where
  short history cut := by
    cases history with
    | nil => rfl
    | cons row above => simp at cut
  within history above long := by
    cases history with
    | nil => simp at long
    | cons row rest => rfl

theorem windowed_shift (periods : ℕ) {s : PriceSeries} (windowed : ReadsWindow nan 1 s) :
    ReadsWindow nan (periods + 1) (shift periods s) where
  short history cut := if_neg (by omega)
  within history above long := by
    have behind : 1 ≤ (history.drop periods).length := by
      rw [List.length_drop]
      omega
    have longer : periods < (history ++ above).length := by
      rw [List.length_append]
      omega
    rw [shift, shift, if_pos longer, if_pos (by omega), List.drop_append_of_le_length (by omega),
      windowed.within _ _ behind]

theorem windowed_apply {window : ℕ} {s : PriceSeries} (windowed : ReadsWindow nan window s)
    {f : Extended → Extended} (absorbs : f nan = nan) : ReadsWindow nan window (apply f s) where
  short history cut := by rw [apply, windowed.short history cut, absorbs]
  within history above long := by rw [apply, windowed.within history above long, apply]

theorem windowed_combine {inner window : ℕ} {s t : PriceSeries} (first : ReadsWindow nan inner s)
    (second : ReadsWindow nan window t) (shorter : inner ≤ window)
    {f : Extended → Extended → Extended} (absorbs : ∀ x, f x nan = nan) :
    ReadsWindow nan window (combine f s t) where
  short history cut := by rw [combine, second.short history cut, absorbs]
  within history above long := by
    rw [combine, first.within history above (shorter.trans long),
      second.within history above long, combine]

/-- The values in a window do not depend on rows above it. -/
theorem windowValues_append {inner window : ℕ} {s : PriceSeries}
    (windowed : ReadsWindow nan (inner + 1) s) {history : List PriceRow} (above : List PriceRow)
    (long : window + inner ≤ history.length) :
    windowValues window s (history ++ above) = windowValues window s history := by
  refine List.map_congr_left fun k member => ?_
  have inside := List.mem_range.mp member
  have rest : inner + 1 ≤ (history.drop k).length := by
    rw [List.length_drop]
    omega
  rw [List.drop_append_of_le_length (by omega), windowed.within _ _ rest]

theorem windowed_rolling {inner window : ℕ} (wide : 0 < window)
    (aggregate : List Extended → Extended) {s : PriceSeries}
    (windowed : ReadsWindow nan (inner + 1) s) :
    ReadsWindow nan (window + inner) (rolling window aggregate s) where
  short history cut := by
    refine if_neg fun full => full.2 (List.mem_map.mpr ⟨window - 1, ?_, ?_⟩)
    · exact List.mem_range.mpr (by omega)
    refine windowed.short _ ?_
    rw [List.length_drop]
    omega
  within history above long := by
    have longer : window ≤ (history ++ above).length := by
      rw [List.length_append]
      omega
    have enough : window ≤ history.length := by omega
    simp only [rolling, windowValues_append windowed above long, longer, enough]

/-! ## Values of series -/

/-- The values at the last rows of a history. -/
def lastValues (count : ℕ) (value : List PriceRow → ℚ) (history : List PriceRow) : List ℚ :=
  (List.range count).map fun k => value (history.drop k)

@[simp] theorem length_lastValues (count : ℕ) (value : List PriceRow → ℚ)
    (history : List PriceRow) : (lastValues count value history).length = count := by
  rw [lastValues, List.length_map, List.length_range]

/-- What a window holds, when the series is rational on its rows. -/
theorem windowValues_eq {inner : ℕ} (window : ℕ) {s : PriceSeries} {value : List PriceRow → ℚ}
    (rational : ∀ history : List PriceRow, inner < history.length → s history = fin (value history))
    {history : List PriceRow} (long : window + inner ≤ history.length) :
    windowValues window s history = (lastValues window value history).map fin := by
  rw [windowValues, lastValues, List.map_map]
  refine List.map_congr_left fun k member => rational _ ?_
  have inside := List.mem_range.mp member
  rw [List.length_drop]
  omega

theorem rolling_eq (inner window : ℕ) {s : PriceSeries} (value : List PriceRow → ℚ)
    (rational : ∀ history : List PriceRow, inner < history.length → s history = fin (value history))
    (aggregate : List Extended → Extended) {history : List PriceRow}
    (long : window + inner ≤ history.length) :
    rolling window aggregate s history = aggregate ((lastValues window value history).map fin) := by
  have values := windowValues_eq window rational long
  have numbers : nan ∉ windowValues window s history := by
    rw [values]
    simp
  rw [rolling, if_pos ⟨by omega, numbers⟩, values]

/-- The close of the row of a history. -/
def closeOf : List PriceRow → ℚ
  | [] => 0
  | row :: _ => row.close.val

/-- The volume of the row of a history. -/
def volumeOf : List PriceRow → ℚ
  | [] => 0
  | row :: _ => row.volume.val

/-- The change of the close from the row before, zero for a first row. -/
def move : List PriceRow → ℚ
  | row :: prev :: _ => row.close.val - prev.close.val
  | _ => 0

theorem close_eq {history : List PriceRow} (nonempty : 0 < history.length) :
    close history = fin (closeOf history) := by
  cases history with
  | nil => simp at nonempty
  | cons row above => rfl

theorem closeOf_pos {history : List PriceRow} (nonempty : 0 < history.length) :
    0 < closeOf history := by
  cases history with
  | nil => simp at nonempty
  | cons row above => exact row.close.property

theorem volume_eq {history : List PriceRow} (nonempty : 0 < history.length) :
    volume history = fin (volumeOf history) := by
  cases history with
  | nil => simp at nonempty
  | cons row above => rfl

theorem volumeOf_nonneg (history : List PriceRow) : 0 ≤ volumeOf history := by
  cases history with
  | nil => exact le_rfl
  | cons row above => exact row.volume.property

theorem diff_close_eq {history : List PriceRow} (rows : 1 < history.length) :
    diff close history = fin (move history) := by
  match history with
  | row :: prev :: above =>
      rw [diff, shift, if_pos rows]
      exact fin_sub _ _

/-- A return is a number wherever its price is. -/
theorem pctChange_eq {periods : ℕ} {history : List PriceRow} (rows : periods < history.length) :
    pctChange periods close history =
      fin (closeOf history / closeOf (history.drop periods) - 1) := by
  have behind : 0 < (history.drop periods).length := by
    rw [List.length_drop]
    omega
  rw [pctChange, shift, if_pos rows, close_eq (by omega), close_eq behind,
    fin_div (closeOf_pos behind).ne', fin_sub]

/-- The aggregate of a window is the mean of its values. -/
theorem rolling_mean_eq (inner window : ℕ) (wide : 0 < window) {s : PriceSeries}
    (value : List PriceRow → ℚ)
    (rational : ∀ history : List PriceRow, inner < history.length → s history = fin (value history))
    {history : List PriceRow} (long : window + inner ≤ history.length) :
    rolling window mean s history =
      fin ((lastValues window value history).sum / window) := by
  have nonempty : lastValues window value history ≠ [] :=
    List.length_pos_iff.mp (by simpa using wide)
  rw [rolling_eq inner window value rational mean long, mean_map_fin nonempty, length_lastValues]

theorem rolling_std_eq (sqrt : ℚ → ℚ) (inner window : ℕ) (wide : 2 ≤ window) {s : PriceSeries}
    (value : List PriceRow → ℚ)
    (rational : ∀ history : List PriceRow, inner < history.length → s history = fin (value history))
    {history : List PriceRow} (long : window + inner ≤ history.length) :
    rolling window (std sqrt) s history =
      fin (sqrt (sampleVariance (lastValues window value history))) := by
  rw [rolling_eq inner window value rational (std sqrt) long, std,
    variance_map_fin (by simpa using wide)]

/-- A sum of values that are not negative is zero exactly if each is. -/
theorem sum_eq_zero_iff_of_nonneg {values : List ℚ} (nonneg : ∀ x ∈ values, 0 ≤ x) :
    values.sum = 0 ↔ ∀ x ∈ values, x = 0 :=
  ⟨fun zero _ member => List.all_zero_of_le_zero_le_of_sum_eq_zero nonneg zero member,
    fun zeros => List.sum_eq_zero zeros⟩

theorem mem_lastValues_iff {count : ℕ} {value : List PriceRow → ℚ} {history : List PriceRow}
    {x : ℚ} : x ∈ lastValues count value history ↔ ∃ k < count, value (history.drop k) = x := by
  simp [lastValues]

/-! ## When a factor is missing -/

theorem windowed_pctChange (periods : ℕ) :
    ReadsWindow nan (periods + 1) (pctChange periods close) :=
  windowed_combine (f := fun x prev => x / prev - fin 1) windowed_close
    (windowed_shift periods windowed_close) (by omega) (by simp)

theorem windowed_diff : ReadsWindow nan 2 (diff close) :=
  windowed_combine (f := (· - ·)) windowed_close (windowed_shift 1 windowed_close) (by omega)
    (by simp)

theorem pctChange_ne_nan (periods : ℕ) {history : List PriceRow}
    (long : periods + 1 ≤ history.length) : pctChange periods close history ≠ nan := by
  rw [pctChange_eq (by omega)]
  exact nofun

theorem windowed_rollingVolatility (sqrt : ℚ → ℚ) {window : ℕ} (wide : 2 ≤ window) :
    ReadsWindow nan (window + 1) (rollingVolatility sqrt window) :=
  windowed_apply (windowed_rolling (by omega) (std sqrt) (windowed_pctChange 1)) (by simp)

theorem rollingVolatility_ne_nan (sqrt : ℚ → ℚ) {window : ℕ} (wide : 2 ≤ window)
    {history : List PriceRow} (long : window + 1 ≤ history.length) :
    rollingVolatility sqrt window history ≠ nan := by
  rw [rollingVolatility, apply,
    rolling_std_eq sqrt 1 window wide _ (fun history rows => pctChange_eq rows) long, fin_mul]
  exact nofun

theorem windowed_buildRsi14 : ReadsWindow nan 15 buildRsi14 := by
  have average : ∀ f : Extended → Extended, f nan = nan →
      ReadsWindow nan 15 (rolling 14 mean (apply f (diff close))) := fun _ absorbs =>
    windowed_rolling (by omega) mean (windowed_apply windowed_diff absorbs)
  have ratio := windowed_combine (f := fun x y => x / replaceZero y)
    (average (fun x => larger x (fin 0)) rfl) (average (fun x => -smaller x (fin 0)) rfl) le_rfl
    fun x => by simp [replaceZero]
  exact windowed_apply (f := fun x => fin 100 - fin 100 / (fin 1 + x)) ratio (by simp)

/-- The relative strength index is missing exactly where no close falls in the window. -/
theorem buildRsi14_eq_nan_iff {history : List PriceRow} (long : 15 ≤ history.length) :
    buildRsi14 history = nan ↔ ∀ change ∈ lastValues 14 move history, 0 ≤ change := by
  have gains := rolling_mean_eq 1 14 (by omega)
    (s := apply (fun x => larger x (fin 0)) (diff close)) (fun history => max (move history) 0)
    (fun history rows => by rw [apply, diff_close_eq rows, larger_fin]) long
  have losses := rolling_mean_eq 1 14 (by omega)
    (s := apply (fun x => -smaller x (fin 0)) (diff close)) (fun history => -min (move history) 0)
    (fun history rows => by rw [apply, diff_close_eq rows, smaller_fin, fin_neg]) long
  have gained : 0 ≤ (lastValues 14 (fun history => max (move history) 0) history).sum := by
    refine List.sum_nonneg fun x member => ?_
    obtain ⟨k, -, rfl⟩ := mem_lastValues_iff.mp member
    exact le_max_right _ _
  have lost : ∀ x ∈ lastValues 14 (fun history => -min (move history) 0) history, 0 ≤ x := by
    intro x member
    obtain ⟨k, -, rfl⟩ := mem_lastValues_iff.mp member
    exact neg_nonneg.mpr (min_le_right _ _)
  have rising : (lastValues 14 (fun history => -min (move history) 0) history).sum = 0 ↔
      ∀ change ∈ lastValues 14 move history, 0 ≤ change := by
    rw [sum_eq_zero_iff_of_nonneg lost]
    simp [mem_lastValues_iff]
  rw [← rising, buildRsi14]
  dsimp only [apply, combine] at gains losses ⊢
  rw [gains, losses, replaceZero]
  by_cases zero : (lastValues 14 (fun history => -min (move history) 0) history).sum = 0
  · simp [zero]
  · have positive : 0 < (lastValues 14 (fun history => -min (move history) 0) history).sum :=
      lt_of_le_of_ne (List.sum_nonneg lost) (Ne.symm zero)
    refine iff_of_false ?_ zero
    rw [if_neg (by simpa using zero), fin_div (by positivity), fin_add, fin_div (by positivity),
      fin_sub]
    exact nofun

theorem windowed_rolling_own (window : ℕ) (wide : 0 < window)
    (aggregate : List Extended → Extended) {s : PriceSeries} (windowed : ReadsWindow nan 1 s) :
    ReadsWindow nan window (rolling window aggregate s) :=
  windowed_rolling wide aggregate windowed

theorem windowed_buildBbWidth (sqrt : ℚ → ℚ) (numStd : ℚ) :
    ReadsWindow nan 20 (buildBbWidth sqrt 20 numStd) :=
  windowed_combine (windowed_rolling_own 20 (by omega) mean windowed_close)
    (windowed_rolling_own 20 (by omega) (std sqrt) windowed_close) le_rfl
    fun x => by simp [upperBand, lowerBand]

theorem windowed_buildBbPos (sqrt : ℚ → ℚ) (numStd : ℚ) :
    ReadsWindow nan 20 (buildBbPos sqrt 20 numStd) where
  short history cut := by
    simp [buildBbPos, lowerBand,
      (windowed_rolling_own 20 (by omega) (std sqrt) windowed_close).short history cut]
  within history above long := by
    simp only [buildBbPos, windowed_close.within history above (by omega),
      (windowed_rolling_own 20 (by omega) mean windowed_close).within history above long,
      (windowed_rolling_own 20 (by omega) (std sqrt) windowed_close).within history above long]

theorem windowed_buildVolRatio : ReadsWindow nan 20 (buildVolRatio 20) :=
  windowed_combine (f := fun x average => x / replaceZero average) windowed_volume
    (windowed_rolling_own 20 (by omega) mean windowed_volume) (by omega)
    fun x => by simp [replaceZero]

/-- The mean close of a window is positive. -/
theorem sum_closes_pos {history : List PriceRow} (long : 20 ≤ history.length) :
    0 < (lastValues 20 closeOf history).sum := by
  refine List.sum_pos _ (fun x member => ?_) (List.length_pos_iff.mp (by simp))
  obtain ⟨k, small, rfl⟩ := mem_lastValues_iff.mp member
  refine closeOf_pos ?_
  rw [List.length_drop]
  omega

theorem buildBbWidth_ne_nan (sqrt : ℚ → ℚ) (numStd : ℚ) {history : List PriceRow}
    (long : 20 ≤ history.length) : buildBbWidth sqrt 20 numStd history ≠ nan := by
  have positive := sum_closes_pos long
  rw [buildBbWidth, combine,
    rolling_mean_eq 0 20 (by omega) closeOf (fun _ rows => close_eq rows) long,
    rolling_std_eq sqrt 0 20 (by omega) closeOf (fun _ rows => close_eq rows) long, upperBand,
    lowerBand, fin_mul, fin_add, fin_sub, fin_sub, fin_div (by positivity)]
  exact nofun

/-- The closes of a window have no variance exactly if they are equal. -/
theorem sampleVariance_eq_zero_iff {history : List PriceRow} :
    sampleVariance (lastValues 20 closeOf history) = 0 ↔
      ∀ price ∈ lastValues 20 closeOf history, price = closeOf history := by
  set closes := lastValues 20 closeOf history
  have count : closes.length = 20 := length_lastValues ..
  have newest : closeOf history ∈ closes := mem_lastValues_iff.mpr ⟨0, by omega, rfl⟩
  have squares : ∀ x ∈ closes.map fun x => (x - closes.sum / closes.length) *
      (x - closes.sum / closes.length), 0 ≤ x := by
    intro x member
    obtain ⟨price, -, rfl⟩ := List.mem_map.mp member
    exact mul_self_nonneg _
  have mean_iff : sampleVariance closes = 0 ↔ ∀ price ∈ closes, price = closes.sum / 20 := by
    rw [sampleVariance, count, div_eq_zero_iff, or_iff_left (by norm_num),
      ← count, sum_eq_zero_iff_of_nonneg squares]
    simp [sub_eq_zero, count]
  rw [mean_iff]
  constructor
  · intro average price member
    rw [average price member, ← average _ newest]
  · intro equal price member
    have constant : closes = List.replicate 20 (closeOf history) :=
      List.eq_replicate_iff.mpr ⟨count, equal⟩
    rw [equal price member, constant, List.sum_replicate]
    simp

theorem sampleVariance_nonneg (values : List ℚ) (several : 2 ≤ values.length) :
    0 ≤ sampleVariance values := by
  have more : (2 : ℚ) ≤ values.length := by exact_mod_cast several
  refine div_nonneg (List.sum_nonneg fun x member => ?_) (by linarith)
  obtain ⟨value, -, rfl⟩ := List.mem_map.mp member
  exact mul_self_nonneg _

/-- A square root is zero at zero only. -/
def RootLike (sqrt : ℚ → ℚ) : Prop := ∀ q, 0 ≤ q → (sqrt q = 0 ↔ q = 0)

/-- The band position is missing exactly where the closes of the window are equal. -/
theorem buildBbPos_eq_nan_iff {sqrt : ℚ → ℚ} (root : RootLike sqrt) {history : List PriceRow}
    (long : 20 ≤ history.length) :
    buildBbPos sqrt 20 2 history = nan ↔
      ∀ price ∈ lastValues 20 closeOf history, price = closeOf history := by
  have middle := rolling_mean_eq 0 20 (by omega) closeOf (fun _ rows => close_eq rows) long
  have deviation := rolling_std_eq sqrt 0 20 (by omega) closeOf (fun _ rows => close_eq rows) long
  have count : 2 ≤ (lastValues 20 closeOf history).length := by simp
  rw [← sampleVariance_eq_zero_iff, ← root _ (sampleVariance_nonneg _ count), buildBbPos, middle,
    deviation, close_eq (by omega)]
  simp only [upperBand, lowerBand, fin_mul, fin_add, fin_sub]
  by_cases flat : sqrt (sampleVariance (lastValues 20 closeOf history)) = 0
  · have equal := sampleVariance_eq_zero_iff.mp
      ((root _ (sampleVariance_nonneg _ count)).mp flat)
    have constant : lastValues 20 closeOf history = List.replicate 20 (closeOf history) :=
      List.eq_replicate_iff.mpr ⟨length_lastValues .., equal⟩
    refine iff_of_true ?_ flat
    rw [flat, constant, List.sum_replicate]
    norm_num
  · refine iff_of_false ?_ flat
    rw [fin_div fun zero => flat (by linarith)]
    exact nofun

/-- The volume ratio is missing exactly where the window has no volume. -/
theorem buildVolRatio_eq_nan_iff {history : List PriceRow} (long : 20 ≤ history.length) :
    buildVolRatio 20 history = nan ↔ ∀ amount ∈ lastValues 20 volumeOf history, amount = 0 := by
  have nonneg : ∀ x ∈ lastValues 20 volumeOf history, 0 ≤ x := by
    intro x member
    obtain ⟨k, -, rfl⟩ := mem_lastValues_iff.mp member
    exact volumeOf_nonneg _
  rw [← sum_eq_zero_iff_of_nonneg nonneg, buildVolRatio, combine,
    rolling_mean_eq 0 20 (by omega) volumeOf (fun _ rows => volume_eq rows) long,
    volume_eq (by omega), replaceZero]
  by_cases zero : (lastValues 20 volumeOf history).sum = 0
  · simp [zero]
  · refine iff_of_false ?_ zero
    rw [if_neg (by simpa using zero), fin_div (by simpa using zero)]
    exact nofun

/-! ## The exponential averages -/

/-- The exponential average of the closes. -/
def average (span : ℕ) : List PriceRow → ℚ
  | [] => 0
  | [row] => row.close.val
  | row :: above => (1 - smoothing span) * average span above + smoothing span * row.close.val

/-- The first close of a history. -/
def firstClose : List PriceRow → ℚ
  | [] => 0
  | [row] => row.close.val
  | _ :: above => firstClose above

theorem average_cons (span : ℕ) (row : PriceRow) {above : List PriceRow} (reaches : above ≠ []) :
    average span (row :: above) =
      (1 - smoothing span) * average span above + smoothing span * row.close.val := by
  cases above with
  | nil => exact absurd rfl reaches
  | cons prev above => rfl

theorem firstClose_cons (row : PriceRow) {above : List PriceRow} (reaches : above ≠ []) :
    firstClose (row :: above) = firstClose above := by
  cases above with
  | nil => exact absurd rfl reaches
  | cons prev above => rfl

theorem ewm_eq (span : ℕ) {history : List PriceRow} (nonempty : history ≠ []) :
    ewm span close history = fin (average span history) := by
  induction history with
  | nil => exact absurd rfl nonempty
  | cons row above ih =>
      cases above with
      | nil => rfl
      | cons prev above =>
          have step : ewm span close (row :: prev :: above) =
              fin (1 - smoothing span) * ewm span close (prev :: above) +
                fin (smoothing span) * fin row.close.val := rfl
          rw [step, ih nofun, average_cons span row (List.cons_ne_nil prev above), fin_mul, fin_mul,
            fin_add]

/-- **Rows above move an average by what they differ from the first close**, damped by each row. -/
theorem average_append (span : ℕ) {own above : List PriceRow} (nonempty : own ≠ [])
    (reaches : above ≠ []) :
    average span (own ++ above) = average span own +
      (1 - smoothing span) ^ own.length * (average span above - firstClose own) := by
  induction own with
  | nil => exact absurd rfl nonempty
  | cons row rest ih =>
      rw [List.cons_append, List.length_cons]
      by_cases last : rest = []
      · rw [last, List.nil_append, average_cons span row reaches]
        simp only [average, firstClose, List.length_nil]
        ring
      · rw [average_cons span row (by simp [last]), ih last, average_cons span row last,
          firstClose_cons row last]
        ring

/-- The averages of the rows above the first of a symbol hit its first close in a proportion that
cancels at this row. -/
def Cancels (own above : List PriceRow) : Prop :=
  (11 / 13) ^ own.length * (average 12 above - firstClose own) =
    (25 / 27) ^ own.length * (average 26 above - firstClose own)

theorem buildMacd_append_iff {own above : List PriceRow} (nonempty : own ≠ [])
    (reaches : above ≠ []) :
    buildMacd 12 26 (own ++ above) = buildMacd 12 26 own ↔ Cancels own above := by
  have fast : (1 : ℚ) - smoothing 12 = 11 / 13 := by norm_num [smoothing]
  have slow : (1 : ℚ) - smoothing 26 = 25 / 27 := by norm_num [smoothing]
  rw [buildMacd, combine, combine, ewm_eq 12 (by simp [nonempty]), ewm_eq 26 (by simp [nonempty]),
    ewm_eq 12 nonempty, ewm_eq 26 nonempty, average_append 12 nonempty reaches,
    average_append 26 nonempty reaches, fast, slow, fin_sub, fin_sub, fin.injEq, Cancels]
  constructor
  · intro same
    linarith
  · intro cancels
    rw [add_sub_add_comm, cancels, sub_self, add_zero]

/-! ## The volume direction -/

/-- The direction of a change. -/
def direction (q : ℚ) : ℤ := if 0 < q then 1 else if q < 0 then -1 else 0

/-- The rises less the falls in the last rows. -/
def balance (count : ℕ) (history : List PriceRow) : ℤ :=
  ((List.range count).map fun k => direction (move (history.drop k))).sum

theorem sign_fin (q : ℚ) : sign (fin q) = fin (direction q) := by
  unfold sign direction
  simp only [lt_fin, decide_eq_true_eq]
  split_ifs <;> simp

theorem direction_intCast (n : ℤ) : direction n = n.sign := by
  unfold direction
  rcases lt_trichotomy n 0 with negative | rfl | positive
  · rw [if_neg (by exact_mod_cast negative.le.not_gt), if_pos (by exact_mod_cast negative),
      Int.sign_eq_neg_one_of_neg negative]
  · rfl
  · rw [if_pos (by exact_mod_cast positive), Int.sign_eq_one_of_pos positive]

/-- A first row has no change, and counts as even. -/
theorem sign_diff_close (history : List PriceRow) :
    sign (diff close history) = fin (direction (move history)) := by
  match history with
  | [] => rfl
  | [row] => simp [diff, shift, move, direction, sign, lt]
  | row :: prev :: above => rw [diff_close_eq (by simp), sign_fin]

theorem buildObvDir_eq (history : List PriceRow) :
    buildObvDir 5 history =
      fin (if 5 ≤ history.length then (balance 5 history).sign else 0 : ℤ) := by
  rw [buildObvDir, apply]
  by_cases long : 5 ≤ history.length
  · have summed : (lastValues 5 (fun history => (direction (move history) : ℚ)) history).sum =
        (balance 5 history : ℤ) := by
      simp [lastValues, balance, List.range_succ]
    have window := rolling_eq 0 5 (s := apply sign (diff close))
      (fun history => (direction (move history) : ℚ))
      (fun history _ => sign_diff_close history) sum long
    rw [if_pos long, window, sum_map_fin, summed, sign_fin, direction_intCast]
  · rw [if_neg long, rolling, if_neg fun full => long full.1]
    rfl

theorem move_append {own : List PriceRow} (several : 2 ≤ own.length) (above : List PriceRow) :
    move (own ++ above) = move own := by
  match own with
  | row :: prev :: rest => rfl

/-- The changes within a history do not depend on rows above it. -/
theorem balance_append {count : ℕ} {own : List PriceRow} (long : count + 1 ≤ own.length)
    (above : List PriceRow) : balance count (own ++ above) = balance count own := by
  unfold balance
  congr 1
  refine List.map_congr_left fun k member => ?_
  have inside := List.mem_range.mp member
  rw [List.drop_append_of_le_length (by omega), move_append (by rw [List.length_drop]; omega)]

theorem balance_succ (count : ℕ) (history : List PriceRow) :
    balance (count + 1) history =
      balance count history + direction (move (history.drop count)) := by
  simp [balance, List.range_succ]

theorem direction_cases (q : ℚ) : direction q = 0 ∨ direction q = 1 ∨ direction q = -1 := by
  unfold direction
  split_ifs <;> simp

/-- One more direction keeps the sign of a sum exactly if it is none, goes with the sum, or is
outnumbered. -/
theorem sign_add_eq_iff {a d : ℤ} (unit : d = 0 ∨ d = 1 ∨ d = -1) :
    (a + d).sign = a.sign ↔ d = 0 ∨ 0 < a * d ∨ 2 ≤ |a| := by
  rcases unit with rfl | rfl | rfl
  · simp
  · rcases lt_trichotomy a 0 with negative | rfl | positive
    · rw [Int.sign_eq_neg_one_of_neg negative, Int.sign_eq_neg_one_iff_neg, abs_of_neg negative]
      omega
    · simp
    · rw [Int.sign_eq_one_of_pos positive, Int.sign_eq_one_iff_pos]
      omega
  · rcases lt_trichotomy a 0 with negative | rfl | positive
    · rw [Int.sign_eq_neg_one_of_neg negative, Int.sign_eq_neg_one_iff_neg]
      omega
    · simp
    · rw [Int.sign_eq_one_of_pos positive, Int.sign_eq_one_iff_pos, abs_of_pos positive]
      omega

/-- **What rows above do to the volume direction**: until the fifth row of its own a history has
none, at the fifth it has one change more, and then nothing. -/
theorem buildObvDir_append_iff (own : List PriceRow) {above : List PriceRow}
    (reaches : above ≠ []) :
    buildObvDir 5 (own ++ above) = buildObvDir 5 own ↔
      (own.length < 5 ∧ 5 ≤ (own ++ above).length → balance 5 (own ++ above) = 0) ∧
        (own.length = 5 → direction (move ((own ++ above).drop 4)) = 0 ∨
          0 < balance 4 (own ++ above) * direction (move ((own ++ above).drop 4)) ∨
            2 ≤ |balance 4 (own ++ above)|) := by
  have total : (own ++ above).length = own.length + above.length := List.length_append
  have more : 0 < above.length := List.length_pos_iff.mpr reaches
  rw [buildObvDir_eq, buildObvDir_eq, fin.injEq, Int.cast_inj]
  rcases lt_trichotomy own.length 5 with short | fifth | long
  · rw [if_neg (not_le.mpr short), and_iff_left fun same => absurd same short.ne]
    by_cases window : 5 ≤ (own ++ above).length
    · rw [if_pos window, Int.sign_eq_zero_iff_zero]
      exact ⟨fun even _ => even, fun even => even ⟨short, window⟩⟩
    · rw [if_neg window]
      exact iff_of_true rfl fun full => absurd full.2 window
  · have single : direction (move (own.drop 4)) = 0 := by
      obtain ⟨row, last⟩ := List.length_eq_one_iff.mp
        (show (own.drop 4).length = 1 by rw [List.length_drop]; omega)
      rw [last]
      rfl
    have inner : balance 5 own = balance 4 (own ++ above) := by
      rw [balance_succ, single, add_zero, balance_append (by omega)]
    rw [if_pos (by omega), if_pos fifth.ge, inner, balance_succ,
      sign_add_eq_iff (direction_cases _)]
    constructor
    · exact fun kept => ⟨fun full => absurd fifth full.1.ne, fun _ => kept⟩
    · exact fun both => both.2 fifth
  · rw [if_pos (by omega), if_pos long.le, balance_append long]
    exact iff_of_true rfl ⟨fun full => absurd full.1 long.not_gt, fun same => absurd same long.ne'⟩

/-! ## When the factors are separate -/

/-- The rows of the symbol in a history. -/
def ownRows (history : List PriceRow) : List PriceRow := own PriceRow.index Prod.fst history

/-- The rows of other symbols above them. -/
def otherRows (history : List PriceRow) : List PriceRow := others PriceRow.index Prod.fst history

/-- A window reaches above the rows of the symbol. -/
def Reaches (window : ℕ) (history : List PriceRow) : Prop :=
  (ownRows history).length < window ∧ window ≤ history.length

/-- At its fifth row a symbol has four changes of its own. The change from the row above decides the
direction, unless it is none, goes with the others, or is outnumbered. -/
def Outweighed (history : List PriceRow) : Prop :=
  direction (move (history.drop 4)) = 0 ∨
    0 < balance 4 history * direction (move (history.drop 4)) ∨ 2 ≤ |balance 4 history|

/-- The tables for which a factor does not mix symbols. -/
def Unmixed (rows : List PriceRow) : Factor → Prop
  | .ret1d => OneGroup PriceRow.symbol rows
  | .ret5d | .vol5d => OneGroup PriceRow.symbol rows ∨ rows.length < 6
  | .vol20d => OneGroup PriceRow.symbol rows ∨ rows.length < 21
  | .bbWidth => OneGroup PriceRow.symbol rows ∨ rows.length < 20
  | .rsi14 => ∀ history ∈ histories rows, Reaches 15 history →
      ∀ change ∈ lastValues 14 move history, 0 ≤ change
  | .bbPos => ∀ history ∈ histories rows, Reaches 20 history →
      ∀ price ∈ lastValues 20 closeOf history, price = closeOf history
  | .volRatio => ∀ history ∈ histories rows, Reaches 20 history →
      ∀ amount ∈ lastValues 20 volumeOf history, amount = 0
  | .macd => ∀ history ∈ histories rows, otherRows history ≠ [] →
      Cancels (ownRows history) (otherRows history)
  | .obvDir => ∀ history ∈ histories rows,
      (Reaches 5 history → balance 5 history = 0) ∧
        ((ownRows history).length = 5 → otherRows history ≠ [] → Outweighed history)

section Separate

variable {table : PriceTable}

/-- A series is separate exactly if no history depends on rows of other symbols. -/
theorem separate_iff_histories (s : PriceSeries) (table : PriceTable) :
    Separate s table.rows ↔ ∀ history ∈ histories table.rows, s history = s (ownRows history) :=
  separate_iff PriceRow.index Prod.fst nan table.indexed

theorem ownRows_ne_nil {history : List PriceRow} (member : history ∈ histories table.rows) :
    ownRows history ≠ [] := by
  obtain ⟨nonempty, -⟩ := mem_histories_iff.mp member
  cases history with
  | nil => exact absurd rfl nonempty
  | cons row above =>
      have inside : row ∈ ownRows (row :: above) := mem_own_iff.mpr ⟨List.mem_cons_self, rfl⟩
      exact List.ne_nil_of_mem inside

theorem separate_of_oneGroup (one : OneGroup PriceRow.symbol table.rows) (s : PriceSeries) :
    Separate s table.rows := by
  rw [separate_iff_histories]
  intro history member
  rw [ownRows, own_eq_of_oneGroup PriceRow.index Prod.fst one member]

/-- Below rows of one symbol, the first row of another one has a return and none of its own. -/
theorem oneGroup_of_separate_ret1d (separate : Separate buildRet1d table.rows) :
    OneGroup PriceRow.symbol table.rows := by
  rw [separate_iff_histories] at separate
  have alike : ∀ history : List PriceRow, history <:+ table.rows.reverse →
      OneGroup PriceRow.symbol history := by
    intro history
    induction history with
    | nil => exact fun _ => nofun
    | cons row above ih =>
        intro suffix
        have same := ih ((List.suffix_cons row above).trans suffix)
        have kept := separate (row :: above) (mem_histories_iff.mpr ⟨nofun, suffix⟩)
        have joins : ∀ other ∈ above, other.symbol = row.symbol := by
          intro other member
          by_contra foreign
          have none : ∀ x ∈ above, x.symbol ≠ row.symbol := fun x inside again =>
            foreign ((same other member x inside).trans again)
          have alone : ownRows (row :: above) = [row] :=
            own_append PriceRow.index Prod.fst (k := row.symbol) (List.cons_ne_nil row [])
              (by simp [PriceRow.index]) (by simpa [PriceRow.index] using none)
          have present := List.length_pos_of_mem member
          rw [alone] at kept
          exact pctChange_ne_nan 1 (by rw [List.length_cons]; omega)
            (kept.trans ((windowed_pctChange 1).short [row] (by simp)))
        have symbols : ∀ x ∈ row :: above, x.symbol = row.symbol := by
          intro x inside
          rcases List.mem_cons.mp inside with rfl | later
          · rfl
          · exact joins x later
        exact fun x inside y inside' => (symbols x inside).trans (symbols y inside').symm
  have whole := alike table.rows.reverse (List.suffix_refl _)
  exact fun x inside y inside' =>
    whole x (List.mem_reverse.mpr inside) y (List.mem_reverse.mpr inside')

variable (stacked : Stacked PriceRow.symbol table.rows)
include stacked

theorem ownRows_append_otherRows {history : List PriceRow}
    (member : history ∈ histories table.rows) : history = ownRows history ++ otherRows history :=
  own_append_others PriceRow.index Prod.fst stacked member

theorem separate_iff_of_windowed {window : ℕ} {s : PriceSeries}
    (windowed : ReadsWindow nan window s) :
    Separate s table.rows ↔
      ∀ history ∈ histories table.rows, Reaches window history → s history = nan := by
  rw [separate_iff_histories]
  exact separate_windowed_iff PriceRow.index Prod.fst stacked windowed

/-- A factor that has a value in every window is separate for one symbol, or without a window. -/
theorem separate_iff_of_present {window : ℕ} (wide : 2 ≤ window) {s : PriceSeries}
    (windowed : ReadsWindow nan window s)
    (present : ∀ history : List PriceRow, window ≤ history.length → s history ≠ nan) :
    Separate s table.rows ↔ OneGroup PriceRow.symbol table.rows ∨ table.rows.length < window := by
  rw [separate_iff_of_windowed stacked windowed]
  exact (forall_early_iff present).trans
    (forall_not_early_iff PriceRow.index Prod.fst wide stacked)

/-- A factor that is missing in some windows is separate if it is in those that reach above. -/
theorem separate_iff_of_missing {window : ℕ} {s : PriceSeries} (windowed : ReadsWindow nan window s)
    {quiet : List PriceRow → Prop}
    (missing : ∀ history : List PriceRow, window ≤ history.length →
      (s history = nan ↔ quiet history)) :
    Separate s table.rows ↔
      ∀ history ∈ histories table.rows, Reaches window history → quiet history := by
  rw [separate_iff_of_windowed stacked windowed]
  exact forall₂_congr fun history _ => forall_congr' fun reaches => missing history reaches.2

theorem separate_macd_iff :
    Separate (buildMacd 12 26) table.rows ↔ Unmixed table.rows .macd := by
  rw [separate_iff_histories]
  refine forall₂_congr fun history member => ?_
  have split := ownRows_append_otherRows stacked member
  have nonempty := ownRows_ne_nil member
  by_cases reaches : otherRows history = []
  · rw [reaches, List.append_nil] at split
    rw [← split]
    exact iff_of_true rfl fun above => absurd reaches above
  · conv_lhs => lhs; rw [split]
    rw [buildMacd_append_iff nonempty reaches]
    exact ⟨fun cancels _ => cancels, fun cancels => cancels reaches⟩

theorem separate_obvDir_iff :
    Separate (buildObvDir 5) table.rows ↔ Unmixed table.rows .obvDir := by
  rw [separate_iff_histories]
  refine forall₂_congr fun history member => ?_
  have split := ownRows_append_otherRows stacked member
  by_cases above : otherRows history = []
  · rw [above, List.append_nil] at split
    have whole : (ownRows history).length = history.length := congrArg List.length split.symm
    rw [← split]
    refine iff_of_true rfl ⟨fun reaches => ?_, fun _ some => absurd above some⟩
    obtain ⟨short, long⟩ := reaches
    omega
  · have pair := buildObvDir_append_iff (ownRows history) above
    rw [← split] at pair
    rw [pair]
    exact and_congr_right fun _ => forall_congr' fun _ =>
      ⟨fun kept _ => kept, fun kept => kept above⟩

/-- **For each factor, the tables that it does not mix.** -/
theorem separate_iff_unmixed {sqrt : ℚ → ℚ} (root : RootLike sqrt) (factor : Factor) :
    Separate (factor.builder sqrt) table.rows ↔ Unmixed table.rows factor := by
  cases factor with
  | ret1d =>
      refine (separate_iff_of_present stacked (by omega) (windowed_pctChange 1)
        fun _ => pctChange_ne_nan _).trans (or_iff_left_of_imp fun short => ?_)
      exact oneGroup_of_length_lt_two short
  | ret5d =>
      exact separate_iff_of_present stacked (by omega) (windowed_pctChange 5)
        fun _ => pctChange_ne_nan _
  | vol5d =>
      exact separate_iff_of_present stacked (by omega) (windowed_rollingVolatility sqrt (by omega))
        fun _ => rollingVolatility_ne_nan sqrt (by omega)
  | vol20d =>
      exact separate_iff_of_present stacked (by omega) (windowed_rollingVolatility sqrt (by omega))
        fun _ => rollingVolatility_ne_nan sqrt (by omega)
  | rsi14 =>
      exact separate_iff_of_missing stacked windowed_buildRsi14 fun _ => buildRsi14_eq_nan_iff
  | macd => exact separate_macd_iff stacked
  | bbWidth =>
      exact separate_iff_of_present stacked (by omega) (windowed_buildBbWidth sqrt 2)
        fun _ => buildBbWidth_ne_nan sqrt 2
  | bbPos =>
      exact separate_iff_of_missing stacked (windowed_buildBbPos sqrt 2)
        fun _ => buildBbPos_eq_nan_iff root
  | volRatio =>
      exact separate_iff_of_missing stacked windowed_buildVolRatio fun _ => buildVolRatio_eq_nan_iff
  | obvDir => exact separate_obvDir_iff stacked

end Separate

/-- **The factors are separate together exactly on tables of one symbol**, in any order of the rows,
and each of them, on a table that stacks its symbols, exactly as `Unmixed` says. -/
theorem factors_separate_iff {sqrt : ℚ → ℚ} (root : RootLike sqrt) (table : PriceTable) :
    ((∀ factor : Factor, Separate (factor.builder sqrt) table.rows) ↔
        OneGroup PriceRow.symbol table.rows) ∧
      (Stacked PriceRow.symbol table.rows →
        ∀ factor : Factor,
          Separate (factor.builder sqrt) table.rows ↔ Unmixed table.rows factor) := by
  refine ⟨⟨fun all => ?_, fun one factor => ?_⟩, fun stacked factor => ?_⟩
  · exact oneGroup_of_separate_ret1d (all .ret1d)
  · exact separate_of_oneGroup one _
  · exact separate_iff_unmixed stacked root factor

/-- The rows of two stocks, a day each. -/
def twoStocks : PriceTable where
  rows := [⟨"AAPL", 0, ⟨250, by norm_num⟩, ⟨40, by norm_num⟩⟩,
    ⟨"MSFT", 0, ⟨1000, by norm_num⟩, ⟨40, by norm_num⟩⟩]
  indexed := by decide

theorem rootLike_sqrt : RootLike Rat.sqrt := by
  intro q nonneg
  have den : Nat.sqrt q.den ≠ 0 := (Nat.sqrt_pos.mpr q.den_pos).ne'
  have num : 0 ≤ q.num := Rat.num_nonneg.mpr nonneg
  rw [Rat.sqrt, Rat.mkRat_eq_zero den, Int.sqrt, Int.natCast_eq_zero, Nat.sqrt_eq_zero,
    Int.toNat_eq_zero, ← Rat.num_eq_zero]
  omega

/-- The five-day return is too slow to mix two rows. -/
theorem factors_separate_two_stocks : Separate buildRet5d twoStocks.rows :=
  ((factors_separate_iff rootLike_sqrt twoStocks).2 ⟨by decide, by decide, trivial⟩ .ret5d).mpr
    (.inr (by decide))

/-- The first day of a stock gets a return from the last day of another one. -/
theorem ret1d_mixes_stocks :
    report buildRet1d twoStocks.rows = [(("MSFT", 0), fin 3)] ∧
      report buildRet1d (rowsOfSymbol "MSFT" twoStocks.rows) = [] := by
  with_unfolding_all decide

end TradeOS.Alpha
