import TradeOS.Strategy.PrefixStability

/-!
# When a strategy builder returns

A builder that accepts its parameters can still fail on its bars, in two places.

**Breakout.** The loop starts at the lookback period, and the window of volumes before its first
bar reaches back by the volume period. Where this is the longer one, the window starts before the
list and is empty, and its mean is a division by zero.

**Trend following.** The checks of the parameters read a missing period as its default, and so does
the guard; the moving averages read the key itself.

On bars with positive prices nothing else fails where the periods are integers, and the bundles are
cut to the unit interval when they are made.
-/

set_option autoImplicit false

namespace TradeOS.Strategy

open Numeric Indexing

/-! ## Bars and results -/

/-- Positive prices, and a volume that is not negative. -/
structure PriceBar.Sound (bar : PriceBar) : Prop where
  high : 0 < bar.high
  low : 0 < bar.low
  close : 0 < bar.close
  volume : 0 ≤ bar.volume

/-- An emission returns bundles whose strengths and confidences are in the unit interval. -/
def Emission.ReturnsBounded (emission : Emission) : Prop :=
  ∃ bundles, emission.result = .ok bundles ∧
    ∀ bundle ∈ bundles, InUnit bundle.strength.val ∧ InUnit bundle.confidence.val

theorem returnsBounded_iff {emission : Emission} :
    emission.ReturnsBounded ↔ emission.2 = none := by
  unfold Emission.ReturnsBounded Emission.result
  cases emission.2 with
  | none =>
      exact iff_of_true ⟨_, rfl, fun bundle _ => ⟨bundle.strength.property,
        bundle.confidence.property⟩⟩ rfl
  | some error => exact iff_of_false (fun ⟨_, absurdity, _⟩ => nomatch absurdity) nofun

theorem returnsBounded_emit_iff {body : ℤ → Except BuilderError (Option BuilderBundle)}
    {start stop : ℤ} :
    Emission.ReturnsBounded (emit body (range start stop)) ↔
      ∀ i, start ≤ i → i < stop → ∃ yielded, body i = .ok yielded := by
  rw [returnsBounded_iff, emit_ends_iff]
  constructor
  · intro total i lower upper
    exact total i (mem_range_iff.mpr ⟨lower, upper⟩)
  · intro total i member
    exact total i (mem_range_iff.mp member).1 (mem_range_iff.mp member).2

/-! ## Parts of the loops -/

section Parts

variable {data : List PriceBar}

theorem exists_sound (sound : ∀ bar ∈ data, bar.Sound) (i : ℤ) (lower : -data.length ≤ i)
    (inside : i < data.length) : ∃ bar, readItem data i = .ok bar ∧ bar.Sound := by
  obtain ⟨bar, member, found⟩ := item_eq_some data i lower inside
  exact ⟨bar, by rw [readItem, found], sound bar member⟩

theorem exists_averageVolume {window : List PriceBar} (nonempty : window ≠ []) :
    ∃ average, averageVolume window = .ok average := by
  have bars : (window.length : ℚ) ≠ 0 := Nat.cast_ne_zero.mpr (List.length_pos_iff.mpr nonempty).ne'
  exact ⟨_, quotient_eq bars⟩

theorem slice_ne_nil (start stop : ℤ) (nonneg : 0 ≤ start) (ordered : start < stop)
    (inside : stop ≤ data.length) : slice data start stop ≠ [] := by
  have length := length_slice data start stop nonneg ordered.le inside
  intro empty
  rw [empty, List.length_nil] at length
  omega

/-- The largest and the smallest of positive numbers are positive. -/
theorem exists_extreme (choose : ℚ → ℚ → ℚ) (keeps : ∀ a b, 0 < a → 0 < b → 0 < choose a b)
    {xs : List ℚ} (nonempty : xs ≠ []) (positive : ∀ x ∈ xs, 0 < x) :
    ∃ value, BreakoutParams.extreme choose xs = .ok value ∧ 0 < value := by
  cases xs with
  | nil => exact absurd rfl nonempty
  | cons x rest =>
      refine ⟨rest.foldl choose x, rfl, ?_⟩
      have first := positive x List.mem_cons_self
      have later := fun y member => positive y (List.mem_cons_of_mem x member)
      clear nonempty positive
      induction rest generalizing x with
      | nil => exact first
      | cons y rest ih =>
          exact ih (choose x y) (keeps x y first (later y List.mem_cons_self))
            fun z member => later z (List.mem_cons_of_mem y member)

end Parts

/-! ## Reversal -/

namespace ReversalParams

variable {params : ReversalParams} {data : List PriceBar} {symbol : String}

theorem exists_reaction (accepted : params.validateParams) (ret : ℚ) :
    ∃ reacted, params.reaction ret = .ok reacted := by
  obtain ⟨-, lt, st, -⟩ := of_decide_eq_true accepted
  unfold reaction
  split_ifs
  · simp only [bind, Except.bind, quotient_eq (abs_pos.mpr lt.ne).ne']
    exact ⟨_, rfl⟩
  · simp only [bind, Except.bind, quotient_eq (abs_pos.mpr st.ne').ne']
    exact ⟨_, rfl⟩
  · exact ⟨_, rfl⟩

/-- A bar of the loop: where the return period is the longer one, the earlier bar may be counted
from the end of the list. -/
theorem exists_signalAt (accepted : params.validateParams) (sound : ∀ bar ∈ data, bar.Sound)
    (enough : params.guard ≤ data.length) {i : ℤ} (reached : params.volPeriod ≤ i)
    (inside : i < data.length) : ∃ yielded, params.signalAt symbol data i = .ok yielded := by
  obtain ⟨period, -, -, volPeriod⟩ := of_decide_eq_true accepted
  unfold guard at enough
  obtain ⟨bar, now, -⟩ := exists_sound sound i (by omega) inside
  obtain ⟨earlier, before, positive⟩ := exists_sound sound (i - params.period) (by omega) (by omega)
  obtain ⟨reacted, reaction⟩ :=
    exists_reaction accepted ((bar.close - earlier.close) / earlier.close)
  obtain ⟨average, volumes⟩ := exists_averageVolume
    (slice_ne_nil (i - params.volPeriod) i (by omega) (by omega) inside.le)
  rw [signalAt, now, before]
  simp only [bind, Except.bind, quotient_eq positive.close.ne', reaction]
  cases reacted with
  | none => exact ⟨none, rfl⟩
  | some found =>
      simp only [volumes]
      exact ⟨_, rfl⟩

theorem returnsBounded (accepted : params.validateParams) (sound : ∀ bar ∈ data, bar.Sound) :
    (params.emission symbol data).ReturnsBounded := by
  unfold emission
  split_ifs with short
  · exact returnsBounded_iff.mpr rfl
  · exact returnsBounded_emit_iff.mpr fun i => exists_signalAt accepted sound (not_lt.mp short)

end ReversalParams

/-! ## Breakout -/

namespace BreakoutParams

variable {params : BreakoutParams} {data : List PriceBar} {symbol : String}

theorem exists_penetration {close periodHigh : ℚ} (positive : 0 < close)
    (positive' : 0 < periodHigh) (periodLow : ℚ) (volConfirmed : Bool) :
    ∃ found, penetration close periodHigh periodLow volConfirmed = .ok found := by
  unfold penetration
  simp only [bind, Except.bind, quotient_eq positive.ne', quotient_eq positive'.ne']
  split_ifs <;> exact ⟨_, rfl⟩

/-- The range of the window before a bar of the loop. -/
theorem exists_range (accepted : params.validateParams) (sound : ∀ bar ∈ data, bar.Sound) {i : ℤ}
    (reached : params.lookback ≤ i) (inside : i < data.length) :
    ∃ high low, 0 < high ∧
      extreme max ((slice data (i - params.lookback) i).map PriceBar.high) = .ok high ∧
      extreme min ((slice data (i - params.lookback) i).map PriceBar.low) = .ok low := by
  obtain ⟨lookback, -, -⟩ := of_decide_eq_true accepted
  have nonempty : slice data (i - params.lookback) i ≠ [] :=
    slice_ne_nil _ _ (by omega) (by omega) inside.le
  have bars : ∀ bar ∈ slice data (i - params.lookback) i, bar.Sound :=
    fun bar member => sound bar (List.mem_of_mem_take (List.mem_of_mem_drop member))
  obtain ⟨high, highest, positive⟩ := exists_extreme max
    (fun a b first _ => lt_max_of_lt_left first) (by simpa using nonempty)
    (List.forall_mem_map.mpr fun bar member => (bars bar member).high)
  obtain ⟨low, lowest, -⟩ := exists_extreme min
    (fun a b first second => lt_min first second) (by simpa using nonempty)
    (List.forall_mem_map.mpr fun bar member => (bars bar member).low)
  exact ⟨high, low, positive, highest, lowest⟩

/-- A bar of the loop whose window of volumes is in the list. -/
theorem exists_signalAt (accepted : params.validateParams) (sound : ∀ bar ∈ data, bar.Sound)
    {i : ℤ} (reached : params.lookback ≤ i) (inside : i < data.length)
    (within : params.volPeriod ≤ i) : ∃ yielded, params.signalAt symbol data i = .ok yielded := by
  obtain ⟨-, volPeriod, -⟩ := of_decide_eq_true accepted
  obtain ⟨high, low, positive, highest, lowest⟩ := exists_range accepted sound reached inside
  obtain ⟨bar, now, here⟩ := exists_sound sound i (by omega) inside
  obtain ⟨average, volumes⟩ := exists_averageVolume
    (slice_ne_nil (i - params.volPeriod) i (by omega) (by omega) inside.le)
  obtain ⟨found, penetrated⟩ := exists_penetration here.close positive low
    (decide (0 < average ∧ average * params.volThreshold < bar.volume))
  simp only [signalAt, highest, lowest, now, volumes, bind, Except.bind, penetrated]
  cases found with
  | none => exact ⟨none, rfl⟩
  | some found => exact ⟨_, rfl⟩

/-- Where the volume period is the longer one, the window of the first bar is empty. -/
theorem signalAt_first (accepted : params.validateParams) (sound : ∀ bar ∈ data, bar.Sound)
    (enough : params.guard ≤ data.length) (beyond : params.lookback < params.volPeriod) :
    params.signalAt symbol data params.lookback = .error .zeroDivision := by
  obtain ⟨lookback, volPeriod, -⟩ := of_decide_eq_true accepted
  unfold guard at enough
  obtain ⟨high, low, -, highest, lowest⟩ := exists_range accepted sound le_rfl (by omega)
  obtain ⟨bar, now, -⟩ := exists_sound sound params.lookback (by omega) (by omega)
  have empty : slice data (params.lookback - params.volPeriod) params.lookback = [] := by
    refine slice_eq_nil ?_
    rw [bound, bound, if_pos (by omega), if_neg (by omega)]
    omega
  simp only [signalAt, highest, lowest, now, empty, bind, Except.bind]
  rfl

theorem returnsBounded_iff (accepted : params.validateParams)
    (sound : ∀ bar ∈ data, bar.Sound) :
    (params.emission symbol data).ReturnsBounded ↔
      (params.guard ≤ data.length → params.volPeriod ≤ params.lookback) := by
  unfold emission
  split_ifs with short
  · exact iff_of_true (Strategy.returnsBounded_iff.mpr rfl) fun enough => absurd short enough.not_gt
  · have enough := not_lt.mp short
    rw [returnsBounded_emit_iff, imp_iff_right enough]
    constructor
    · intro total
      by_contra beyond
      have first := total params.lookback le_rfl (by
        obtain ⟨-, volPeriod, -⟩ := of_decide_eq_true accepted
        unfold guard at enough
        omega)
      rw [signalAt_first accepted sound enough (not_le.mp beyond)] at first
      obtain ⟨_, absurdity⟩ := first
      cases absurdity
    · intro within i reached inside
      exact exists_signalAt accepted sound reached inside (within.trans reached)

end BreakoutParams

/-! ## Mean reversion -/

namespace MeanReversionParams

variable {params : MeanReversionParams} {data : List PriceBar} {symbol : String}

theorem exists_reaction (accepted : params.validateParams) (rsi : ℚ) (signal : ℤ) :
    ∃ reacted, params.reaction rsi signal = .ok reacted := by
  obtain ⟨-, oversold, -, overbought, -⟩ := of_decide_eq_true accepted
  unfold reaction
  simp only [bind, Except.bind, quotient_eq oversold.ne', quotient_eq (sub_pos.mpr overbought).ne']
  split_ifs <;> exact ⟨_, rfl⟩

theorem returnsBounded (accepted : params.validateParams) (root : ℚ → ℚ)
    (sound : ∀ bar ∈ data, bar.Sound) : (params.emission root symbol data).ReturnsBounded := by
  obtain ⟨-, -, -, -, bbPeriod⟩ := of_decide_eq_true accepted
  obtain ⟨rsi, bands, indicated, rsiMade, bandsMade⟩ := exists_indicators root accepted data
  unfold emission
  rw [indicated]
  split_ifs with short
  · exact returnsBounded_iff.mpr rfl
  · refine returnsBounded_emit_iff.mpr fun i reached inside => ?_
    obtain ⟨index, readIndex, -⟩ := item_of_mapM rsiMade (by omega) inside
    obtain ⟨band, readBand, -⟩ := item_of_mapM bandsMade (by omega) inside
    obtain ⟨bar, now, -⟩ := exists_sound sound i (by omega) inside
    obtain ⟨reacted, reaction⟩ := exists_reaction accepted index (bbSignal band bar.close)
    simp only [signalAt, readItem, readIndex, readBand, bind, Except.bind] at now ⊢
    simp only [now, reaction]
    cases reacted with
    | none => exact ⟨none, rfl⟩
    | some found => exact ⟨_, rfl⟩

end MeanReversionParams

/-! ## Trend following -/

namespace TrendParams

variable {params : TrendParams} {data : List PriceBar} {symbol : String}

theorem exists_momentumStrength (accepted : params.validateParams)
    (sound : ∀ bar ∈ data, bar.Sound) (direction : Direction) {i : ℤ} (inside : i < data.length) :
    ∃ strength, params.momentumStrength data direction i = .ok strength := by
  obtain ⟨-, -, window⟩ := of_decide_eq_true accepted
  by_cases far : params.momentumWindow.getD 20 ≤ i
  · obtain ⟨bar, now, -⟩ := exists_sound sound i (by omega) inside
    obtain ⟨earlier, before, positive⟩ :=
      exists_sound sound (i - params.momentumWindow.getD 20) (by omega) (by omega)
    simp only [momentumStrength, if_pos far, now, before, bind, Except.bind,
      quotient_eq positive.close.ne']
    split_ifs <;> exact ⟨_, rfl⟩
  · simp only [momentumStrength, if_neg far]
    exact ⟨_, rfl⟩

/-- The averages of two periods cross at a position. -/
def CrossesAt (data : List PriceBar) (short long i : ℤ) (direction : Direction) : Prop :=
  ∃ prevShort prevLong currShort currLong,
    maAt data short (i - 1) = .ok prevShort ∧ maAt data long (i - 1) = .ok prevLong ∧
      maAt data short i = .ok currShort ∧ maAt data long i = .ok currLong ∧
        crossing prevShort prevLong currShort currLong = some direction

/-- At a position of the loop the averages are read, and the body returns if and only if a cross
behind the long period has a strength. -/
theorem exists_signalWith_iff {short long : ℤ} (positive : 1 < short) (ordered : short < long)
    (key : params.longMaPeriod = some long) {shortMa longMa : List Extended}
    (shortMade : computeMa data short = .ok shortMa) (longMade : computeMa data long = .ok longMa)
    (strengthOf : Direction → ℤ → Except BuilderError ℚ) {i : ℤ} (reached : 1 ≤ i)
    (inside : i < data.length) :
    (∃ yielded, params.signalWith strengthOf symbol data shortMa longMa i = .ok yielded) ↔
      ∀ direction, long ≤ i → CrossesAt data short long i direction →
        ∃ strength, strengthOf direction i = .ok strength := by
  obtain ⟨bar, -, found⟩ := item_eq_some data i (by omega) inside
  have now : readItem data i = .ok bar := by rw [readItem, found]
  have shorts : ∀ j, ∃ ma, maAt data short j = .ok ma := fun j => exists_maAt (by omega)
  have longs : ∀ j, ∃ ma, maAt data long j = .ok ma := fun j => exists_maAt (by omega)
  obtain ⟨prevShort, shortBefore⟩ := shorts (i - 1)
  obtain ⟨prevLong, longBefore⟩ := longs (i - 1)
  obtain ⟨currShort, shortNow⟩ := shorts i
  obtain ⟨currLong, longNow⟩ := longs i
  have crosses : ∀ direction, CrossesAt data short long i direction ↔
      crossing prevShort prevLong currShort currLong = some direction := by
    intro direction
    constructor
    · rintro ⟨a, b, c, d, first, second, third, fourth, crossed⟩
      rw [shortBefore] at first
      rw [longBefore] at second
      rw [shortNow] at third
      rw [longNow] at fourth
      cases first
      cases second
      cases third
      cases fourth
      exact crossed
    · exact fun crossed => ⟨_, _, _, _, shortBefore, longBefore, shortNow, longNow, crossed⟩
  simp only [signalWith, key, required, bind, Except.bind,
    readItem_of_mapM shortMade (show 0 ≤ i - 1 by omega) (show i - 1 < data.length by omega),
    readItem_of_mapM longMade (show 0 ≤ i - 1 by omega) (show i - 1 < data.length by omega),
    readItem_of_mapM shortMade (show 0 ≤ i by omega) inside,
    readItem_of_mapM longMade (show 0 ≤ i by omega) inside, shortBefore, longBefore, shortNow,
    longNow, crosses]
  by_cases early : i < long
  · rw [if_pos early]
    exact iff_of_true ⟨none, rfl⟩ fun _ late => absurd early late.not_gt
  · rw [if_neg early]
    cases crossing prevShort prevLong currShort currLong with
    | none =>
        refine iff_of_true ⟨none, rfl⟩ fun _ _ crossed => ?_
        cases crossed
    | some side =>
        constructor
        · rintro ⟨yielded, returned⟩ direction - same
          cases same
          cases found : strengthOf side i with
          | ok strength => exact ⟨strength, rfl⟩
          | error error =>
              simp only [found] at returned
              cases returned
        · intro strong
          obtain ⟨strength, found⟩ := strong side (not_lt.mp early) rfl
          simp only [found, now]
          exact ⟨_, rfl⟩

/-- The loop over averages that were computed returns if and only if each cross behind the long
period has a strength. -/
theorem returnsBounded_loop_iff {short long : ℤ} (positive : 1 < short) (ordered : short < long)
    (key : params.longMaPeriod = some long) {shortMa longMa : List Extended}
    (shortMade : computeMa data short = .ok shortMa) (longMade : computeMa data long = .ok longMa)
    (strengthOf : Direction → ℤ → Except BuilderError ℚ) :
    Emission.ReturnsBounded (emit (params.signalWith strengthOf symbol data shortMa longMa)
        (range 1 data.length)) ↔
      ∀ i direction, long ≤ i → i < data.length → CrossesAt data short long i direction →
        ∃ strength, strengthOf direction i = .ok strength := by
  rw [returnsBounded_emit_iff]
  constructor
  · intro total i direction late inside
    exact (exists_signalWith_iff positive ordered key shortMade longMade strengthOf (by omega)
      inside).mp (total i (by omega) inside) direction late
  · intro strong i reached inside
    exact (exists_signalWith_iff positive ordered key shortMade longMade strengthOf reached
      inside).mpr fun direction late => strong i direction late inside

theorem returnsBounded_iff (accepted : params.validateParams)
    (sound : ∀ bar ∈ data, bar.Sound) :
    (params.emission symbol data).ReturnsBounded ↔
      (params.guard ≤ data.length → params.shortMaPeriod.isSome ∧ params.longMaPeriod.isSome) := by
  unfold emission
  split_ifs with guarded
  · exact iff_of_true (Strategy.returnsBounded_iff.mpr rfl)
      fun enough => absurd guarded enough.not_gt
  · rw [imp_iff_right (not_lt.mp guarded)]
    rcases averages_cases accepted with
      ⟨missing, error, fails⟩ | ⟨short, long, positive, ordered, key, key', made⟩
    · rw [fails, loopAfter, Strategy.returnsBounded_iff]
      refine iff_of_false (Option.some_ne_none error) fun both => ?_
      rcases missing with absent | absent
      · rw [absent] at both
        exact absurd both.1 Bool.false_ne_true
      · rw [absent] at both
        exact absurd both.2 Bool.false_ne_true
    · obtain ⟨shortMa, longMa, computed, shortMade, longMade⟩ := made data
      rw [computed, loopAfter]
      refine iff_of_true ?_ ⟨by rw [key]; rfl, by rw [key']; rfl⟩
      exact (returnsBounded_loop_iff positive ordered key' shortMade longMade _).mpr
        fun i direction _ inside _ => exists_momentumStrength accepted sound direction inside

end TrendParams

/-! ## Bars at one price -/

/-- Bars at a price of one. -/
def onePrice (n : ℕ) : List PriceBar := List.replicate n ⟨1, 1, 1, 0⟩

theorem onePrice_sound (n : ℕ) : ∀ bar ∈ onePrice n, bar.Sound := by
  intro bar member
  rw [List.eq_of_mem_replicate member]
  exact ⟨one_pos, one_pos, one_pos, le_rfl⟩

end TradeOS.Strategy
