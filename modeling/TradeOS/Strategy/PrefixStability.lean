import TradeOS.Strategy.Builders
import Mathlib.Algebra.Order.BigOperators.Group.List

/-!
# What a strategy builder reads of later bars

A builder that reads only bars up to the one that it decides on emits the same for a bar however
many bars follow. Three of the four builders do so for all parameters that they accept. The loop
of the reversal strategy starts at the volume period, and its return looks back by the return
period: where the return period is the longer one, the index of the earlier bar is negative, and
Python counts it from the end of the list.

So the bundles that a builder emits for the bars of a list are the ones that it emits for them in
every extension of the list, unless it is a reversal strategy with a return period above its
volume period (`prefixStable_iff`).
-/

set_option autoImplicit false

namespace TradeOS.Strategy

open Numeric Indexing

/-! ## Builders -/

/-- A builder with the dict that it was given. -/
inductive Builder where
  | trend (given : Option TrendParams)
  | meanReversion (params : MeanReversionParams)
  | breakout (params : BreakoutParams)
  | reversal (params : ReversalParams)

namespace Builder

/-- `validate_params` of the dict. -/
def accepts : Builder → Bool
  | trend given => (given.getD {}).validateParams
  | meanReversion params => params.validateParams
  | breakout params => params.validateParams
  | reversal params => params.validateParams

/-- The length that the builder's guard asks for. -/
def guard : Builder → ℤ
  | trend given => (trendParams given).guard
  | meanReversion params => params.guard
  | breakout params => params.guard
  | reversal params => params.guard

/-- What `generate_signals` appends, and the error that ends it. -/
def emission (builder : Builder) (root : ℚ → ℚ) (symbol : String) (data : List PriceBar) :
    Emission :=
  match builder with
  | trend given => (trendParams given).emission symbol data
  | meanReversion params => params.emission root symbol data
  | breakout params => params.emission symbol data
  | reversal params => params.emission symbol data

/-- The first bars that the loop reaches look back beyond the start of the list. -/
def LooksBeyondStart : Builder → Prop
  | reversal params => params.volPeriod < params.period
  | _ => False

end Builder

/-- What is emitted for the bars of a list is the same in an extension of it, and an error there is
an error of the extension. -/
def PrefixStable (emission : List PriceBar → Emission) (xs ys : List PriceBar) : Prop :=
  (emission (xs ++ ys)).1.filter (fun entry : ℤ × BuilderBundle => entry.1 < xs.length) =
      (emission xs).1 ∧
    ∀ error, (emission xs).2 = some error → (emission (xs ++ ys)).2 = some error

/-- Where `generate_signals` returns on an extension, it returns on the list, and what it returns
are the bundles for the bars of the list. -/
theorem PrefixStable.result {emission : List PriceBar → Emission} {xs ys : List PriceBar}
    (stable : PrefixStable emission xs ys) {whole : List BuilderBundle}
    (returned : (emission (xs ++ ys)).result = .ok whole) :
    (emission xs).result =
      .ok (((emission (xs ++ ys)).1.filter fun entry : ℤ × BuilderBundle =>
        entry.1 < xs.length).map Prod.snd) := by
  rw [stable.1]
  unfold Emission.result at returned ⊢
  cases stopped : (emission xs).2 with
  | none => rfl
  | some error =>
      rw [stable.2 error stopped] at returned
      cases returned

/-! ## Reading bars up to a position -/

section Reads

variable {xs : List PriceBar} (ys : List PriceBar)

theorem readItem_append_left {i : ℤ} (nonneg : 0 ≤ i) (inside : i < xs.length) :
    readItem (xs ++ ys) i = readItem xs i := by
  rw [readItem, readItem, item_append_left ys nonneg inside]

theorem exists_readItem (xs : List PriceBar) (i : ℤ) (nonneg : 0 ≤ i) (inside : i < xs.length) :
    ∃ bar, readItem xs i = .ok bar := by
  obtain ⟨bar, -, found⟩ := item_eq_some xs i (by omega) inside
  exact ⟨bar, by rw [readItem, found]⟩

theorem length_le_length_append (xs ys : List PriceBar) :
    (xs.length : ℤ) ≤ (xs ++ ys).length := by
  rw [List.length_append]
  omega

/-- A table over the positions of a list, read at a position. -/
theorem readItem_of_mapM {α : Type} {f : ℤ → Except BuilderError α} {n : ℕ} {table : List α}
    (made : (range 0 n).mapM f = .ok table) {i : ℤ} (nonneg : 0 ≤ i) (inside : i < n) :
    readItem table i = f i := by
  obtain ⟨entry, found, computed⟩ := item_of_mapM made nonneg inside
  rw [readItem, found, computed]

/-- Two tables whose entries agree up to a position are read there alike. -/
theorem readItem_tables {α : Type} {f g : ℤ → Except BuilderError α} {n : ℕ} {whole short : List α}
    (longer : xs.length ≤ n) (made : (range 0 n).mapM f = .ok whole)
    (madeShort : (range 0 xs.length).mapM g = .ok short)
    (same : ∀ i : ℤ, 0 ≤ i → i < xs.length → f i = g i) {i : ℤ} (nonneg : 0 ≤ i)
    (inside : i < xs.length) : readItem whole i = readItem short i := by
  rw [readItem_of_mapM made nonneg (by omega), readItem_of_mapM madeShort nonneg inside]
  exact same i nonneg inside

end Reads

/-- A builder whose loop body reads a bar as it does in every extension is stable. -/
theorem prefixStable_of_bodies {xs ys : List PriceBar} {emission : List PriceBar → Emission}
    {start : ℤ} (body other : ℤ → Except BuilderError (Option BuilderBundle))
    (whole : emission (xs ++ ys) = emit body (range start (xs ++ ys).length))
    (short : emission xs = emit other (range start xs.length)) (started : start ≤ xs.length)
    (same : ∀ i, start ≤ i → i < xs.length → body i = other i) :
    PrefixStable emission xs ys := by
  rw [PrefixStable, whole, short]
  exact emit_prefix same started (length_le_length_append xs ys)

theorem not_lt_of_guard {guard : ℤ} {xs : List PriceBar} (enough : guard ≤ xs.length)
    (ys : List PriceBar) : ¬ ((xs ++ ys).length : ℤ) < guard :=
  not_lt.mpr (enough.trans (length_le_length_append xs ys))

/-! ## Reversal -/

namespace ReversalParams

variable {params : ReversalParams} {xs : List PriceBar} (ys : List PriceBar) (symbol : String)

theorem signalAt_append (forward : 0 ≤ params.period) (within : params.period ≤ params.volPeriod)
    {i : ℤ} (reached : params.volPeriod ≤ i) (inside : i < xs.length) :
    params.signalAt symbol (xs ++ ys) i = params.signalAt symbol xs i := by
  have bar := readItem_append_left ys (by omega) inside
  have earlier : readItem (xs ++ ys) (i - params.period) = readItem xs (i - params.period) :=
    readItem_append_left ys (by omega) (by omega)
  have volumes : slice (xs ++ ys) (i - params.volPeriod) i = slice xs (i - params.volPeriod) i :=
    slice_append_left ys (by omega) inside.le (by omega)
  simp only [signalAt, bar, earlier, volumes]

theorem prefixStable (accepted : params.validateParams) (enough : params.guard ≤ xs.length)
    (within : params.period ≤ params.volPeriod) :
    PrefixStable (params.emission symbol) xs ys := by
  obtain ⟨period, -⟩ := of_decide_eq_true accepted
  have started : params.volPeriod ≤ xs.length := by
    unfold guard at enough
    omega
  refine prefixStable_of_bodies _ _ (if_neg (not_lt_of_guard enough ys)) (if_neg (not_lt.mpr enough))
    started fun i reached inside => ?_
  exact signalAt_append ys symbol (by omega) within reached inside

end ReversalParams

/-! ## Breakout -/

namespace BreakoutParams

variable {params : BreakoutParams} {xs : List PriceBar} (ys : List PriceBar) (symbol : String)

/-- The window of volumes is the same bars in an extension. Where it would start before the list,
it is empty in both. -/
theorem volumeWindow_append (enough : params.guard ≤ xs.length) {i : ℤ}
    (nonneg : 0 ≤ params.lookback) (reached : params.lookback ≤ i) (inside : i < xs.length) :
    slice (xs ++ ys) (i - params.volPeriod) i = slice xs (i - params.volPeriod) i := by
  by_cases early : i < params.volPeriod
  · have behind : ∀ length : ℕ, (xs.length : ℤ) ≤ length →
        bound length i ≤ bound length (i - params.volPeriod) := by
      intro length longer
      unfold guard at enough
      rw [bound, bound, if_pos (nonneg.trans reached), if_neg (by omega)]
      omega
    rw [slice_eq_nil (behind _ (length_le_length_append xs ys)), slice_eq_nil (behind _ le_rfl)]
  · exact slice_append_left ys (by omega) inside.le (nonneg.trans reached)

theorem signalAt_append (enough : params.guard ≤ xs.length) {i : ℤ}
    (nonneg : 0 ≤ params.lookback) (reached : params.lookback ≤ i) (inside : i < xs.length) :
    params.signalAt symbol (xs ++ ys) i = params.signalAt symbol xs i := by
  have window : slice (xs ++ ys) (i - params.lookback) i = slice xs (i - params.lookback) i :=
    slice_append_left ys (by omega) inside.le (nonneg.trans reached)
  have volumes := volumeWindow_append ys enough nonneg reached inside
  have bar := readItem_append_left ys (nonneg.trans reached) inside
  simp only [signalAt, window, volumes, bar]

theorem prefixStable (accepted : params.validateParams) (enough : params.guard ≤ xs.length) :
    PrefixStable (params.emission symbol) xs ys := by
  obtain ⟨lookback, volume, -⟩ := of_decide_eq_true accepted
  have started : params.lookback ≤ xs.length := by
    unfold guard at enough
    omega
  refine prefixStable_of_bodies _ _ (if_neg (not_lt_of_guard enough ys)) (if_neg (not_lt.mpr enough))
    started fun i reached inside => ?_
  exact signalAt_append ys symbol enough (by omega) reached inside

end BreakoutParams

/-! ## Tables computed ahead of the loop -/

theorem quotient_eq {a b : ℚ} (nonzero : b ≠ 0) : quotient a b = .ok (a / b) := if_neg nonzero

theorem gains_nonneg (changes : List ℚ) : 0 ≤ gains changes := by
  refine List.sum_nonneg fun change member => ?_
  exact (of_decide_eq_true (List.mem_filter.mp member).2).le

theorem losses_nonneg (changes : List ℚ) : 0 ≤ losses changes := by
  refine List.sum_nonneg fun loss member => ?_
  obtain ⟨change, -, rfl⟩ := List.mem_map.mp member
  exact abs_nonneg change

theorem exists_strengthIndex (changes : List ℚ) {period : ℤ} (positive : 0 < period) :
    ∃ rsi, strengthIndex changes period = .ok rsi := by
  have scale : (0 : ℚ) < period := by exact_mod_cast positive
  simp only [strengthIndex, bind, Except.bind, quotient_eq scale.ne']
  split_ifs with still
  · exact ⟨100, rfl⟩
  · have ratio : 0 ≤ gains changes / period / (losses changes / period) :=
      div_nonneg (div_nonneg (gains_nonneg changes) scale.le)
        (div_nonneg (losses_nonneg changes) scale.le)
    have shifted : 1 + gains changes / period / (losses changes / period) ≠ 0 :=
      (add_pos_of_pos_of_nonneg one_pos ratio).ne'
    simp only [quotient_eq still, quotient_eq shifted]
    exact ⟨_, rfl⟩

section Tables

variable {xs : List PriceBar} (ys : List PriceBar) {period i : ℤ}

theorem exists_rsiAt (positive : 0 < period) (inside : i < xs.length) :
    ∃ rsi, rsiAt xs period i = .ok rsi := by
  unfold rsiAt
  split_ifs with early
  · exact ⟨50, rfl⟩
  · have total : ∀ j ∈ range (i - period + 1) (i + 1), ∃ change, changeAt xs j = .ok change := by
      intro j member
      obtain ⟨lower, upper⟩ := mem_range_iff.mp member
      obtain ⟨bar, now⟩ := exists_readItem xs j (by omega) (by omega)
      obtain ⟨previous, before⟩ := exists_readItem xs (j - 1) (by omega) (by omega)
      exact ⟨bar.close - previous.close, by rw [changeAt, now, before]; rfl⟩
    obtain ⟨changes, computed⟩ := mapM_total total
    rw [computed]
    exact exists_strengthIndex changes positive

theorem rsiAt_append (inside : i < xs.length) :
    rsiAt (xs ++ ys) period i = rsiAt xs period i := by
  unfold rsiAt
  split_ifs with early
  · rfl
  · have changes : (range (i - period + 1) (i + 1)).mapM (changeAt (xs ++ ys)) =
        (range (i - period + 1) (i + 1)).mapM (changeAt xs) := by
      refine mapM_congr fun j member => ?_
      obtain ⟨lower, upper⟩ := mem_range_iff.mp member
      rw [changeAt, changeAt, readItem_append_left ys (by omega) (by omega),
        readItem_append_left ys (by omega) (by omega)]
    rw [changes]

theorem exists_bandAt (root : ℚ → ℚ) (stdMult : ℚ) (positive : 0 < period) :
    ∃ band, bandAt root xs period stdMult i = .ok band := by
  have nonzero : (period : ℚ) ≠ 0 := by exact_mod_cast positive.ne'
  unfold bandAt
  split_ifs
  · exact ⟨_, rfl⟩
  · simp only [bind, Except.bind, quotient_eq nonzero]
    exact ⟨_, rfl⟩

theorem window_append (early : ¬ i < period - 1) (nonneg : 0 ≤ i) (inside : i < xs.length) :
    slice (xs ++ ys) (i - period + 1) (i + 1) = slice xs (i - period + 1) (i + 1) :=
  slice_append_left ys (by omega) (by omega) (by omega)

theorem bandAt_append (root : ℚ → ℚ) (stdMult : ℚ) (nonneg : 0 ≤ i) (inside : i < xs.length) :
    bandAt root (xs ++ ys) period stdMult i = bandAt root xs period stdMult i := by
  unfold bandAt
  split_ifs with early
  · rfl
  · rw [window_append ys early nonneg inside]

theorem exists_maAt (positive : 0 < period) : ∃ ma, maAt xs period i = .ok ma := by
  have nonzero : (period : ℚ) ≠ 0 := by exact_mod_cast positive.ne'
  unfold maAt
  split_ifs
  · exact ⟨_, rfl⟩
  · simp only [bind, Except.bind, quotient_eq nonzero]
    exact ⟨_, rfl⟩

theorem maAt_append (nonneg : 0 ≤ i) (inside : i < xs.length) :
    maAt (xs ++ ys) period i = maAt xs period i := by
  unfold maAt
  split_ifs with early
  · rfl
  · rw [window_append ys early nonneg inside]

theorem exists_computeRsi (xs : List PriceBar) (period : ℤ) (positive : 0 < period) :
    ∃ rsi, computeRsi xs period = .ok rsi :=
  mapM_total fun _ member => exists_rsiAt positive (mem_range_iff.mp member).2

theorem exists_computeBollinger (root : ℚ → ℚ) (xs : List PriceBar) (period : ℤ) (stdMult : ℚ)
    (positive : 0 < period) : ∃ bands, computeBollinger root xs period stdMult = .ok bands :=
  mapM_total fun _ _ => exists_bandAt root stdMult positive

theorem exists_computeMa (xs : List PriceBar) (period : ℤ) (positive : 0 < period) :
    ∃ averages, computeMa xs period = .ok averages :=
  mapM_total fun _ _ => exists_maAt positive

end Tables

/-! ## Mean reversion -/

namespace MeanReversionParams

variable {params : MeanReversionParams} {xs : List PriceBar} (ys : List PriceBar)
  (root : ℚ → ℚ) (symbol : String)

theorem exists_indicators (accepted : params.validateParams) (xs : List PriceBar) :
    ∃ rsi bands, params.indicators root xs = .ok (rsi, bands) ∧
      computeRsi xs params.rsiPeriod = .ok rsi ∧
        computeBollinger root xs params.bbPeriod params.bbStd = .ok bands := by
  obtain ⟨rsiPeriod, -, -, -, bbPeriod⟩ := of_decide_eq_true accepted
  obtain ⟨rsi, computed⟩ := exists_computeRsi xs params.rsiPeriod (by omega)
  obtain ⟨bands, banded⟩ :=
    exists_computeBollinger root xs params.bbPeriod params.bbStd (by omega)
  refine ⟨rsi, bands, ?_, computed, banded⟩
  rw [indicators, computed, banded]
  rfl

theorem prefixStable (accepted : params.validateParams) (enough : params.guard ≤ xs.length) :
    PrefixStable (params.emission root symbol) xs ys := by
  obtain ⟨rsiWhole, bandsWhole, indicated, rsiMade, bandsMade⟩ :=
    exists_indicators root accepted (xs ++ ys)
  obtain ⟨rsi, bands, indicatedShort, rsiShort, bandsShort⟩ := exists_indicators root accepted xs
  obtain ⟨-, -, -, -, bbPeriod⟩ := of_decide_eq_true accepted
  have longer : xs.length ≤ (xs ++ ys).length := by simp
  refine prefixStable_of_bodies (params.signalAt symbol (xs ++ ys) rsiWhole bandsWhole)
    (params.signalAt symbol xs rsi bands) ?_ ?_ ?_ fun i (reached : params.bbPeriod ≤ i) inside => ?_
  · rw [emission, if_neg (not_lt_of_guard enough ys), indicated, loopAfter]
  · rw [emission, if_neg (not_lt.mpr enough), indicatedShort, loopAfter]
  · unfold guard at enough
    omega
  · have nonneg : 0 ≤ i := by omega
    have rsiSame := readItem_tables longer rsiMade rsiShort
      (fun j _ before => rsiAt_append ys before) nonneg inside
    have bandSame := readItem_tables longer bandsMade bandsShort
      (fun j start before => bandAt_append ys root params.bbStd start before) nonneg inside
    simp only [signalAt, rsiSame, bandSame, readItem_append_left ys nonneg inside]

end MeanReversionParams

/-! ## Trend following -/

namespace TrendParams

variable {params : TrendParams} {xs : List PriceBar} (ys : List PriceBar) (symbol : String)

theorem momentumStrength_append (direction : Direction) {i : ℤ}
    (window : 0 ≤ params.momentumWindow.getD 20) (nonneg : 0 ≤ i) (inside : i < xs.length) :
    params.momentumStrength (xs ++ ys) direction i = params.momentumStrength xs direction i := by
  unfold momentumStrength
  by_cases far : params.momentumWindow.getD 20 ≤ i
  · have earlier : readItem (xs ++ ys) (i - params.momentumWindow.getD 20) =
        readItem xs (i - params.momentumWindow.getD 20) :=
      readItem_append_left ys (by omega) (by omega)
    simp only [if_pos far, readItem_append_left ys nonneg inside, earlier]
  · simp only [if_neg far]

/-- Without the key of a period, the averages of a list and of its extension fail alike; with
both keys they are there. -/
theorem averages_cases (accepted : params.validateParams) :
    ((params.shortMaPeriod = none ∨ params.longMaPeriod = none) ∧
        ∃ error, ∀ data, params.averages data = .error error) ∨
      ∃ short long, 1 < short ∧ short < long ∧ params.shortMaPeriod = some short ∧
        params.longMaPeriod = some long ∧
          ∀ data, ∃ shortMa longMa, params.averages data = .ok (shortMa, longMa) ∧
            computeMa data short = .ok shortMa ∧ computeMa data long = .ok longMa := by
  obtain ⟨positive, ordered, -⟩ := of_decide_eq_true accepted
  cases short : params.shortMaPeriod with
  | none =>
      exact .inl ⟨.inl rfl, .keyError "short_ma_period", fun data => by rw [averages, short]; rfl⟩
  | some shortPeriod =>
      rw [short, Option.getD_some] at positive ordered
      cases long : params.longMaPeriod with
      | none =>
          refine .inl ⟨.inr rfl, .keyError "long_ma_period", fun data => ?_⟩
          obtain ⟨shortMa, made⟩ := exists_computeMa data shortPeriod (by omega)
          rw [averages, short, long, required, required]
          simp only [bind, Except.bind, made]
      | some longPeriod =>
          rw [long, Option.getD_some] at ordered
          refine .inr ⟨shortPeriod, longPeriod, positive, ordered, rfl, rfl, fun data => ?_⟩
          obtain ⟨shortMa, made⟩ := exists_computeMa data shortPeriod (by omega)
          obtain ⟨longMa, madeLong⟩ := exists_computeMa data longPeriod (by omega)
          refine ⟨shortMa, longMa, ?_, made, madeLong⟩
          rw [averages, short, long, required, required]
          simp only [bind, Except.bind, made, madeLong]
          rfl

theorem prefixStable (accepted : params.validateParams) (enough : params.guard ≤ xs.length) :
    PrefixStable (params.emission symbol) xs ys := by
  rcases averages_cases accepted with
    ⟨-, error, fails⟩ | ⟨short, long, positive, ordered, -, key, made⟩
  · have stopped : ∀ data : List PriceBar, params.guard ≤ data.length →
        params.emission symbol data = ([], some error) := by
      intro data longer
      rw [emission, if_neg (not_lt.mpr longer), fails, loopAfter]
    rw [PrefixStable, stopped xs enough,
      stopped (xs ++ ys) (enough.trans (length_le_length_append xs ys))]
    exact ⟨rfl, fun _ same => same⟩
  · obtain ⟨shortWhole, longWhole, whole, shortMade, longMade⟩ := made (xs ++ ys)
    obtain ⟨shortMa, longMa, computed, shortShort, longShort⟩ := made xs
    obtain ⟨-, -, window⟩ := of_decide_eq_true accepted
    have longer : xs.length ≤ (xs ++ ys).length := by simp
    refine prefixStable_of_bodies (params.signalAt symbol (xs ++ ys) shortWhole longWhole)
      (params.signalAt symbol xs shortMa longMa) ?_ ?_ ?_ fun i (reached : 1 ≤ i) inside => ?_
    · rw [emission, if_neg (not_lt_of_guard enough ys), whole, loopAfter]
    · rw [emission, if_neg (not_lt.mpr enough), computed, loopAfter]
    · rw [guard, key, Option.getD_some] at enough
      omega
    · have same : ∀ j : ℤ, 0 ≤ j → j < xs.length →
          readItem shortWhole j = readItem shortMa j ∧
            readItem longWhole j = readItem longMa j := by
        intro j start before
        exact ⟨readItem_tables longer shortMade shortShort
            (fun k first last => maAt_append ys first last) start before,
          readItem_tables longer longMade longShort
            (fun k first last => maAt_append ys first last) start before⟩
      have now := same i (by omega) inside
      have previous := same (i - 1) (by omega) (by omega)
      simp only [signalAt, signalWith, now.1, now.2, previous.1, previous.2,
        readItem_append_left ys (show 0 ≤ i by omega) inside,
        momentumStrength_append ys _ (show 0 ≤ params.momentumWindow.getD 20 by omega)
          (show 0 ≤ i by omega) inside]

end TrendParams

/-! ## A return that looks beyond the start -/

/-- A bar at one price. -/
def flatBar (price : ℚ) : PriceBar := ⟨price, price, price, 0⟩

theorem readItem_replicate {n : ℕ} (bar : PriceBar) {i : ℤ} (lower : -n ≤ i) (inside : i < n) :
    readItem (List.replicate n bar) i = .ok bar := by
  obtain ⟨found, member, read⟩ := item_eq_some (List.replicate n bar) i
    (by rwa [List.length_replicate]) (by rwa [List.length_replicate])
  rw [readItem, read, List.eq_of_mem_replicate member]

namespace ReversalParams

variable (params : ReversalParams) (symbol : String)

/-- Bars at one price, as many as the guard asks for when the return period is the longer one. -/
def flatBars : List PriceBar := List.replicate (params.period + 1).toNat (flatBar 1)

/-- Bars at a lower price, as many as the volume period is shorter. -/
def lowerBars : List PriceBar :=
  List.replicate (params.period - params.volPeriod).toNat (flatBar (1 / (2 + params.st)))

variable {params}

/-- No price has changed on the flat bars: nothing is emitted. -/
theorem emission_flatBars (accepted : params.validateParams)
    (wraps : params.volPeriod < params.period) :
    params.emission symbol params.flatBars = ([], none) := by
  obtain ⟨-, lt, st, volume⟩ := of_decide_eq_true accepted
  have length : (params.flatBars.length : ℤ) = params.period + 1 := by
    rw [flatBars, List.length_replicate]
    omega
  have silent : ∀ i ∈ range params.volPeriod params.flatBars.length,
      params.signalAt symbol params.flatBars i = .ok none := by
    intro i member
    obtain ⟨lower, upper⟩ := mem_range_iff.mp member
    have now : readItem params.flatBars i = .ok (flatBar 1) :=
      readItem_replicate _ (by omega) (by omega)
    have earlier : readItem params.flatBars (i - params.period) = .ok (flatBar 1) :=
      readItem_replicate _ (by omega) (by omega)
    have still : params.reaction 0 = .ok none := by
      rw [reaction, if_neg lt.le.not_gt, if_neg st.le.not_gt]
      rfl
    have ret : quotient ((flatBar 1).close - (flatBar 1).close) (flatBar 1).close = .ok 0 := by
      rw [quotient_eq (show (flatBar 1).close ≠ 0 from one_ne_zero), sub_self, zero_div]
    simp only [signalAt, now, earlier, bind, Except.bind, ret, still]
    rfl
  rw [emission, if_neg (by unfold guard; omega), emit_congr silent]
  generalize range params.volPeriod params.flatBars.length = positions
  induction positions with
  | nil => rfl
  | cons i rest ih => exact ih

/-- The first bar that the loop reaches is compared with the first of the lower bars, which come
after all of the flat ones: it is sold. -/
theorem exists_signalAt_flatBars (accepted : params.validateParams)
    (wraps : params.volPeriod < params.period) :
    ∃ bundle, params.signalAt symbol (params.flatBars ++ params.lowerBars) params.volPeriod =
      .ok (some bundle) := by
  obtain ⟨-, lt, st, volume⟩ := of_decide_eq_true accepted
  have flat : (params.flatBars.length : ℤ) = params.period + 1 := by
    rw [flatBars, List.length_replicate]
    omega
  have lower : (params.lowerBars.length : ℤ) = params.period - params.volPeriod := by
    rw [lowerBars, List.length_replicate]
    omega
  have now : readItem (params.flatBars ++ params.lowerBars) params.volPeriod =
      .ok (flatBar 1) := by
    rw [readItem_append_left _ (by omega) (by omega)]
    exact readItem_replicate _ (by omega) (by omega)
  have later : readItem (params.flatBars ++ params.lowerBars)
      (params.volPeriod - params.period) = .ok (flatBar (1 / (2 + params.st))) := by
    rw [readItem, item_append_right (by omega) (by omega)]
    exact readItem_replicate _ (by omega) (by omega)
  have positive : (0 : ℚ) < 2 + params.st := by linarith
  have ret : quotient ((flatBar 1).close - (flatBar (1 / (2 + params.st))).close)
      (flatBar (1 / (2 + params.st))).close = .ok (1 + params.st) := by
    have price : 1 / (2 + params.st) ≠ 0 := (one_div_pos.mpr positive).ne'
    rw [flatBar, flatBar, quotient_eq price]
    congr 1
    field_simp
    ring
  obtain ⟨strength, sold⟩ : ∃ strength,
      params.reaction (1 + params.st) = .ok (some (.short, strength)) := by
    have excess := quotient_eq (a := |1 + params.st|) (abs_pos.mpr st.ne').ne'
    rw [reaction, if_neg (by linarith), if_pos (by linarith), excess]
    exact ⟨_, rfl⟩
  obtain ⟨average, averaged⟩ : ∃ average, averageVolume
      (slice (params.flatBars ++ params.lowerBars) (params.volPeriod - params.volPeriod)
        params.volPeriod) = .ok average := by
    have whole := length_le_length_append params.flatBars params.lowerBars
    have length := length_slice (params.flatBars ++ params.lowerBars)
      (params.volPeriod - params.volPeriod) params.volPeriod (by omega) (by omega) (by omega)
    refine ⟨_, quotient_eq ?_⟩
    exact_mod_cast show ((slice (params.flatBars ++ params.lowerBars)
      (params.volPeriod - params.volPeriod) params.volPeriod).length : ℤ) ≠ 0 by omega
  simp only [signalAt, now, later, bind, Except.bind, ret, sold, averaged]
  exact ⟨_, rfl⟩

/-- With a return period above the volume period, what the strategy emits depends on later
bars. -/
theorem not_prefixStable (accepted : params.validateParams)
    (wraps : params.volPeriod < params.period) :
    ¬ PrefixStable (params.emission symbol) params.flatBars params.lowerBars := by
  rintro ⟨same, -⟩
  obtain ⟨bundle, sold⟩ := exists_signalAt_flatBars symbol accepted wraps
  have flat : (params.flatBars.length : ℤ) = params.period + 1 := by
    obtain ⟨period, -⟩ := of_decide_eq_true accepted
    rw [flatBars, List.length_replicate]
    omega
  have whole := length_le_length_append params.flatBars params.lowerBars
  have first : (params.volPeriod, bundle) ∈
      (params.emission symbol (params.flatBars ++ params.lowerBars)).1 := by
    rw [emission, if_neg (by unfold guard; omega), range_cons (by omega), emit, sold]
    exact List.mem_cons_self
  have early : params.volPeriod < (params.flatBars.length : ℤ) := by omega
  have kept : (params.volPeriod, bundle) ∈
      (params.emission symbol (params.flatBars ++ params.lowerBars)).1.filter
        fun entry : ℤ × BuilderBundle => entry.1 < params.flatBars.length :=
    List.mem_filter.mpr ⟨first, decide_eq_true early⟩
  rw [same, emission_flatBars symbol accepted wraps] at kept
  cases kept

end ReversalParams

/-! ## All builders -/

/-- **For every dict that a builder accepts, the bundles emitted for the bars of a list that
passes the guard are the ones emitted for them in every extension of it, if and only if the
builder is not a reversal strategy with a return period above its volume period.** -/
theorem prefixStable_iff (builder : Builder) (accepted : builder.accepts) (root : ℚ → ℚ)
    (symbol : String) :
    (∀ xs ys : List PriceBar, builder.guard ≤ xs.length →
        PrefixStable (builder.emission root symbol) xs ys) ↔
      ¬ builder.LooksBeyondStart := by
  cases builder with
  | trend given =>
      refine iff_of_true (fun xs ys enough => ?_) not_false
      refine TrendParams.prefixStable ys symbol ?_ enough
      cases given with
      | none => exact decide_eq_true (by decide)
      | some params => exact accepted
  | meanReversion params =>
      exact iff_of_true
        (fun xs ys enough => MeanReversionParams.prefixStable ys root symbol accepted enough)
        not_false
  | breakout params =>
      exact iff_of_true
        (fun xs ys enough => BreakoutParams.prefixStable ys symbol accepted enough) not_false
  | reversal params =>
      constructor
      · intro stable wraps
        refine ReversalParams.not_prefixStable symbol accepted wraps (stable _ _ ?_)
        change max params.period params.volPeriod + 1 ≤ _
        obtain ⟨period, -⟩ := of_decide_eq_true accepted
        rw [ReversalParams.flatBars, List.length_replicate]
        change params.volPeriod < params.period at wraps
        omega
      · intro within xs ys enough
        exact ReversalParams.prefixStable ys symbol accepted enough (not_lt.mp within)

/-- The default parameters of the breakout strategy. -/
theorem prefixStable_breakout :
    (Builder.breakout {}).accepts = true ∧
      ∀ xs ys : List PriceBar, (Builder.breakout {}).guard ≤ xs.length →
        PrefixStable ((Builder.breakout {}).emission id "AAPL") xs ys := by
  have accepted : (Builder.breakout {}).accepts = true := by with_unfolding_all decide
  exact ⟨accepted, (prefixStable_iff (.breakout {}) accepted id "AAPL").mpr not_false⟩

/-- A return over eight bars and a volume window of five. -/
def longReturn : ReversalParams := { returnPeriod := some 8, volMaPeriod := some 5 }

/-- On nine flat bars nothing is emitted. With three lower bars behind them, the sixth of the
nine is sold: its price is compared with the first of the three. -/
theorem reversal_not_prefixStable :
    (Builder.reversal longReturn).accepts = true ∧
      ((Builder.reversal longReturn).emission id "AAPL" (List.replicate 9 (flatBar 1))).1.map
        Prod.fst = [] ∧
      (((Builder.reversal longReturn).emission id "AAPL"
        (List.replicate 9 (flatBar 1) ++ List.replicate 3 (flatBar (1 / 2)))).1.filter
          fun entry : ℤ × BuilderBundle => entry.1 < 9).map Prod.fst = [5, 6, 7] := by
  with_unfolding_all decide

end TradeOS.Strategy
