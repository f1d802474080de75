import TradeOS.Strategy.BuilderTotality
import Mathlib.Algebra.Order.Floor.Ring

/-!
# Strategy builders and the dicts they accept

A builder checks the numbers of its dict with comparisons, so a period may be a float. The guard
compares with it too. Behind the guard it meets the operations that take integers only: the range
of a loop, the bounds of a slice, the index of a bar. Each of them raises a type error on a float,
also on one with a whole value.

Where such an operation is reached differs (`BuilderDict.Complete`). A relative strength index of a
float period is never computed on a list that is no longer than the period, and a momentum over a
float window is looked up only at a cross that the window reaches. Otherwise a period that is no
integer fails behind the guard.
-/

set_option autoImplicit false

namespace TradeOS.Strategy

open Numeric Indexing

/-! ## Numbers -/

/-- A number of a dict. -/
inductive DictNumber where
  | int (n : ℤ)
  | float (q : ℚ)
  deriving DecidableEq

namespace DictNumber

def value : DictNumber → ℚ
  | int n => n
  | float q => q

@[simp] theorem value_int (n : ℤ) : (int n).value = n := rfl

/-- The number where an integer is asked for. -/
def index : DictNumber → Except BuilderError ℤ
  | int n => .ok n
  | float _ => .error .typeError

def isInt : DictNumber → Bool
  | int _ => true
  | float _ => false

/-- The smallest integer that is not below the number. -/
def ceil (number : DictNumber) : ℤ := ⌈number.value⌉

@[simp] theorem ceil_int (n : ℤ) : (int n).ceil = n := Int.ceil_intCast n

theorem lt_value_iff (number : DictNumber) (i : ℤ) : (i : ℚ) < number.value ↔ i < number.ceil :=
  Int.lt_ceil.symm

theorem isInt_iff {number : DictNumber} : number.isInt = true ↔ number.index = .ok number.ceil := by
  cases number with
  | int n => simp [isInt, index]
  | float q => simp [isInt, index]

theorem index_of_not_isInt {number : DictNumber} (fractional : ¬ number.isInt = true) :
    number.index = .error .typeError := by
  cases number with
  | int n => exact absurd rfl fractional
  | float q => rfl

end DictNumber

/-! ## Loops that fail -/

/-- A loop whose first position fails does not return. -/
theorem not_returnsBounded_emit {body : ℤ → Except BuilderError (Option BuilderBundle)}
    {start stop : ℤ} (error : BuilderError) (nonempty : start < stop)
    (fails : body start = .error error) :
    ¬ Emission.ReturnsBounded (emit body (range start stop)) := by
  rw [returnsBounded_emit_iff]
  intro total
  obtain ⟨yielded, returned⟩ := total start le_rfl nonempty
  rw [fails] at returned
  cases returned

/-- A table with a failing entry is not made. -/
theorem mapM_range_error {α : Type} {f : ℤ → Except BuilderError α} {n : ℕ} {i : ℤ}
    (error : BuilderError) (nonneg : 0 ≤ i) (inside : i < n) (fails : f i = .error error) :
    ∃ error, (range 0 n).mapM f = .error error := by
  cases made : (range 0 n).mapM f with
  | error error => exact ⟨error, rfl⟩
  | ok table =>
      obtain ⟨_, _, entry⟩ := item_of_mapM made nonneg inside
      rw [fails] at entry
      cases entry

theorem not_returnsBounded_loopAfter {σ : Type} {setup : Except BuilderError σ}
    {loop : σ → Emission} (fails : ∃ error, setup = .error error) :
    ¬ (loopAfter setup loop).ReturnsBounded := by
  obtain ⟨error, rfl⟩ := fails
  rw [returnsBounded_iff]
  exact Option.some_ne_none error

/-! ## Reversal -/

/-- The dict of a reversal strategy. -/
abbrev ReversalDict := ReversalParamsOf DictNumber

namespace ReversalDict

variable (dict : ReversalDict)

def period : DictNumber := dict.returnPeriod.getD (.int 5)

def volPeriod : DictNumber := dict.volMaPeriod.getD (.int 20)

/-- The parameters with integers for the periods. -/
def withPeriods (period volPeriod : ℤ) : ReversalParams :=
  { dict with returnPeriod := some period, volMaPeriod := some volPeriod }

/-- `validate_params`. -/
def validateParams : Bool :=
  2 ≤ dict.period.value ∧ dict.longThreshold.getD (-(3 / 100)) < 0 ∧
    0 < dict.shortThreshold.getD (3 / 100) ∧ 5 ≤ dict.volPeriod.value

/-- The bars that `generate_signals` asks for. -/
def guard : ℚ := max dict.period.value dict.volPeriod.value + 1

/-- The body of the loop of `generate_signals`. -/
def signalAt (symbol : String) (data : List PriceBar) (volPeriod i : ℤ) :
    Except BuilderError (Option BuilderBundle) := do
  let _ ← readItem data i
  let period ← dict.period.index
  (dict.withPeriods period volPeriod).signalAt symbol data i

/-- `generate_signals`. -/
def emission (symbol : String) (data : List PriceBar) : Emission :=
  if (data.length : ℚ) < dict.guard then ([], none)
  else loopAfter dict.volPeriod.index fun volPeriod =>
    emit (dict.signalAt symbol data volPeriod) (range volPeriod data.length)

variable {dict} {data : List PriceBar} {symbol : String}

theorem validateParams_withPeriods (accepted : dict.validateParams) {period volPeriod : ℤ}
    (isPeriod : dict.period = .int period) (isVolPeriod : dict.volPeriod = .int volPeriod) :
    (dict.withPeriods period volPeriod).validateParams := by
  obtain ⟨longer, lt, st, volLonger⟩ := of_decide_eq_true accepted
  rw [isPeriod, DictNumber.value_int] at longer
  rw [isVolPeriod, DictNumber.value_int] at volLonger
  exact decide_eq_true ⟨show 2 ≤ period by exact_mod_cast longer, lt, st,
    show 5 ≤ volPeriod by exact_mod_cast volLonger⟩

/-- With integers for the periods the dict stands for its typed parameters. -/
theorem emission_eq {period volPeriod : ℤ} (isPeriod : dict.period = .int period)
    (isVolPeriod : dict.volPeriod = .int volPeriod) :
    dict.emission symbol data = (dict.withPeriods period volPeriod).emission symbol data := by
  have guards : (data.length : ℚ) < dict.guard ↔
      (data.length : ℤ) < (dict.withPeriods period volPeriod).guard := by
    change (data.length : ℚ) < dict.guard ↔ (data.length : ℤ) < max period volPeriod + 1
    rw [guard, isPeriod, isVolPeriod, DictNumber.value_int, DictNumber.value_int]
    exact_mod_cast Iff.rfl
  have bodies : dict.signalAt symbol data volPeriod =
      (dict.withPeriods period volPeriod).signalAt symbol data := by
    funext i
    simp only [signalAt, isPeriod, DictNumber.index, ReversalParams.signalAt, bind, Except.bind]
    cases readItem data i <;> rfl
  rw [emission, ReversalParams.emission, isVolPeriod]
  simp only [guards, DictNumber.index, loopAfter, bodies]
  rfl

/-- With a float for the return period the first bar of the loop fails: it looks the earlier bar up
with the float. -/
theorem signalAt_float (accepted : dict.validateParams) (sound : ∀ bar ∈ data, bar.Sound)
    {q : ℚ} {volPeriod : ℤ} (isPeriod : dict.period = .float q)
    (isVolPeriod : dict.volPeriod = .int volPeriod) (inside : volPeriod < data.length) :
    dict.signalAt symbol data volPeriod volPeriod = .error .typeError := by
  obtain ⟨-, -, -, longer⟩ := of_decide_eq_true accepted
  rw [isVolPeriod, DictNumber.value_int] at longer
  have start : 5 ≤ volPeriod := by exact_mod_cast longer
  obtain ⟨bar, read, -⟩ := exists_sound sound volPeriod (by omega) inside
  simp only [signalAt, read, isPeriod, DictNumber.index, bind, Except.bind]

theorem returnsBounded_iff (accepted : dict.validateParams)
    (sound : ∀ bar ∈ data, bar.Sound) :
    (dict.emission symbol data).ReturnsBounded ↔
      (dict.guard ≤ data.length → dict.period.isInt ∧ dict.volPeriod.isInt) := by
  by_cases short : (data.length : ℚ) < dict.guard
  · rw [emission, if_pos short]
    exact iff_of_true (Strategy.returnsBounded_iff.mpr rfl) fun enough => absurd short enough.not_gt
  rw [imp_iff_right (not_lt.mp short)]
  cases isVolPeriod : dict.volPeriod with
  | float q =>
      rw [emission, if_neg short, isVolPeriod]
      exact iff_of_false (not_returnsBounded_loopAfter ⟨_, rfl⟩) fun both =>
        Bool.false_ne_true both.2
  | int volPeriod =>
      cases isPeriod : dict.period with
      | int period =>
          rw [emission_eq isPeriod isVolPeriod]
          exact iff_of_true (ReversalParams.returnsBounded
            (validateParams_withPeriods accepted isPeriod isVolPeriod) sound) ⟨rfl, rfl⟩
      | float q =>
          have reaches : (volPeriod : ℚ) + 1 ≤ data.length := by
            refine le_trans (add_le_add_left ?_ 1) (not_lt.mp short)
            rw [isVolPeriod]
            exact le_max_right _ _
          have inside : volPeriod < data.length :=
            Int.add_one_le_iff.mp (by exact_mod_cast reaches)
          rw [emission, if_neg short, isVolPeriod]
          exact iff_of_false (not_returnsBounded_emit .typeError inside
              (signalAt_float accepted sound isPeriod isVolPeriod inside))
            fun both => Bool.false_ne_true both.1

end ReversalDict

/-! ## Breakout -/

/-- The dict of a breakout strategy. -/
abbrev BreakoutDict := BreakoutParamsOf DictNumber

namespace BreakoutDict

variable (dict : BreakoutDict)

def lookback : DictNumber := dict.lookbackPeriod.getD (.int 20)

def volPeriod : DictNumber := dict.volPeriod?.getD (.int 20)

/-- The parameters with integers for the periods. -/
def withPeriods (lookback volPeriod : ℤ) : BreakoutParams :=
  { dict with lookbackPeriod := some lookback, volPeriod? := some volPeriod }

@[simp] theorem lookback_withPeriods (lookback volPeriod : ℤ) :
    (dict.withPeriods lookback volPeriod).lookback = lookback :=
  rfl

/-- `validate_params`. -/
def validateParams : Bool :=
  5 ≤ dict.lookback.value ∧ 5 ≤ dict.volPeriod.value ∧ 1 ≤ dict.volThreshold?.getD (12 / 10)

/-- The bars that `generate_signals` asks for. -/
def guard : ℚ := dict.lookback.value + dict.volPeriod.value

/-- The body of the loop of `generate_signals`. -/
def signalAt (symbol : String) (data : List PriceBar) (lookback i : ℤ) :
    Except BuilderError (Option BuilderBundle) := do
  let window := slice data (i - lookback) i
  let _ ← BreakoutParams.extreme max (window.map PriceBar.high)
  let _ ← BreakoutParams.extreme min (window.map PriceBar.low)
  let _ ← readItem data i
  let volPeriod ← dict.volPeriod.index
  (dict.withPeriods lookback volPeriod).signalAt symbol data i

/-- `generate_signals`. -/
def emission (symbol : String) (data : List PriceBar) : Emission :=
  if (data.length : ℚ) < dict.guard then ([], none)
  else loopAfter dict.lookback.index fun lookback =>
    emit (dict.signalAt symbol data lookback) (range lookback data.length)

variable {dict} {data : List PriceBar} {symbol : String}

theorem validateParams_withPeriods (accepted : dict.validateParams) {lookback volPeriod : ℤ}
    (isLookback : dict.lookback = .int lookback) (volLonger : 5 ≤ volPeriod) :
    (dict.withPeriods lookback volPeriod).validateParams := by
  obtain ⟨longer, -, threshold⟩ := of_decide_eq_true accepted
  rw [isLookback, DictNumber.value_int] at longer
  exact decide_eq_true ⟨show 5 ≤ lookback by exact_mod_cast longer, volLonger, threshold⟩

theorem guard_eq {lookback volPeriod : ℤ} (isLookback : dict.lookback = .int lookback)
    (isVolPeriod : dict.volPeriod = .int volPeriod) :
    dict.guard = (dict.withPeriods lookback volPeriod).guard := by
  change dict.guard = ((lookback + volPeriod : ℤ) : ℚ)
  rw [guard, isLookback, isVolPeriod, DictNumber.value_int, DictNumber.value_int, Int.cast_add]

/-- With integers for the periods the dict stands for its typed parameters. -/
theorem emission_eq {lookback volPeriod : ℤ} (isLookback : dict.lookback = .int lookback)
    (isVolPeriod : dict.volPeriod = .int volPeriod) :
    dict.emission symbol data = (dict.withPeriods lookback volPeriod).emission symbol data := by
  have guards : (data.length : ℚ) < dict.guard ↔
      (data.length : ℤ) < (dict.withPeriods lookback volPeriod).guard := by
    rw [guard_eq isLookback isVolPeriod]
    exact_mod_cast Iff.rfl
  have bodies : dict.signalAt symbol data lookback =
      (dict.withPeriods lookback volPeriod).signalAt symbol data := by
    funext i
    simp only [signalAt, isVolPeriod, DictNumber.index, BreakoutParams.signalAt,
      lookback_withPeriods, bind, Except.bind]
    cases BreakoutParams.extreme max ((slice data (i - lookback) i).map PriceBar.high) with
    | error error => rfl
    | ok high =>
        cases BreakoutParams.extreme min ((slice data (i - lookback) i).map PriceBar.low) with
        | error error => rfl
        | ok low => cases readItem data i <;> rfl
  rw [emission, BreakoutParams.emission, isLookback]
  simp only [guards, DictNumber.index, loopAfter, bodies]
  rfl

/-- With a float for the period of the volumes the first bar of the loop fails: it cuts its window
of volumes with the float. -/
theorem signalAt_float (accepted : dict.validateParams) (sound : ∀ bar ∈ data, bar.Sound)
    {q : ℚ} {lookback : ℤ} (isLookback : dict.lookback = .int lookback)
    (isVolPeriod : dict.volPeriod = .float q) (inside : lookback < data.length) :
    dict.signalAt symbol data lookback lookback = .error .typeError := by
  obtain ⟨longer, -, -⟩ := of_decide_eq_true accepted
  rw [isLookback, DictNumber.value_int] at longer
  have start : 5 ≤ lookback := by exact_mod_cast longer
  have typed : (dict.withPeriods lookback 5).validateParams :=
    validateParams_withPeriods accepted isLookback le_rfl
  obtain ⟨high, low, -, highest, lowest⟩ :=
    BreakoutParams.exists_range typed sound (le_refl lookback) inside
  obtain ⟨bar, read, -⟩ := exists_sound sound lookback (by omega) inside
  rw [lookback_withPeriods] at highest lowest
  simp only [signalAt, highest, lowest, read, isVolPeriod, DictNumber.index, bind, Except.bind]

theorem returnsBounded_iff (accepted : dict.validateParams)
    (sound : ∀ bar ∈ data, bar.Sound) :
    (dict.emission symbol data).ReturnsBounded ↔
      (dict.guard ≤ data.length → dict.lookback.isInt ∧ dict.volPeriod.isInt ∧
        dict.volPeriod.value ≤ dict.lookback.value) := by
  by_cases short : (data.length : ℚ) < dict.guard
  · rw [emission, if_pos short]
    exact iff_of_true (Strategy.returnsBounded_iff.mpr rfl) fun enough => absurd short enough.not_gt
  obtain ⟨-, volLonger, -⟩ := of_decide_eq_true accepted
  cases isLookback : dict.lookback with
  | float q =>
      rw [emission, if_neg short, isLookback]
      exact iff_of_false (not_returnsBounded_loopAfter ⟨_, rfl⟩) fun complete =>
        Bool.false_ne_true (complete (not_lt.mp short)).1
  | int lookback =>
      cases isVolPeriod : dict.volPeriod with
      | int volPeriod =>
          rw [isVolPeriod, DictNumber.value_int] at volLonger
          rw [emission_eq isLookback isVolPeriod, BreakoutParams.returnsBounded_iff
            (validateParams_withPeriods accepted isLookback (by exact_mod_cast volLonger)) sound,
            guard_eq isLookback isVolPeriod]
          refine imp_congr (by exact_mod_cast Iff.rfl) ?_
          change volPeriod ≤ lookback ↔ true = true ∧ true = true ∧ (volPeriod : ℚ) ≤ lookback
          rw [Int.cast_le, eq_self_iff_true, true_and, true_and]
      | float q =>
          rw [isVolPeriod] at volLonger
          have reaches : (lookback : ℚ) < data.length := by
            have enough := not_lt.mp short
            rw [guard, isLookback, isVolPeriod, DictNumber.value_int] at enough
            linarith
          have inside : lookback < data.length := by exact_mod_cast reaches
          rw [emission, if_neg short, isLookback]
          exact iff_of_false (not_returnsBounded_emit .typeError inside
              (signalAt_float accepted sound isLookback isVolPeriod inside))
            fun complete => Bool.false_ne_true (complete (not_lt.mp short)).2.1

end BreakoutDict

/-! ## Mean reversion -/

/-- The dict of a mean reversion strategy, merged into the defaults. -/
abbrev MeanReversionDict := MeanReversionParamsOf DictNumber

/-- `get_default_params`. -/
def defaultMeanReversion : MeanReversionDict where
  rsiPeriod := .int 14
  bbPeriod := .int 20

/-- An entry of `_compute_rsi`. -/
def rsiAtOf (data : List PriceBar) (period : DictNumber) (i : ℤ) : Except BuilderError ℚ :=
  match period with
  | .int n => rsiAt data n i
  | .float q => if i < q then return 50 else .error .typeError

/-- An entry of `_compute_bollinger`. -/
def bandAtOf (root : ℚ → ℚ) (data : List PriceBar) (period : DictNumber) (stdMult : ℚ) (i : ℤ) :
    Except BuilderError Band :=
  match period with
  | .int n => bandAt root data n stdMult i
  | .float q => if i < q - 1 then return ⟨.nan, .nan, .nan⟩ else .error .typeError

namespace MeanReversionDict

variable (dict : MeanReversionDict)

/-- The parameters with the periods rounded up, which compare with a position alike. -/
def ceil : MeanReversionParams :=
  { dict with rsiPeriod := dict.rsiPeriod.ceil, bbPeriod := dict.bbPeriod.ceil }

/-- `validate_params`. -/
def validateParams : Bool :=
  5 ≤ dict.rsiPeriod.value ∧ 0 < dict.oversold ∧ dict.oversold < dict.overbought ∧
    dict.overbought < 100 ∧ 5 ≤ dict.bbPeriod.value

/-- The bars that `generate_signals` asks for. -/
def guard : ℚ := dict.bbPeriod.value + 1

/-- What `generate_signals` computes ahead of its loop, and where the loop starts. -/
def setup (root : ℚ → ℚ) (data : List PriceBar) :
    Except BuilderError ((List ℚ × List Band) × ℤ) := do
  let rsi ← (range 0 data.length).mapM (rsiAtOf data dict.rsiPeriod)
  let bands ← (range 0 data.length).mapM (bandAtOf root data dict.bbPeriod dict.bbStd)
  let lookback ← dict.bbPeriod.index
  return ((rsi, bands), lookback)

/-- `generate_signals`. The body of the loop reads no period. -/
def emission (root : ℚ → ℚ) (symbol : String) (data : List PriceBar) : Emission :=
  if (data.length : ℚ) < dict.guard then ([], none)
  else loopAfter (dict.setup root data) fun computed =>
    emit (dict.ceil.signalAt symbol data computed.1.1 computed.1.2)
      (range computed.2 data.length)

variable {dict} {data : List PriceBar} {symbol : String}

theorem validateParams_ceil (accepted : dict.validateParams) : dict.ceil.validateParams := by
  obtain ⟨rsi, oversold, ordered, overbought, bb⟩ := of_decide_eq_true accepted
  have rounded : ∀ {number : DictNumber}, 5 ≤ number.value → 5 ≤ number.ceil := by
    intro number five
    exact_mod_cast five.trans (Int.le_ceil number.value)
  exact decide_eq_true ⟨rounded rsi, oversold, ordered, overbought, rounded bb⟩

/-- The period of the index is an integer, or no position reaches it. -/
def RsiComputed (dict : MeanReversionDict) (data : List PriceBar) : Prop :=
  dict.rsiPeriod.isInt ∨ (data.length : ℤ) ≤ dict.rsiPeriod.ceil

theorem rsiAtOf_eq (computed : RsiComputed dict data) {i : ℤ} (inside : i < data.length) :
    rsiAtOf data dict.rsiPeriod i = rsiAt data dict.rsiPeriod.ceil i := by
  unfold RsiComputed at computed
  cases period : dict.rsiPeriod with
  | int n => rw [DictNumber.ceil_int, rsiAtOf]
  | float q =>
      rw [period] at computed
      have before : i < (DictNumber.float q).ceil :=
        inside.trans_le (computed.resolve_left Bool.false_ne_true)
      rw [rsiAtOf, rsiAt, if_pos before]
      exact if_pos ((DictNumber.lt_value_iff _ i).mpr before)

theorem length_lt_guard_iff (data : List PriceBar) :
    (data.length : ℚ) < dict.guard ↔ (data.length : ℤ) < dict.ceil.guard := by
  have shifted := dict.bbPeriod.lt_value_iff (data.length - 1)
  rw [Int.cast_sub, Int.cast_natCast, Int.cast_one, sub_lt_iff_lt_add, sub_lt_iff_lt_add] at shifted
  exact shifted

/-- Where the index is computed and the period of the bands is an integer, the dict stands for the
parameters rounded up. -/
theorem emission_eq (root : ℚ → ℚ) (computed : RsiComputed dict data)
    (isBb : dict.bbPeriod.isInt) :
    dict.emission root symbol data = dict.ceil.emission root symbol data := by
  have rsis : (range 0 data.length).mapM (rsiAtOf data dict.rsiPeriod) =
      computeRsi data dict.ceil.rsiPeriod :=
    mapM_congr fun i member => rsiAtOf_eq computed (mem_range_iff.mp member).2
  have bands : (range 0 data.length).mapM (bandAtOf root data dict.bbPeriod dict.bbStd) =
      computeBollinger root data dict.ceil.bbPeriod dict.ceil.bbStd := by
    refine mapM_congr fun i _ => ?_
    change _ = bandAt root data dict.bbPeriod.ceil dict.bbStd i
    cases period : dict.bbPeriod with
    | int n => rw [DictNumber.ceil_int, bandAtOf]
    | float q =>
        rw [period] at isBb
        exact absurd isBb Bool.false_ne_true
  rw [emission, MeanReversionParams.emission, setup, MeanReversionParams.indicators, rsis, bands,
    DictNumber.isInt_iff.mp isBb]
  simp only [length_lt_guard_iff, bind, Except.bind]
  cases computeRsi data dict.ceil.rsiPeriod with
  | error error => rfl
  | ok rsi =>
      cases computeBollinger root data dict.ceil.bbPeriod dict.ceil.bbStd with
      | error error => rfl
      | ok bands => rfl

/-- An index of a float period that some position reaches is not computed. -/
theorem rsi_fails (accepted : dict.validateParams) (reached : ¬ RsiComputed dict data) :
    ∃ error, (range 0 data.length).mapM (rsiAtOf data dict.rsiPeriod) = .error error := by
  obtain ⟨fractional, longer⟩ := not_or.mp reached
  obtain ⟨five, -⟩ := of_decide_eq_true accepted
  have nonneg : 0 ≤ dict.rsiPeriod.ceil := by
    have : (0 : ℚ) ≤ dict.rsiPeriod.ceil :=
      le_trans (by linarith) (Int.le_ceil dict.rsiPeriod.value)
    exact_mod_cast this
  refine mapM_range_error .typeError nonneg (not_le.mp longer) ?_
  cases period : dict.rsiPeriod with
  | int n =>
      rw [period] at fractional
      exact absurd rfl fractional
  | float q => exact if_neg (mt (DictNumber.lt_value_iff (.float q) _).mp (lt_irrefl _))

theorem setup_fails (accepted : dict.validateParams) (root : ℚ → ℚ)
    (incomplete : ¬ (RsiComputed dict data ∧ dict.bbPeriod.isInt)) :
    ∃ error, dict.setup root data = .error error := by
  unfold setup
  by_cases computed : RsiComputed dict data
  · rw [DictNumber.index_of_not_isInt fun isInt => incomplete ⟨computed, isInt⟩]
    cases (range 0 data.length).mapM (rsiAtOf data dict.rsiPeriod) with
    | error error => exact ⟨error, rfl⟩
    | ok rsi =>
        cases (range 0 data.length).mapM (bandAtOf root data dict.bbPeriod dict.bbStd) with
        | error error => exact ⟨error, rfl⟩
        | ok bands => exact ⟨.typeError, rfl⟩
  · obtain ⟨error, fails⟩ := rsi_fails accepted computed
    rw [fails]
    exact ⟨error, rfl⟩

theorem returnsBounded_iff (accepted : dict.validateParams) (root : ℚ → ℚ)
    (sound : ∀ bar ∈ data, bar.Sound) :
    (dict.emission root symbol data).ReturnsBounded ↔
      (dict.guard ≤ data.length → RsiComputed dict data ∧ dict.bbPeriod.isInt) := by
  by_cases short : (data.length : ℚ) < dict.guard
  · rw [emission, if_pos short]
    exact iff_of_true (Strategy.returnsBounded_iff.mpr rfl) fun enough => absurd short enough.not_gt
  have enough := not_lt.mp short
  rw [imp_iff_right enough]
  by_cases complete : RsiComputed dict data ∧ dict.bbPeriod.isInt
  · rw [emission_eq root complete.1 complete.2]
    exact iff_of_true (MeanReversionParams.returnsBounded (validateParams_ceil accepted) root sound)
      complete
  · rw [emission, if_neg short]
    exact iff_of_false (not_returnsBounded_loopAfter (setup_fails accepted root complete))
      complete

end MeanReversionDict

/-! ## Trend following -/

/-- The dict of a trend following strategy. -/
abbrev TrendDict := TrendParamsOf DictNumber

/-- `get_default_params`. -/
def defaultTrendDict : TrendDict where
  strategyId := some "trend_following"
  shortMaPeriod := some (.int 10)
  longMaPeriod := some (.int 30)
  momentumWindow := some (.int 20)
  momentumThreshold := some (2 / 100)
  strengthMultiplier := some 1

/-- An entry of `_compute_ma`. -/
def maAtOf (data : List PriceBar) (period : DictNumber) (i : ℤ) : Except BuilderError Extended :=
  match period with
  | .int n => maAt data n i
  | .float q => if i < q - 1 then return .nan else .error .typeError

namespace TrendDict

variable (dict : TrendDict)

/-- The parameters with the periods rounded up, which compare with a position alike. -/
def ceil : TrendParams :=
  { dict with
    shortMaPeriod := dict.shortMaPeriod.map DictNumber.ceil
    longMaPeriod := dict.longMaPeriod.map DictNumber.ceil
    momentumWindow := dict.momentumWindow.map DictNumber.ceil }

def momWindow : DictNumber := dict.momentumWindow.getD (.int 20)

/-- `validate_params`. -/
def validateParams : Bool :=
  1 < (dict.shortMaPeriod.getD (.int 10)).value ∧
    (dict.shortMaPeriod.getD (.int 10)).value < (dict.longMaPeriod.getD (.int 30)).value ∧
      5 ≤ dict.momWindow.value

/-- The bars that `generate_signals` asks for. -/
def guard : ℚ := (dict.longMaPeriod.getD (.int 30)).value

/-- The moving averages that `generate_signals` computes ahead of its loop. -/
def averages (data : List PriceBar) : Except BuilderError (List Extended × List Extended) := do
  let shortPeriod ← required "short_ma_period" dict.shortMaPeriod
  let shortMa ← (range 0 data.length).mapM (maAtOf data shortPeriod)
  let longPeriod ← required "long_ma_period" dict.longMaPeriod
  let longMa ← (range 0 data.length).mapM (maAtOf data longPeriod)
  return (shortMa, longMa)

/-- The strength of a cross, by the momentum over the window if there is one. -/
def momentumStrength (data : List PriceBar) (direction : Direction) (i : ℤ) :
    Except BuilderError ℚ :=
  match dict.momWindow with
  | .int _ => dict.ceil.momentumStrength data direction i
  | .float q => if q ≤ i then do
      let _ ← readItem data i
      .error .typeError
    else return 1 / 2

/-- `generate_signals`. -/
def emission (symbol : String) (data : List PriceBar) : Emission :=
  if (data.length : ℚ) < dict.guard then ([], none)
  else loopAfter (dict.averages data) fun computed =>
    emit (dict.ceil.signalWith (dict.momentumStrength data) symbol data computed.1 computed.2)
      (range 1 data.length)

/-- The keys of both periods hold integers, and so does the window, unless the averages cross
nowhere behind it. -/
def Complete (data : List PriceBar) : Prop :=
  ∃ short long : ℤ, dict.shortMaPeriod = some (.int short) ∧
    dict.longMaPeriod = some (.int long) ∧
      (dict.momWindow.isInt ∨ ∀ i direction, long ≤ i → dict.momWindow.ceil ≤ i →
        i < data.length → ¬ TrendParams.CrossesAt data short long i direction)

variable {dict} {data : List PriceBar} {symbol : String}

/-- An average of a float period that is no longer than the list is not computed. -/
theorem ma_fails {q : ℚ} (positive : 1 < q) (enough : q ≤ data.length) :
    ∃ error, (range 0 data.length).mapM (maAtOf data (.float q)) = .error error := by
  have bars : (1 : ℤ) ≤ data.length := by exact_mod_cast (positive.le.trans enough)
  refine mapM_range_error (i := data.length - 1) .typeError (by omega) (by omega) ?_
  refine if_neg ?_
  push_cast
  linarith

theorem averages_eq {short long : ℤ} (shortKey : dict.shortMaPeriod = some (.int short))
    (longKey : dict.longMaPeriod = some (.int long)) :
    dict.averages data = dict.ceil.averages data := by
  simp only [averages, TrendParams.averages, ceil, shortKey, longKey, Option.map_some,
    DictNumber.ceil_int, required, bind, Except.bind]
  rfl

/-- Without integers at both keys the averages are not computed. -/
theorem averages_fails (accepted : dict.validateParams) (enough : dict.guard ≤ data.length)
    (incomplete : ¬ ∃ short long : ℤ, dict.shortMaPeriod = some (.int short) ∧
      dict.longMaPeriod = some (.int long)) :
    ∃ error, dict.averages data = .error error := by
  obtain ⟨positive, ordered, -⟩ := of_decide_eq_true accepted
  unfold averages
  unfold guard at enough
  cases shortKey : dict.shortMaPeriod with
  | none => exact ⟨.keyError "short_ma_period", rfl⟩
  | some shortPeriod =>
      rw [shortKey, Option.getD_some] at positive ordered
      simp only [required, bind, Except.bind]
      cases shorts : (range 0 data.length).mapM (maAtOf data shortPeriod) with
      | error error => exact ⟨error, rfl⟩
      | ok shortMa =>
          cases longKey : dict.longMaPeriod with
          | none => exact ⟨.keyError "long_ma_period", rfl⟩
          | some longPeriod =>
              rw [longKey, Option.getD_some] at ordered enough
              cases longPeriod with
              | float q =>
                  obtain ⟨error, fails⟩ := ma_fails (q := q) (positive.trans ordered) enough
                  simp only [fails]
                  exact ⟨error, rfl⟩
              | int long =>
                  cases shortPeriod with
                  | int short => exact absurd ⟨short, long, shortKey, longKey⟩ incomplete
                  | float q =>
                      obtain ⟨error, fails⟩ :=
                        ma_fails (q := q) positive (ordered.le.trans enough)
                      rw [fails] at shorts
                      cases shorts

theorem exists_momentumStrength_iff (typed : dict.ceil.validateParams)
    (sound : ∀ bar ∈ data, bar.Sound) (direction : Direction) {i : ℤ} (nonneg : 0 ≤ i)
    (inside : i < data.length) :
    (∃ strength, dict.momentumStrength data direction i = .ok strength) ↔
      dict.momWindow.isInt ∨ i < dict.momWindow.ceil := by
  unfold momentumStrength
  cases window : dict.momWindow with
  | int n =>
      exact iff_of_true (TrendParams.exists_momentumStrength typed sound direction inside)
        (.inl rfl)
  | float q =>
      obtain ⟨bar, read, -⟩ := exists_sound sound i (by omega) inside
      rw [← DictNumber.lt_value_iff]
      change (∃ strength, (if q ≤ i then _ else _) = _) ↔ false = true ∨ (i : ℚ) < q
      by_cases reached : q ≤ i
      · rw [if_pos reached, read]
        exact iff_of_false (fun ⟨_, returned⟩ => nomatch returned)
          (not_or.mpr ⟨Bool.false_ne_true, not_lt.mpr reached⟩)
      · rw [if_neg reached]
        exact iff_of_true ⟨_, rfl⟩ (.inr (not_le.mp reached))

theorem validateParams_ceil (accepted : dict.validateParams) {short long : ℤ}
    (shortKey : dict.shortMaPeriod = some (.int short))
    (longKey : dict.longMaPeriod = some (.int long)) : dict.ceil.validateParams := by
  obtain ⟨positive, ordered, window⟩ := of_decide_eq_true accepted
  rw [shortKey, Option.getD_some, DictNumber.value_int] at positive ordered
  rw [longKey, Option.getD_some, DictNumber.value_int] at ordered
  refine decide_eq_true ⟨?_, ?_, ?_⟩
  · rw [ceil, shortKey, Option.map_some, Option.getD_some, DictNumber.ceil_int]
    exact_mod_cast positive
  · rw [ceil, shortKey, longKey, Option.map_some, Option.map_some, Option.getD_some,
      Option.getD_some, DictNumber.ceil_int, DictNumber.ceil_int]
    exact_mod_cast ordered
  · rw [ceil]
    unfold momWindow at window
    cases key : dict.momentumWindow with
    | none => exact (by decide : (5 : ℤ) ≤ 20)
    | some number =>
        rw [key, Option.getD_some] at window
        rw [Option.map_some, Option.getD_some]
        exact_mod_cast window.trans (Int.le_ceil number.value)

theorem returnsBounded_iff (accepted : dict.validateParams)
    (sound : ∀ bar ∈ data, bar.Sound) :
    (dict.emission symbol data).ReturnsBounded ↔
      (dict.guard ≤ data.length → dict.Complete data) := by
  by_cases few : (data.length : ℚ) < dict.guard
  · rw [emission, if_pos few]
    exact iff_of_true (Strategy.returnsBounded_iff.mpr rfl) fun enough => absurd few enough.not_gt
  have enough := not_lt.mp few
  rw [imp_iff_right enough, emission, if_neg few]
  by_cases keys : ∃ short long : ℤ, dict.shortMaPeriod = some (.int short) ∧
      dict.longMaPeriod = some (.int long)
  · obtain ⟨short, long, shortKey, longKey⟩ := keys
    have typed := validateParams_ceil accepted shortKey longKey
    obtain ⟨missing, -⟩ | ⟨short', long', positive, ordered, key, key', made⟩ :=
      TrendParams.averages_cases typed
    · rw [ceil, shortKey, longKey] at missing
      rcases missing with missing | missing <;> cases missing
    · have sameShort : short' = short := by
        rw [ceil, shortKey, Option.map_some, DictNumber.ceil_int] at key
        exact (Option.some.inj key).symm
      have sameLong : long' = long := by
        rw [ceil, longKey, Option.map_some, DictNumber.ceil_int] at key'
        exact (Option.some.inj key').symm
      subst sameShort sameLong
      obtain ⟨shortMa, longMa, computed, shortMade, longMade⟩ := made data
      rw [averages_eq shortKey longKey, computed, loopAfter,
        TrendParams.returnsBounded_loop_iff positive ordered key' shortMade longMade]
      constructor
      · intro strong
        refine ⟨short', long', shortKey, longKey, ?_⟩
        by_contra fails
        obtain ⟨fractional, crosses⟩ := not_or.mp fails
        refine crosses fun i direction late reached inside crossed => ?_
        have found := (exists_momentumStrength_iff typed sound direction (by omega) inside).mp
          (strong i direction late inside crossed)
        exact absurd (found.resolve_left fractional) (not_lt.mpr reached)
      · rintro ⟨short, long, shortKey', longKey', windows⟩ i direction late inside crossed
        rw [shortKey] at shortKey'
        rw [longKey] at longKey'
        cases shortKey'
        cases longKey'
        refine (exists_momentumStrength_iff typed sound direction (by omega) inside).mpr ?_
        refine windows.imp_right fun nowhere => ?_
        by_contra reached
        exact nowhere i direction late (not_lt.mp reached) inside crossed
  · refine iff_of_false (not_returnsBounded_loopAfter (averages_fails accepted enough keys)) ?_
    rintro ⟨short, long, shortKey, longKey, -⟩
    exact keys ⟨short, long, shortKey, longKey⟩

end TrendDict

/-! ## All builders -/

/-- A builder with the dict that it was given; no dict, or an empty one, stands for the defaults. -/
inductive BuilderDict where
  | trend (given : Option TrendDict)
  | meanReversion (dict : MeanReversionDict)
  | breakout (dict : BreakoutDict)
  | reversal (dict : ReversalDict)

namespace BuilderDict

/-- `validate_params` of the dict. -/
def accepts : BuilderDict → Bool
  | trend given => (given.getD {}).validateParams
  | meanReversion dict => dict.validateParams
  | breakout dict => dict.validateParams
  | reversal dict => dict.validateParams

/-- The bars that `generate_signals` asks for. -/
def guard : BuilderDict → ℚ
  | trend given => (given.getD defaultTrendDict).guard
  | meanReversion dict => dict.guard
  | breakout dict => dict.guard
  | reversal dict => dict.guard

/-- What `generate_signals` appends, and the error that ends it. -/
def emission (builder : BuilderDict) (root : ℚ → ℚ) (symbol : String) (data : List PriceBar) :
    Emission :=
  match builder with
  | trend given => (given.getD defaultTrendDict).emission symbol data
  | meanReversion dict => dict.emission root symbol data
  | breakout dict => dict.emission symbol data
  | reversal dict => dict.emission symbol data

/-- On a list that is long enough for its guard, a builder has integers where it needs them; a
breakout builder has a volume period that is not above its lookback period as well, and a trend
builder has the keys of both periods. -/
def Complete (builder : BuilderDict) (data : List PriceBar) : Prop :=
  builder.guard ≤ data.length →
    match builder with
    | trend given => (given.getD defaultTrendDict).Complete data
    | meanReversion dict => dict.RsiComputed data ∧ dict.bbPeriod.isInt
    | breakout dict => dict.lookback.isInt ∧ dict.volPeriod.isInt ∧
        dict.volPeriod.value ≤ dict.lookback.value
    | reversal dict => dict.period.isInt ∧ dict.volPeriod.isInt

end BuilderDict

end TradeOS.Strategy
