import TradeOS.Numeric.Extended
import Mathlib.Algebra.BigOperators.Group.List.Basic

/-!
# The result of a research backtest

`BacktestResult.from_series` makes the equity curve, the total return and the maximal
drawdown from one series of returns. The curve is the cumulative product with its
first value overwritten by one, the drawdown is measured from the highest value so
far, without the capital at the start.

So the three agree with each other only for series that hide the first period:
`fromSeries_consistent_iff` says for which. The square root that the volatility needs
is a parameter.
-/

set_option autoImplicit false

namespace TradeOS.Research

open TradeOS.Numeric TradeOS.Numeric.Extended

/-- A date, as a number. -/
abbrev Date := ℕ

/-- A column with the dates of its values. -/
abbrev Series := List (Date × Extended)

/-- The values of a series. -/
def Series.values (series : Series) : List Extended := series.map Prod.snd

/-- The performance metrics. -/
structure Metrics where
  totalReturn : Extended
  sharpeRatio : Extended
  maxDrawdown : Extended
  winRate : Extended
  annualizedVolatility : Extended
  totalCost : Extended
  totalTransactionCost : Extended
  avgTurnover : Extended

/-- The result of a run. -/
structure BacktestResult where
  returns : Series
  grossReturns : Series
  netReturns : Series
  equityCurve : Series
  positions : List (Date × List (String × Extended))
  turnover : Series
  costs : Series
  metrics : Metrics

/-- The number of periods of a year. -/
def periodsPerYear : ℚ := 252

/-- The volatility of a year. -/
def volatility (sqrt : Extended → Extended) (returns : List Extended) : Extended :=
  sqrt (variance returns) * sqrt (fin periodsPerYear)

/-- The Sharpe ratio, before rounding. -/
def sharpe (sqrt : Extended → Extended) (riskFree : ℚ) (returns : List Extended) : Extended :=
  if lt (fin (1 / 10 ^ 10)) (volatility sqrt returns) then
    (mean returns - fin (riskFree / periodsPerYear)) / sqrt (variance returns) *
      sqrt (fin periodsPerYear)
  else fin 0

/-- The drop of a value below the highest one, as a part of it. -/
def measuredDrop (value highest : Extended) : Extended := (value - highest) / highest

/-- `_compute_metrics`. -/
def computeMetrics (sqrt : Extended → Extended) (riskFree : ℚ)
    (returns turnover costs : List Extended) : Metrics :=
  if returns.isEmpty then ⟨fin 0, fin 0, fin 0, fin 0, fin 0, fin 0, fin 0, fin 0⟩
  else
    let cum := cumprod (returns.map (fin 1 + ·))
    let drawdown := List.zipWith measuredDrop cum (cummax cum)
    let totalCost := if costs.isEmpty then fin 0 else Extended.round 4 (sum costs)
    { totalReturn := Extended.round 8 (prod (returns.map (fin 1 + ·)) - fin 1)
      sharpeRatio := Extended.round 8 (sharpe sqrt riskFree returns)
      maxDrawdown := Extended.round 8 (minimum drawdown)
      winRate := Extended.round 8
        (fin ((returns.filter fun value => lt (fin 0) value).length / returns.length))
      annualizedVolatility := Extended.round 8 (volatility sqrt returns)
      totalCost := totalCost
      totalTransactionCost := totalCost
      avgTurnover := if turnover.isEmpty then fin 0 else Extended.round 8 (mean turnover) }

/-- The equity curve: the cumulative product, with one as its first value. -/
def equityValues (returns : List Extended) : List Extended :=
  (cumprod (returns.map (fin 1 + ·))).set 0 (fin 1)

/-- `BacktestResult.from_series`. -/
def fromSeries (sqrt : Extended → Extended) (riskFree : ℚ) (returns gross net : Series)
    (positions : List (Date × List (String × Extended))) (turnover costs : Series) :
    BacktestResult where
  returns := returns
  grossReturns := gross
  netReturns := net
  equityCurve := (returns.map Prod.fst).zip (equityValues returns.values)
  positions := positions
  turnover := turnover
  costs := costs
  metrics := computeMetrics sqrt riskFree returns.values turnover.values costs.values

/-! ## Consistency -/

/-- The capital after every period, from a capital of one. -/
def capital (returns : List ℚ) : List ℚ := running (· * ·) 1 (returns.map (1 + ·))

/-- The drop of a value below the highest one, as a part of it. -/
def relativeDrop (value highest : ℚ) : ℚ := value / highest - 1

/-- The drawdown after every period, from the highest capital so far, which is one at
the start. -/
def drawdowns (returns : List ℚ) : List ℚ :=
  List.zipWith relativeDrop (capital returns)
    (running max 1 (capital returns))

/-- What the series of a result should satisfy, up to the rounding to 8 digits: the curve
follows the returns, its last value is the total return, and the maximal drawdown is the
least drawdown from the start. -/
structure Consistent (result : BacktestResult) (returns : List ℚ) : Prop where
  curve : ∀ k before here value, result.equityCurve.values[k]? = some before →
    result.equityCurve.values[k + 1]? = some here → returns[k + 1]? = some value →
    here = before * fin (1 + value)
  last : ∀ value, result.equityCurve.values.getLast? = some value →
    result.metrics.totalReturn = Extended.round 8 (value - fin 1)
  drawdown : ∃ least ∈ drawdowns returns, (∀ other ∈ drawdowns returns, least ≤ other) ∧
    result.metrics.maxDrawdown = fin (roundTo 8 least)

/-- The first period leaves no trace: it is the only one and rounds to zero, or its return
is zero, or the second period loses everything that the first one left. -/
def FirstPeriodSilent : List ℚ → Prop
  | [] => True
  | [first] => roundTo 8 first = 0
  | first :: second :: _ => first = 0 ∨ (second = -1 ∧ -1 < first)

/-! ## The series of a result -/

section Finite

variable {sqrt : Extended → Extended} {riskFree : ℚ} {returns gross net : Series}
  {positions : List (Date × List (String × Extended))} {turnover costs : Series}

theorem cumprod_eq_capital (rates : List ℚ) :
    cumprod ((rates.map fin).map (fin 1 + ·)) = (capital rates).map fin := by
  have shifted : (rates.map fin).map (fin 1 + ·) = (rates.map (1 + ·)).map fin := by
    rw [List.map_map, List.map_map]
    rfl
  rw [shifted, cumprod_map_fin, capital]

theorem capital_cons (rate : ℚ) (rates : List ℚ) :
    capital (rate :: rates) =
      (1 + rate) :: running (· * ·) (1 + rate) (rates.map (1 + ·)) := by
  rw [capital, List.map_cons, running, one_mul]

theorem equityValues_cons (rate : ℚ) (rates : List ℚ) :
    equityValues ((rate :: rates).map fin) =
      fin 1 :: (running (· * ·) (1 + rate) (rates.map (1 + ·))).map fin := by
  rw [equityValues, cumprod_eq_capital, capital_cons]
  rfl

variable {rate : ℚ} {rates : List ℚ} (finite : returns.values = (rate :: rates).map fin)

include finite

/-- The values of the equity curve. -/
theorem equityCurve_values :
    (fromSeries sqrt riskFree returns gross net positions turnover costs).equityCurve.values =
      fin 1 :: (running (· * ·) (1 + rate) (rates.map (1 + ·))).map fin := by
  have lengths : (equityValues returns.values).length ≤ (returns.map Prod.fst).length := by
    have same : returns.length = (rate :: rates).length := by
      simpa [Series.values] using congrArg List.length finite
    rw [finite, equityValues_cons, List.length_map, same]
    simp
  have values : ((returns.map Prod.fst).zip (equityValues returns.values)).map Prod.snd =
      equityValues returns.values := List.map_snd_zip lengths
  rw [fromSeries, Series.values, values, finite, equityValues_cons]

theorem totalReturn_eq :
    (fromSeries sqrt riskFree returns gross net positions turnover costs).metrics.totalReturn =
      fin (roundTo 8 (((rate :: rates).map (1 + ·)).prod - 1)) := by
  have shifted : ((rate :: rates).map fin).map (fin 1 + ·) =
      ((rate :: rates).map (1 + ·)).map fin := by
    rw [List.map_map, List.map_map]
    rfl
  rw [fromSeries, finite, computeMetrics, if_neg (by simp)]
  dsimp only
  rw [shifted, prod_map_fin, fin_sub]
  rfl

/-- The drawdown of the code, from the highest capital so far without the start. -/
theorem maxDrawdown_eq :
    (fromSeries sqrt riskFree returns gross net positions turnover costs).metrics.maxDrawdown =
      Extended.round 8 (minimum (List.zipWith measuredDrop
        ((capital (rate :: rates)).map fin)
        (((1 + rate) :: running max (1 + rate)
          (running (· * ·) (1 + rate) (rates.map (1 + ·)))).map fin))) := by
  rw [fromSeries, finite, computeMetrics, if_neg (by simp)]
  dsimp only
  rw [cumprod_eq_capital, capital_cons, cummax_map_fin]

/-- With a positive capital after the first period the drawdown is a least number. -/
theorem maxDrawdown_of_pos (positive : 0 < 1 + rate) :
    ∃ least ∈ List.zipWith relativeDrop (capital (rate :: rates))
        ((1 + rate) :: running max (1 + rate)
          (running (· * ·) (1 + rate) (rates.map (1 + ·)))),
      (∀ other ∈ List.zipWith relativeDrop (capital (rate :: rates))
        ((1 + rate) :: running max (1 + rate)
          (running (· * ·) (1 + rate) (rates.map (1 + ·)))), least ≤ other) ∧
      (fromSeries sqrt riskFree returns gross net positions turnover costs).metrics.maxDrawdown =
        fin (roundTo 8 least) := by
  rw [maxDrawdown_eq finite]
  set highs := running max (1 + rate) (running (· * ·) (1 + rate) (rates.map (1 + ·)))
  have nonzero : ∀ high ∈ (1 + rate) :: highs, high ≠ 0 := by
    intro high member
    rcases List.mem_cons.mp member with rfl | later
    · exact positive.ne'
    · exact (positive.trans_le (le_of_mem_running_max later)).ne'
  rw [zipWith_map_fin relativeDrop fun value high member => by
      rw [measuredDrop, relativeDrop, fin_sub, fin_div (nonzero high member), sub_div,
        div_self (nonzero high member)]]
  rw [capital_cons, List.zipWith_cons_cons, minimum_map_fin]
  obtain ⟨member, least⟩ := foldl_min_spec ((1 + rate) / (1 + rate) - 1)
    (List.zipWith relativeDrop
      (running (· * ·) (1 + rate) (rates.map (1 + ·))) highs)
  exact ⟨_, member, least, rfl⟩

end Finite

/-! ## When the series agree -/

theorem roundTo_zero (digits : ℕ) : roundTo digits 0 = 0 := by
  simp [roundTo, roundHalfEven]

/-- A number at most minus one rounds to such a number. -/
theorem roundTo_le_neg_one {q : ℚ} (small : q ≤ -1) : roundTo 8 q ≤ -1 := by
  have unit : ((-(10 ^ 8) : ℤ) : ℚ) / 10 ^ 8 = -1 := by norm_num
  rw [← unit] at small ⊢
  exact roundTo_le_of_le 8 _ small

theorem running_mul_zero (xs : List ℚ) : ∀ x ∈ running (· * ·) 0 xs, x = 0 := by
  induction xs with
  | nil => exact fun x member => absurd member List.not_mem_nil
  | cons y ys ih =>
      intro x member
      rw [running, zero_mul] at member
      rcases List.mem_cons.mp member with rfl | later
      · rfl
      · exact ih x later

section Consistency

variable {sqrt : Extended → Extended} {riskFree : ℚ} {returns gross net : Series}
  {positions : List (Date × List (String × Extended))} {turnover costs : Series}
  {first second : ℚ} {rates : List ℚ}

/-- A single period. -/
theorem consistent_single_iff (finite : returns.values = [first].map fin) :
    Consistent (fromSeries sqrt riskFree returns gross net positions turnover costs) [first] ↔
      roundTo 8 first = 0 := by
  set result := fromSeries sqrt riskFree returns gross net positions turnover costs
  have curve : result.equityCurve.values = _ := equityCurve_values finite
  have total : result.metrics.totalReturn = _ := totalReturn_eq finite
  have product : ([first].map (1 + ·)).prod - 1 = first := by simp
  rw [product] at total
  constructor
  · intro consistent
    have rounded := consistent.last (fin 1) (by rw [curve]; rfl)
    rw [total, fin_sub, sub_self, Extended.round, roundTo_zero] at rounded
    exact Extended.fin.inj rounded
  · intro silent
    have positive : 0 < 1 + first := by
      by_contra lost
      have small := roundTo_le_neg_one (q := first) (by linarith)
      rw [silent] at small
      norm_num at small
    refine ⟨fun k before here value _ _ rate => ?_, fun value last => ?_, ?_⟩
    · cases rate
    · rw [curve] at last
      obtain rfl : fin 1 = value := Option.some.inj last
      rw [total, silent, fin_sub, sub_self, Extended.round, roundTo_zero]
    · obtain ⟨least, member, _, drawdown⟩ :
          ∃ least ∈ _, _ ∧ result.metrics.maxDrawdown = fin (roundTo 8 least) :=
        maxDrawdown_of_pos finite positive
      obtain rfl : least = 0 := by
        simpa [capital, running, relativeDrop, positive.ne'] using member
      have only : drawdowns [first] = [(1 + first) / max 1 (1 + first) - 1] := by
        simp [drawdowns, capital, running, relativeDrop]
      rw [only, drawdown, roundTo_zero]
      refine ⟨_, List.mem_singleton.mpr rfl, fun other single => ?_, ?_⟩
      · rw [List.mem_singleton.mp single]
      · rcases le_total 0 first with gain | loss
        · rw [max_eq_right (by linarith), div_self positive.ne', sub_self, roundTo_zero]
        · rw [max_eq_left (by linarith), div_one, add_sub_cancel_left, silent]

/-- With two periods or more the curve follows the returns exactly when the first return
is zero or the second one is a total loss. -/
theorem curve_iff (finite : returns.values = (first :: second :: rates).map fin) :
    (∀ k before here value,
        (fromSeries sqrt riskFree returns gross net positions turnover costs).equityCurve.values[k]? =
          some before →
        (fromSeries sqrt riskFree returns gross net positions turnover
          costs).equityCurve.values[k + 1]? = some here →
        (first :: second :: rates)[k + 1]? = some value → here = before * fin (1 + value)) ↔
      first = 0 ∨ second = -1 := by
  rw [equityCurve_values finite]
  set rest := running (· * ·) (1 + first) ((second :: rates).map (1 + ·)) with tail
  have head : rest[0]? = some ((1 + first) * (1 + second)) := rfl
  have start : (1 + first) * (1 + second) = 1 * (1 + second) ↔ first = 0 ∨ second = -1 := by
    rw [← sub_eq_zero]
    have factored : (1 + first) * (1 + second) - 1 * (1 + second) = first * (1 + second) := by ring
    rw [factored, mul_eq_zero]
    constructor
    · rintro (zero | lost)
      · exact .inl zero
      · exact .inr (by linarith)
    · rintro (zero | lost)
      · exact .inl zero
      · exact .inr (by linarith)
  constructor
  · intro follows
    have next := follows 0 (fin 1) (fin ((1 + first) * (1 + second))) second rfl
      (by rw [List.getElem?_cons_succ, List.getElem?_map, head]; rfl) rfl
    exact start.mp (Extended.fin.inj next)
  · intro silent k before here value previous current rate
    cases k with
    | zero =>
        obtain rfl : fin 1 = before := Option.some.inj previous
        obtain rfl : second = value := Option.some.inj rate
        rw [List.getElem?_cons_succ, List.getElem?_map, head] at current
        obtain rfl : fin ((1 + first) * (1 + second)) = here := Option.some.inj current
        rw [start.mpr silent]
        rfl
    | succ k =>
        rw [List.getElem?_cons_succ, List.getElem?_map] at previous current
        obtain ⟨a, earlier, rfl⟩ := Option.map_eq_some_iff.mp previous
        obtain ⟨b, later, rfl⟩ := Option.map_eq_some_iff.mp current
        have shifted : ((second :: rates).map (1 + ·))[k + 1]? = some (1 + value) := by
          rw [List.getElem?_map]
          exact congrArg (Option.map (1 + ·)) rate
        rw [running_succ earlier later shifted]
        rfl

/-- With two periods or more the last value of the curve is the total return. -/
theorem last_eq (finite : returns.values = (first :: second :: rates).map fin) (value : Extended)
    (last : (fromSeries sqrt riskFree returns gross net positions turnover
      costs).equityCurve.values.getLast? = some value) :
    (fromSeries sqrt riskFree returns gross net positions turnover costs).metrics.totalReturn =
      Extended.round 8 (value - fin 1) := by
  have product := getLast?_running_mul (1 + first) (1 + second) (rates.map (1 + ·))
  rw [equityCurve_values finite, List.getLast?_cons, List.getLast?_map, List.map_cons,
    product] at last
  obtain rfl := Option.some.inj last
  rw [totalReturn_eq finite, Option.map_some, Option.getD_some, fin_sub, ← List.map_cons,
    ← List.prod_cons, ← List.map_cons]
  rfl

/-- Without a first return the drawdowns are measured from the start. -/
theorem drawdown_of_zero (finite : returns.values = (0 :: rates).map fin) :
    ∃ least ∈ drawdowns (0 :: rates), (∀ other ∈ drawdowns (0 :: rates), least ≤ other) ∧
      (fromSeries sqrt riskFree returns gross net positions turnover costs).metrics.maxDrawdown =
        fin (roundTo 8 least) := by
  have same : drawdowns (0 :: rates) =
      List.zipWith relativeDrop (capital (0 :: rates))
        ((1 + 0) :: running max (1 + 0) (running (· * ·) (1 + 0) (rates.map (1 + ·)))) := by
    rw [drawdowns, capital_cons, running, add_zero, max_self]
  rw [same]
  exact maxDrawdown_of_pos finite (by norm_num)

/-- After a total loss there is no capital. -/
theorem capital_of_loss (first : ℚ) (rates : List ℚ) :
    ∃ rest, running (· * ·) (1 + first) ((-1 :: rates).map (1 + ·)) = 0 :: rest ∧
      ∀ value ∈ 0 :: rest, value = 0 := by
  refine ⟨running (· * ·) 0 (rates.map (1 + ·)), ?_, ?_⟩
  · rw [List.map_cons, running, add_neg_cancel, mul_zero]
  · intro value member
    rcases List.mem_cons.mp member with rfl | later
    · rfl
    · exact running_mul_zero _ value later

theorem relativeDrop_zero (highest : ℚ) : relativeDrop 0 highest = -1 := by
  rw [relativeDrop, zero_div, zero_sub]

/-- Without capital the drawdown is complete, whatever it is measured from. -/
theorem zipWith_drawdown_of_loss {rest highs : List ℚ} (lost : ∀ value ∈ rest, value = 0) :
    ∀ drawdown ∈ List.zipWith relativeDrop rest highs,
      drawdown = (-1 : ℚ) := by
  induction rest generalizing highs with
  | nil => exact fun drawdown member => absurd member List.not_mem_nil
  | cons value rest ih =>
      cases highs with
      | nil => exact fun drawdown member => absurd member List.not_mem_nil
      | cons high highs =>
          intro drawdown member
          rcases List.mem_cons.mp member with rfl | later
          · rw [lost value List.mem_cons_self, relativeDrop_zero]
          · exact ih (fun other listed => lost other (List.mem_cons_of_mem value listed)) drawdown
              later

/-- A total loss in the second period, with capital left by the first. -/
theorem drawdown_of_loss (positive : 0 < 1 + first)
    (finite : returns.values = (first :: -1 :: rates).map fin) :
    ∃ least ∈ drawdowns (first :: -1 :: rates),
      (∀ other ∈ drawdowns (first :: -1 :: rates), least ≤ other) ∧
      (fromSeries sqrt riskFree returns gross net positions turnover costs).metrics.maxDrawdown =
        fin (roundTo 8 least) := by
  obtain ⟨rest, tail, lost⟩ := capital_of_loss first rates
  -- Both lists of drawdowns start above minus one, and go on with minus one.
  have deepest : ∀ (high : ℚ) (highs : List ℚ), 0 < high →
      (-1 : ℚ) ∈ List.zipWith relativeDrop ((1 + first) :: 0 :: rest)
        (high :: max high 0 :: highs) ∧
      ∀ drawdown ∈ List.zipWith relativeDrop
        ((1 + first) :: 0 :: rest) (high :: max high 0 :: highs), -1 ≤ drawdown := by
    intro high highs above
    refine ⟨List.mem_cons_of_mem _ ?_, fun drawdown member => ?_⟩
    · exact List.mem_cons.mpr (.inl (relativeDrop_zero _).symm)
    · rcases List.mem_cons.mp member with rfl | later
      · have ratio := div_pos positive above
        rw [relativeDrop]
        linarith
      · exact (zipWith_drawdown_of_loss lost drawdown later).ge
  obtain ⟨least, member, bound, drawdown⟩ : ∃ least ∈ _, (∀ other ∈ _, least ≤ other) ∧
      (fromSeries sqrt riskFree returns gross net positions turnover costs).metrics.maxDrawdown =
        fin (roundTo 8 least) := maxDrawdown_of_pos finite positive
  rw [capital_cons, tail, running] at member bound
  obtain ⟨listed, above⟩ := deepest (1 + first) _ positive
  obtain rfl : least = -1 := le_antisymm (bound _ listed) (above _ member)
  refine ⟨-1, ?_, ?_, drawdown⟩
  · rw [drawdowns, capital_cons, tail, running, running]
    exact (deepest _ _ (positive.trans_le (le_max_right _ _))).1
  · rw [drawdowns, capital_cons, tail, running, running]
    exact (deepest _ _ (positive.trans_le (le_max_right _ _))).2

theorem running_max_of_zeros {values : List ℚ} (zeros : ∀ value ∈ values, value = 0) {start : ℚ}
    (below : start ≤ 0) : ∀ high ∈ running max start values, high = 0 := by
  induction values generalizing start with
  | nil => exact fun high member => absurd member List.not_mem_nil
  | cons value values ih =>
      intro high member
      have zero := zeros value List.mem_cons_self
      rw [running, zero, max_eq_right below] at member
      rcases List.mem_cons.mp member with rfl | later
      · rfl
      · exact ih (fun other listed => zeros other (List.mem_cons_of_mem value listed)) (le_refl 0)
          high later

/-- Nothing is no part of nothing. -/
theorem zipWith_measuredDrop_of_zeros {values highs : List ℚ} (zeros : ∀ value ∈ values, value = 0)
    (noughts : ∀ high ∈ highs, high = 0) :
    ∀ drawdown ∈ List.zipWith measuredDrop (values.map fin) (highs.map fin), drawdown = nan := by
  intro drawdown member
  rw [List.zipWith_map, List.mem_iff_getElem] at member
  obtain ⟨k, bound, rfl⟩ := member
  rw [List.getElem_zipWith, zeros _ (List.getElem_mem _), noughts _ (List.getElem_mem _),
    measuredDrop, fin_sub, sub_self]
  rfl

/-- A total loss in the second period, with no capital left by the first: the code has
nothing to measure the drawdown from. -/
theorem drawdown_undefined (spent : 1 + first ≤ 0)
    (finite : returns.values = (first :: -1 :: rates).map fin) :
    (fromSeries sqrt riskFree returns gross net positions turnover costs).metrics.maxDrawdown = nan ∨
      (fromSeries sqrt riskFree returns gross net positions turnover costs).metrics.maxDrawdown =
        fin 0 := by
  obtain ⟨rest, tail, lost⟩ := capital_of_loss first rates
  have values : ∀ drawdown ∈ List.zipWith measuredDrop
      ((capital (first :: -1 :: rates)).map fin)
      (((1 + first) :: running max (1 + first) (0 :: rest)).map fin),
      drawdown = nan ∨ drawdown = fin 0 := by
    rw [capital_cons, tail]
    intro drawdown member
    rcases List.mem_cons.mp member with rfl | later
    · rw [measuredDrop, fin_sub, sub_self]
      by_cases zero : 1 + first = 0
      · rw [zero]
        exact .inl rfl
      · rw [fin_div zero, zero_div]
        exact .inr rfl
    · have highs := running_max_of_zeros lost spent
      exact .inl (zipWith_measuredDrop_of_zeros lost highs drawdown later)
  rw [maxDrawdown_eq finite, tail]
  rcases minimum_mem (List.zipWith measuredDrop
      ((capital (first :: -1 :: rates)).map fin)
      (((1 + first) :: running max (1 + first) (0 :: rest)).map fin)) with none | member
  · rw [none]
    exact .inl rfl
  · rcases values _ member with none | zero
    · rw [none]
      exact .inl rfl
    · rw [zero, Extended.round, roundTo_zero]
      exact .inr rfl

/-- After a total loss the drawdown from the start is complete. -/
theorem neg_one_mem_drawdowns (first : ℚ) (rates : List ℚ) :
    (-1 : ℚ) ∈ drawdowns (first :: -1 :: rates) := by
  obtain ⟨rest, tail, _⟩ := capital_of_loss first rates
  rw [drawdowns, capital_cons, tail, running, running]
  refine List.mem_cons_of_mem _ (List.mem_cons.mpr (.inl ?_))
  exact (relativeDrop_zero _).symm

/-- **The series of a result agree exactly when the first period leaves no trace.** -/
theorem fromSeries_consistent_iff (finite : returns.values = rates.map fin)
    (nonempty : rates ≠ []) :
    Consistent (fromSeries sqrt riskFree returns gross net positions turnover costs) rates ↔
      FirstPeriodSilent rates := by
  match rates with
  | [] => exact absurd rfl nonempty
  | [first] => exact consistent_single_iff finite
  | first :: second :: rest =>
      constructor
      · intro consistent
        rcases (curve_iff finite).mp consistent.curve with zero | rfl
        · exact .inl zero
        · refine .inr ⟨rfl, ?_⟩
          by_contra spent
          obtain ⟨least, _, bound, drawdown⟩ := consistent.drawdown
          have small := roundTo_le_neg_one (bound _ (neg_one_mem_drawdowns first rest))
          rcases drawdown_undefined (by linarith) finite with none | zero
          · cases none.symm.trans drawdown
          · have rounded : (0 : ℚ) = roundTo 8 least :=
              Extended.fin.inj (zero.symm.trans drawdown)
            linarith
      · rintro (rfl | ⟨rfl, left⟩)
        · exact ⟨(curve_iff finite).mpr (.inl rfl), last_eq finite, drawdown_of_zero finite⟩
        · exact ⟨(curve_iff finite).mpr (.inr rfl), last_eq finite,
            drawdown_of_loss (by linarith) finite⟩

end Consistency

end TradeOS.Research
