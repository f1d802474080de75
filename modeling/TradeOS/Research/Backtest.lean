import TradeOS.Data.Validation
import TradeOS.Data.Adjacent
import TradeOS.Research.Result
import Mathlib.Data.List.Dedup
import Mathlib.Data.List.Sort

/-!
# The research backtest

`BacktestEngine.run` walks through the rebalance dates. For every date after the first
it takes the returns of the assets since the date before, weighs them, subtracts the
costs of the change of weights, and reports the period.

All dates of the schedule have weights and prices, so a run reports one period for
every two adjacent dates (`run_grossReturns`), with the weights of the second one. The
series of the periods agree with each other only when the first period leaves no trace
(`run_consistent_iff`).

A table has one row per date and one column per asset. The functions of the libraries
are parameters: the square root, and the start of the period of a frequency that a date
is in.
-/

set_option autoImplicit false

namespace TradeOS.Research

open TradeOS.Numeric TradeOS.Numeric.Extended

/-! ## Tables -/

/-- A row: the values by column. -/
abbrev Row := String → Extended

/-- A table with one row per date and one column per asset. -/
structure Table where
  columns : List String
  rows : List (Date × Row)
  distinct : columns.Nodup
  nodup : (rows.map Prod.fst).Nodup

namespace Table

/-- The dates of a table. -/
def dates (table : Table) : List Date := table.rows.map Prod.fst

/-- `loc`: the row of a date. -/
def row? (table : Table) (date : Date) : Option Row := table.rows.lookup date

/-- `empty`. -/
def isEmpty (table : Table) : Bool := table.rows.isEmpty || table.columns.isEmpty

theorem row?_eq_some_iff {table : Table} {date : Date} {row : Row} :
    table.row? date = some row ↔ (date, row) ∈ table.rows := by
  constructor
  · intro found
    obtain ⟨before, after, split, _⟩ := List.lookup_eq_some_iff.mp found
    rw [split]
    exact List.mem_append_right before List.mem_cons_self
  · exact Adjacent.lookup_eq_some_of_mem table.nodup

theorem mem_dates_iff {table : Table} {date : Date} :
    date ∈ table.dates ↔ ∃ row, table.row? date = some row := by
  simp [dates, row?_eq_some_iff]

end Table

/-! ## Costs -/

/-- `CostModelConfig`. -/
structure CostModelConfig where
  fixedBps : NonnegRational
  slippageBps : NonnegRational
  minCost : NonnegRational

namespace CostModelConfig

variable (config : CostModelConfig)

/-- `total_cost_bps`. -/
def totalCostBps : ℚ := config.fixedBps.val + config.slippageBps.val

/-- `total_cost_absolute`. -/
def totalCostAbsolute (notional : Extended) : Extended :=
  larger (notional * fin (config.totalCostBps / 10000)) (fin config.minCost.val)

/-- `CostModel.costs_for_period`: the total. -/
def costsForPeriod (columns : List String) (prevWeights newWeights : Row) (capital : Extended) :
    Extended :=
  columns.foldl (fun total asset =>
    let tradeWeight := Extended.abs (newWeights asset - prevWeights asset)
    if lt tradeWeight (fin (1 / 10 ^ 12)) then total
    else total + config.totalCostAbsolute (tradeWeight * capital)) (fin 0)

end CostModelConfig

/-- `CostModel.turnover_rate`. -/
def turnoverRate (columns : List String) (prevWeights newWeights : Row) : Extended :=
  fin (1 / 2) * sum (columns.map fun asset => Extended.abs (newWeights asset - prevWeights asset))

/-! ## The engine -/

/-- What a backtest raises. -/
inductive BacktestError where
  | weightsEmpty
  | pricesEmpty
  | columnsDiffer (weights prices : List String)
  | datesMissing (dates : List Date)
  | zeroDivision
  deriving DecidableEq

/-- `BacktestConfig`. -/
structure BacktestConfig where
  rebalanceFreq : String
  initialCapital : PositiveRational
  riskFreeRate : NonnegRational

/-- A backtest with valid inputs. -/
structure BacktestEngine where
  weights : Table
  prices : Table
  config : BacktestConfig
  costModel : CostModelConfig
  weightsNonempty : weights.isEmpty = false
  pricesNonempty : prices.isEmpty = false
  sameColumns : ∀ asset, asset ∈ weights.columns ↔ asset ∈ prices.columns
  priced : ∀ date ∈ weights.dates, date ∈ prices.dates

/-- `_validate_inputs`. -/
def validateInputs (weights prices : Table) (config : BacktestConfig)
    (costModel : CostModelConfig) : Except BacktestError BacktestEngine :=
  if someWeights : weights.isEmpty = true then .error .weightsEmpty
  else if somePrices : prices.isEmpty = true then .error .pricesEmpty
  else if same : ∀ asset ∈ weights.columns ++ prices.columns,
      asset ∈ weights.columns ↔ asset ∈ prices.columns then
    if priced : ∀ date ∈ weights.dates, date ∈ prices.dates then
      .ok {
        weights := weights
        prices := prices
        config := config
        costModel := costModel
        weightsNonempty := Bool.eq_false_iff.mpr someWeights
        pricesNonempty := Bool.eq_false_iff.mpr somePrices
        sameColumns := fun asset =>
          ⟨fun member => (same asset (List.mem_append_left _ member)).mp member,
            fun member => (same asset (List.mem_append_right _ member)).mpr member⟩
        priced := priced }
    else
      .error (.datesMissing (((weights.dates.filter fun date =>
        date ∉ prices.dates).insertionSort (· ≤ ·)).take 5))
  else .error (.columnsDiffer weights.columns prices.columns)

/-- **The tables that are accepted are those of a backtest.** -/
theorem validateInputs_eq_ok_iff {weights prices : Table} {config : BacktestConfig}
    {costModel : CostModelConfig} {engine : BacktestEngine} :
    validateInputs weights prices config costModel = .ok engine ↔
      engine.weights = weights ∧ engine.prices = prices ∧ engine.config = config ∧
        engine.costModel = costModel := by
  unfold validateInputs
  constructor
  · intro accepted
    split at accepted
    · cases accepted
    split at accepted
    · cases accepted
    split at accepted
    · split at accepted
      · obtain rfl := Except.ok.inj accepted
        exact ⟨rfl, rfl, rfl, rfl⟩
      · cases accepted
    · cases accepted
  · rintro ⟨rfl, rfl, rfl, rfl⟩
    rw [dif_neg (Bool.eq_false_iff.mp engine.weightsNonempty),
      dif_neg (Bool.eq_false_iff.mp engine.pricesNonempty),
      dif_pos fun asset _ => engine.sameColumns asset, dif_pos engine.priced]

/-- One reported period. -/
structure Period where
  date : Date
  gross : Extended
  net : Extended
  turnover : Extended
  cost : Extended
  positions : List (String × Extended)

/-- How far a run is. -/
structure RunState where
  prevWeights : Option Row
  equity : Extended
  periods : List Period

/-- The weights of a date, scaled to a total of one. -/
def normalized (columns : List String) (weights : Row) : Row :=
  let total := sum (columns.map fun asset => Extended.abs (weights asset))
  if le (fin (1 / 10 ^ 10)) total then fun asset => weights asset / total
  else fun asset => fillNan (fin 0) (weights asset)

/-- The return of an asset, zero where it is not a number. -/
def assetReturn (prevPrices currPrices : Row) (asset : String) : Extended :=
  fillNan (fin 0) (currPrices asset / prevPrices asset - fin 1)

/-- The gross return of a period. -/
def grossReturn (columns : List String) (weights prevPrices currPrices : Row) : Extended :=
  sum (columns.map fun asset => weights asset * assetReturn prevPrices currPrices asset)

namespace BacktestEngine

variable (sqrt : Extended → Extended) (periodStart : String → Date → Date)
  (engine : BacktestEngine)

/-- The dates of the rebalance frequency: the weekly one takes the dates of the
weights. -/
def rebalanceDates : List Date :=
  if engine.config.rebalanceFreq ≠ "" ∧ engine.config.rebalanceFreq ≠ "W" then
    (engine.prices.dates.map (periodStart engine.config.rebalanceFreq)).dedup
  else engine.weights.dates

/-- `_build_schedule`. -/
def schedule : List Date :=
  (((engine.rebalanceDates periodStart).filter fun date =>
    date ∈ engine.weights.dates).insertionSort (· ≤ ·)).dedup

/-- `_prices_aligned.loc`. -/
def pricesAligned (date : Date) : Option Row :=
  if date ∈ engine.weights.dates then engine.prices.row? date else none

/-- `_safe_weights`. -/
def safeWeights (date : Date) : Option Row :=
  match engine.weights.row? date with
  | some row => some row
  | none => (engine.weights.rows.filter fun row => row.1 < date).getLast?.map Prod.snd

/-- The report of one period. Dividing by an equity of zero raises. -/
def report (date : Date) (prevWeights currWeights prevPrices currPrices : Row)
    (equity : Extended) : Except BacktestError Period :=
  let gross := grossReturn engine.weights.columns currWeights prevPrices currPrices
  let cost := engine.costModel.costsForPeriod engine.weights.columns prevWeights currWeights equity
  if equity = fin 0 then .error .zeroDivision
  else
    .ok {
      date := date
      gross := gross
      net := gross - cost / equity
      turnover := turnoverRate engine.weights.columns prevWeights currWeights
      cost := cost
      positions := engine.weights.columns.map fun asset => (asset, currWeights asset) }

/-- One date of the loop, with the date before it in the schedule. -/
def visit (prevDate : Option Date) (date : Date) (state : RunState) :
    Except BacktestError RunState :=
  match engine.pricesAligned date, engine.safeWeights date with
  | some currPrices, some weights =>
      let currWeights := normalized engine.weights.columns weights
      match state.prevWeights, prevDate.bind engine.pricesAligned with
      | some prevWeights, some prevPrices => do
          let period ← engine.report date prevWeights currWeights prevPrices currPrices state.equity
          return {
            prevWeights := some currWeights
            equity := state.equity * (fin 1 + period.net)
            periods := state.periods ++ [period] }
      | _, _ => .ok { state with prevWeights := some currWeights }
  | _, _ => .ok state

/-- The loop over the schedule. -/
def walk (prevDate : Option Date) (dates : List Date) (state : RunState) :
    Except BacktestError RunState :=
  match dates with
  | [] => .ok state
  | date :: rest => do
      let next ← engine.visit prevDate date state
      walk (some date) rest next

/-- The state before the first date. -/
def start : RunState := ⟨none, fin engine.config.initialCapital.val, []⟩

/-- The result of the periods. -/
def resultOf (periods : List Period) : BacktestResult :=
  let series := fun (f : Period → Extended) => periods.map fun period => (period.date, f period)
  fromSeries sqrt engine.config.riskFreeRate.val (series Period.net) (series Period.gross)
    (series Period.net) (periods.map fun period => (period.date, period.positions))
    (series Period.turnover) (series Period.cost)

/-- `BacktestEngine.run`. -/
def run : Except BacktestError BacktestResult :=
  if (engine.schedule periodStart).length < 2 then .ok (engine.resultOf sqrt [])
  else do
    let final ← engine.walk none (engine.schedule periodStart) engine.start
    return engine.resultOf sqrt final.periods

/-! ## The schedule -/

variable {periodStart engine}

theorem mem_schedule_iff {date : Date} :
    date ∈ engine.schedule periodStart ↔
      date ∈ engine.rebalanceDates periodStart ∧ date ∈ engine.weights.dates := by
  rw [schedule, List.mem_dedup, List.mem_insertionSort, List.mem_filter, decide_eq_true_iff]

/-- The schedule is increasing. -/
theorem schedule_increasing : (engine.schedule periodStart).Pairwise (· < ·) := by
  have sorted : (engine.schedule periodStart).Pairwise (· ≤ ·) :=
    (List.pairwise_insertionSort (· ≤ ·) _).sublist (List.dedup_sublist _)
  have distinct : (engine.schedule periodStart).Pairwise (· ≠ ·) := List.nodup_dedup _
  exact (sorted.and distinct).imp fun ordered => lt_of_le_of_ne ordered.1 ordered.2

/-! ## One date -/

variable (engine)

/-- The weights that the loop takes on a date. -/
def weightsOn (date : Date) : Row :=
  normalized engine.weights.columns ((engine.weights.row? date).getD fun _ => nan)

/-- The prices of a date. -/
def pricesOn (date : Date) : Row := (engine.prices.row? date).getD fun _ => nan

/-- The gross return from one date to another. -/
def grossOver (before date : Date) : Extended :=
  grossReturn engine.weights.columns (engine.weightsOn date) (engine.pricesOn before)
    (engine.pricesOn date)

variable {engine} {before date : Date} {state next final : RunState} {result : BacktestResult}
  {sqrt}

theorem pricesAligned_of_mem (member : date ∈ engine.weights.dates) :
    engine.pricesAligned date = some (engine.pricesOn date) := by
  obtain ⟨row, found⟩ := Table.mem_dates_iff.mp (engine.priced date member)
  rw [pricesAligned, if_pos member, pricesOn, found, Option.getD_some]

theorem safeWeights_of_mem (member : date ∈ engine.weights.dates) :
    ∃ row, engine.safeWeights date = some row ∧
      normalized engine.weights.columns row = engine.weightsOn date := by
  obtain ⟨row, found⟩ := Table.mem_dates_iff.mp member
  refine ⟨row, ?_, ?_⟩
  · rw [safeWeights, found]
  · rw [weightsOn, found, Option.getD_some]

/-- The first date only sets the weights. -/
theorem visit_first (member : date ∈ engine.weights.dates) (fresh : state.prevWeights = none)
    (prevDate : Option Date) :
    engine.visit prevDate date state =
      .ok { state with prevWeights := some (engine.weightsOn date) } := by
  obtain ⟨row, found, scaled⟩ := safeWeights_of_mem member
  rw [visit, pricesAligned_of_mem member, found, ← scaled]
  simp only [fresh]

/-- A later date reports a period. -/
theorem visit_next (member : date ∈ engine.weights.dates) (earlier : before ∈ engine.weights.dates)
    {prevWeights : Row} (held : state.prevWeights = some prevWeights) :
    engine.visit (some before) date state = do
      let period ← engine.report date prevWeights (engine.weightsOn date) (engine.pricesOn before)
        (engine.pricesOn date) state.equity
      return {
        prevWeights := some (engine.weightsOn date)
        equity := state.equity * (fin 1 + period.net)
        periods := state.periods ++ [period] } := by
  obtain ⟨row, found, scaled⟩ := safeWeights_of_mem member
  rw [visit, pricesAligned_of_mem member, found, ← scaled]
  simp only [held, Option.bind_some, pricesAligned_of_mem earlier]

/-- What a later date adds. -/
structure Reported (engine : BacktestEngine) (before date : Date) (state next : RunState) :
    Prop where
  solvent : state.equity ≠ fin 0
  held : next.prevWeights = some (engine.weightsOn date)
  period : ∃ period, next.periods = state.periods ++ [period] ∧ period.date = date ∧
    period.gross = engine.grossOver before date

theorem reported_of_visit (member : date ∈ engine.weights.dates)
    (earlier : before ∈ engine.weights.dates) {prevWeights : Row}
    (held : state.prevWeights = some prevWeights)
    (visited : engine.visit (some before) date state = .ok next) :
    Reported engine before date state next := by
  rw [visit_next member earlier held] at visited
  obtain ⟨period, made, same⟩ := bind_eq_ok_iff.mp visited
  obtain rfl := Except.ok.inj same
  unfold report at made
  dsimp only at made
  split at made
  case isTrue => cases made
  case isFalse solvent =>
    obtain rfl := Except.ok.inj made
    exact ⟨solvent, rfl, _, rfl, rfl, rfl⟩

/-- A date with equity is visited. -/
theorem visit_total (member : date ∈ engine.weights.dates) (earlier : before ∈ engine.weights.dates)
    {prevWeights : Row} (held : state.prevWeights = some prevWeights)
    (solvent : state.equity ≠ fin 0) :
    ∃ next, engine.visit (some before) date state = .ok next := by
  rw [visit_next member earlier held, report, if_neg solvent]
  exact ⟨_, rfl⟩

/-! ## A run -/

/-- The loop after its first date reports a period for every two adjacent dates. -/
theorem walk_gross {dates : List Date} {prevWeights : Row}
    (members : ∀ date ∈ before :: dates, date ∈ engine.weights.dates)
    (held : state.prevWeights = some prevWeights)
    (walked : engine.walk (some before) dates state = .ok final) :
    final.periods.map (fun period => (period.date, period.gross)) =
      state.periods.map (fun period => (period.date, period.gross)) ++
        Adjacent.rows engine.grossOver (before :: dates) := by
  induction dates generalizing before state prevWeights with
  | nil =>
      obtain rfl := Except.ok.inj walked
      exact (List.append_nil _).symm
  | cons date rest ih =>
      obtain ⟨next, visited, walked⟩ := bind_eq_ok_iff.mp walked
      have member := members date (List.mem_cons_of_mem before List.mem_cons_self)
      have reported := reported_of_visit member (members before List.mem_cons_self) held visited
      obtain ⟨period, periods, ends, gross⟩ := reported.period
      rw [ih (fun other listed => members other (List.mem_cons_of_mem before listed))
        reported.held walked, periods, List.map_append, List.append_assoc, List.map_singleton, ends,
        gross]
      rfl

/-- The gross returns of a run. -/
theorem run_grossReturns (ran : engine.run sqrt periodStart = .ok result) :
    result.grossReturns = Adjacent.rows engine.grossOver (engine.schedule periodStart) := by
  have members : ∀ date ∈ engine.schedule periodStart, date ∈ engine.weights.dates :=
    fun date member => (mem_schedule_iff.mp member).2
  unfold run at ran
  cases dates : engine.schedule periodStart with
  | nil =>
      rw [dates] at ran
      obtain rfl := Except.ok.inj ran
      rfl
  | cons first rest =>
      rw [dates] at ran members
      split at ran
      case isTrue short =>
        rw [List.length_cons] at short
        obtain rfl : rest = [] := List.length_eq_zero_iff.mp (by omega)
        obtain rfl := Except.ok.inj ran
        rfl
      case isFalse =>
        obtain ⟨final, walked, same⟩ := bind_eq_ok_iff.mp ran
        obtain rfl := Except.ok.inj same
        obtain ⟨next, visited, walked⟩ := bind_eq_ok_iff.mp walked
        rw [visit_first (members first List.mem_cons_self) rfl] at visited
        obtain rfl := Except.ok.inj visited
        exact walk_gross members rfl walked

/-- A run reports a date exactly when there is a date before it in the schedule. -/
theorem lookup_grossReturns_iff (ran : engine.run sqrt periodStart = .ok result)
    {gross : Extended} :
    result.grossReturns.lookup date = some gross ↔
      ∃ before, [before, date] <:+: engine.schedule periodStart ∧
        engine.grossOver before date = gross := by
  rw [run_grossReturns ran]
  exact Adjacent.lookup_rows_iff (schedule_increasing.imp ne_of_lt)

/-- The result of a run is made of the series of its periods. -/
theorem run_eq_resultOf (ran : engine.run sqrt periodStart = .ok result) :
    ∃ periods, result = engine.resultOf sqrt periods := by
  unfold run at ran
  split at ran
  · exact ⟨[], (Except.ok.inj ran).symm⟩
  · obtain ⟨final, _, same⟩ := bind_eq_ok_iff.mp ran
    exact ⟨final.periods, (Except.ok.inj same).symm⟩

/-- **The curve, the total return and the drawdown of a run agree with its returns exactly
when the first period leaves no trace.** -/
theorem run_consistent_iff (ran : engine.run sqrt periodStart = .ok result) {rates : List ℚ}
    (finite : result.returns.values = rates.map fin) (nonempty : rates ≠ []) :
    Consistent result rates ↔ FirstPeriodSilent rates := by
  obtain ⟨periods, rfl⟩ := run_eq_resultOf ran
  exact fromSeries_consistent_iff finite nonempty

/-! ## A sample -/

theorem sampleColumns_nodup : ["A"].Nodup := List.nodup_singleton "A"

theorem sampleDates_nodup : ([1, 2, 3] : List Date).Nodup := by decide

theorem sampleCapital_pos : (0 : ℚ) < 1000000 := by norm_num

/-- One asset on three dates. -/
def sampleTable (values : Date → ℚ) : Table where
  columns := ["A"]
  rows := [1, 2, 3].map fun date => (date, fun _ => fin (values date))
  distinct := sampleColumns_nodup
  nodup := sampleDates_nodup

/-- A backtest of one asset, without costs. -/
def sampleEngine (weights prices : Date → ℚ) : BacktestEngine where
  weights := sampleTable weights
  prices := sampleTable prices
  config := ⟨"W", ⟨1000000, sampleCapital_pos⟩, NonnegRational.zero⟩
  costModel := ⟨NonnegRational.zero, NonnegRational.zero, NonnegRational.zero⟩
  weightsNonempty := rfl
  pricesNonempty := rfl
  sameColumns := fun _ => Iff.rfl
  priced := fun _ member => member

/-- A square root to eight digits. -/
def squareRoot : Extended → Extended
  | fin q => if q < 0 then nan else fin (Nat.sqrt ⌊q * 10 ^ 16⌋.toNat / 10 ^ 8)
  | infinite false => infinite false
  | _ => nan

/-- A gain in the second period only. -/
theorem run_consistent_sample :
    ∃ result, (sampleEngine (fun _ => 1) fun date => if date = 3 then 110 else 100).run squareRoot
        (fun _ date => date) = .ok result ∧
      result.returns.values = [0, 1 / 10].map fin ∧ Consistent result [0, 1 / 10] := by
  obtain ⟨result, ran, values⟩ := exists_ok_of_read
    ((sampleEngine (fun _ => 1) fun date => if date = 3 then 110 else 100).run squareRoot
      fun _ date => date)
    (fun result => result.returns.values) ([0, 1 / 10].map fin) (by with_unfolding_all decide)
  exact ⟨result, ran, values, (run_consistent_iff ran values (by simp)).mpr (.inl rfl)⟩

/-- A loss in the first period: the curve has no trace of it, and neither has the
drawdown. -/
theorem run_inconsistent :
    ∃ result, (sampleEngine (fun _ => 1) fun date =>
        if date = 1 then 100 else if date = 2 then 90 else 99).run squareRoot
        (fun _ date => date) = .ok result ∧
      result.returns.values = [-1 / 10, 1 / 10].map fin ∧
      result.equityCurve.values = [1, 99 / 100].map fin ∧
      result.metrics.maxDrawdown = fin 0 ∧ ¬ Consistent result [-1 / 10, 1 / 10] := by
  obtain ⟨result, ran, values⟩ := exists_ok_of_read
    ((sampleEngine (fun _ => 1) fun date =>
      if date = 1 then 100 else if date = 2 then 90 else 99).run squareRoot fun _ date => date)
    (fun result => (result.returns.values, result.equityCurve.values, result.metrics.maxDrawdown))
    ([-1 / 10, 1 / 10].map fin, [1, 99 / 100].map fin, fin 0) (by with_unfolding_all decide)
  obtain ⟨returns, rest⟩ := Prod.mk.inj values
  obtain ⟨curve, drawdown⟩ := Prod.mk.inj rest
  refine ⟨result, ran, returns, curve, drawdown, fun consistent => ?_⟩
  have follows := consistent.curve 0 (fin 1) (fin (99 / 100)) (1 / 10) (by rw [curve]; rfl)
    (by rw [curve]; rfl) rfl
  have value : (99 / 100 : ℚ) = 1 * (1 + 1 / 10) := Extended.fin.inj follows
  norm_num at value

end BacktestEngine

end TradeOS.Research
