import TradeOS.OrderFlow.Engine
import Mathlib.Data.Rat.Sqrt

/-!
# Order flow results of several symbols

A batch runs on one engine, so the cumulative delta of a symbol goes into the cumulative deltas of
the symbols after it. Nothing else of a signal depends on the engine (`analyze_eq`).

`batch_isolated_iff` says for which maps nothing is seen of that: where, before each symbol, what
the engine has added up is zero, or too little to be seen behind the delta of the symbol when their
sum is rounded to cents (`Absorbs`). It holds in every arithmetic in which the deltas are computed.
-/

set_option autoImplicit false

namespace TradeOS.OrderFlow

open Numeric MarketData

/-! ## One analysis -/

section Analyze

variable {fl : Rounding} {sqrt : ℚ → ℚ} {config : Config} {keywords : Keywords}

/-- The cumulative delta after an input. -/
def carried (fl : Rounding) (cumDelta : ℚ) (input : Input) : ℚ :=
  if input.trades.isEmpty then cumDelta
  else fl.decimal 2 (fl (cumDelta + (flowOf fl input.trades).delta fl))

theorem metricsOf_cumDelta (cumDelta : ℚ) (input : Input) :
    (metricsOf fl sqrt config cumDelta input).delta.elim cumDelta DeltaMetrics.cumDelta =
      carried fl cumDelta input := by
  unfold metricsOf carried
  cases input.trades.isEmpty <;> rfl

/-- The details of a signal do not show the cumulative delta. -/
theorem metadata_metricsOf (cumDelta : ℚ) (input : Input) (isProxy : Bool) :
    (metricsOf fl sqrt config cumDelta input).metadata isProxy =
      (metricsOf fl sqrt config 0 input).metadata isProxy := by
  unfold metricsOf Metrics.metadata
  cases input.trades.isEmpty <;> rfl

theorem delta_metricsOf (cumDelta : ℚ) (input : Input) :
    (metricsOf fl sqrt config cumDelta input).delta.elim 0 DeltaMetrics.delta =
      (metricsOf fl sqrt config 0 input).delta.elim 0 DeltaMetrics.delta := by
  unfold metricsOf
  cases input.trades.isEmpty <;> rfl

/-- The cumulative delta is all of a signal that depends on the engine. -/
theorem buildSignal_eq (symbol : String) (timestamp : Timestamp) (timeframe : Store.TimeFrame)
    (isProxy : Bool) (cumDelta : ℚ) (input : Input) :
    buildSignal fl symbol timestamp timeframe (metricsOf fl sqrt config cumDelta input) isProxy
        cumDelta =
      (buildSignal fl symbol timestamp timeframe (metricsOf fl sqrt config 0 input) isProxy 0).map
        fun signal => { signal with cumDelta := fl.decimal 2 (carried fl cumDelta input) } := by
  have absorption : (metricsOf fl sqrt config cumDelta input).absorption =
      (metricsOf fl sqrt config 0 input).absorption := rfl
  have execution : (metricsOf fl sqrt config cumDelta input).execution =
      (metricsOf fl sqrt config 0 input).execution := rfl
  unfold buildSignal
  rw [absorption, execution, delta_metricsOf, metricsOf_cumDelta, metadata_metricsOf]
  cases checked (p := fun q => 0 ≤ q ∧ q ≤ 1) "OrderFlowSignal.absorption_score" _ with
  | error raised => rfl
  | ok absorptionScore =>
      cases checked (p := fun q => 0 ≤ q) "OrderFlowSignal.expected_slippage" _ with
      | error raised => rfl
      | ok expectedSlippage => rfl

/-- **What an analysis keeps from earlier ones**: the cumulative delta, in the signal and after
it. -/
theorem analyze_eq (utcnow : Timestamp) (cumDelta : ℚ) (data : Data) {input : Input}
    (parsed : parseInput keywords data = .ok input) :
    analyze fl sqrt config keywords utcnow cumDelta data =
      (analyze fl sqrt config keywords utcnow 0 data).map fun result =>
        ({ result.1 with cumDelta := fl.decimal 2 (carried fl cumDelta input) },
          carried fl cumDelta input) := by
  unfold analyze
  rw [parsed]
  simp only [bind, Except.bind, buildSignal_eq _ _ _ _ cumDelta, metricsOf_cumDelta]
  cases buildSignal fl _ _ _ (metricsOf fl sqrt config 0 input) input.isProxy 0 <;> rfl

end Analyze

/-! ## A batch -/

/-- What an analysis of an entry comes to, whatever the engine kept: a failure, a signal without
trades, or a signal with the delta of its trades. -/
inductive Outcome where
  | failed
  | silent
  | traded (delta : ℚ)
  deriving DecidableEq

section Batch

variable (fl : Rounding)

/-- What the engine has added up is not seen behind a delta: their sum is the delta, in cents. -/
def Absorbs (cumDelta delta : ℚ) : Prop :=
  fl.decimal 2 (fl.decimal 2 (fl (cumDelta + delta))) =
    fl.decimal 2 (fl.decimal 2 (fl (0 + delta)))

variable (sqrt : ℚ → ℚ) (config : Config) (keywords : Keywords)

/-- The outcome of an entry. -/
def outcome (entry : Entry) : Outcome :=
  match analyze fl sqrt config keywords entry.utcnow 0 entry.data,
      parseInput keywords entry.data with
  | .ok _, .ok input =>
      if input.trades.isEmpty then .silent else .traded ((flowOf fl input.trades).delta fl)
  | _, _ => .failed

/-- The result of a fresh engine that analyses the entry alone. -/
def alone (entry : Entry) : OrderFlowSignal := (analyzeEntry fl sqrt config keywords 0 entry).1

/-- Nothing is carried into a signal: before each entry without a failure, what the trades of the
entries before add up to is nothing in cents, or is absorbed by the delta of the entry. -/
def Unleaked : ℚ → List Entry → Prop
  | _, [] => True
  | cumDelta, entry :: entries =>
      match outcome fl sqrt config keywords entry with
      | .failed => Unleaked cumDelta entries
      | .silent => fl.decimal 2 cumDelta = 0 ∧ Unleaked cumDelta entries
      | .traded delta =>
          Absorbs fl cumDelta delta ∧ Unleaked (fl.decimal 2 (fl (cumDelta + delta))) entries

variable {fl sqrt config keywords}

/-- A failed analysis leaves the engine as it was. -/
theorem analyzeEntry_of_failed {entry : Entry}
    (failed : outcome fl sqrt config keywords entry = .failed) (cumDelta : ℚ) :
    analyzeEntry fl sqrt config keywords cumDelta entry =
      (alone fl sqrt config keywords entry, cumDelta) := by
  unfold outcome at failed
  unfold alone analyzeEntry
  cases parsed : parseInput keywords entry.data with
  | error raised =>
      have both : ∀ start, analyze fl sqrt config keywords entry.utcnow start entry.data =
          .error raised := fun start => by rw [analyze, parsed]; rfl
      rw [both, both]
  | ok input =>
      rw [analyze_eq entry.utcnow cumDelta entry.data parsed]
      cases fresh : analyze fl sqrt config keywords entry.utcnow 0 entry.data with
      | error raised => rfl
      | ok result =>
          rw [fresh, parsed] at failed
          dsimp only at failed
          split_ifs at failed

/-- The input of an entry that does not fail. -/
theorem exists_input {entry : Entry} (done : outcome fl sqrt config keywords entry ≠ .failed) :
    ∃ input, parseInput keywords entry.data = .ok input ∧
      ∃ signal after,
        analyze fl sqrt config keywords entry.utcnow 0 entry.data = .ok (signal, after) ∧
        outcome fl sqrt config keywords entry =
          if input.trades.isEmpty then .silent
          else .traded ((flowOf fl input.trades).delta fl) := by
  unfold outcome at done ⊢
  split at done
  · rename_i result input fresh parsed
    exact ⟨input, parsed, result.1, result.2, fresh, rfl⟩
  · exact absurd rfl done

/-- An analysis that does not fail carries the delta on, and is what the entry gives alone exactly
if that is not seen. -/
theorem analyzeEntry_of_done {entry : Entry} {input : Input}
    (parsed : parseInput keywords entry.data = .ok input) {signal : OrderFlowSignal} {after : ℚ}
    (fresh : analyze fl sqrt config keywords entry.utcnow 0 entry.data = .ok (signal, after))
    (cumDelta : ℚ) :
    (analyzeEntry fl sqrt config keywords cumDelta entry).2 = carried fl cumDelta input ∧
      ((analyzeEntry fl sqrt config keywords cumDelta entry).1 =
          alone fl sqrt config keywords entry ↔
        fl.decimal 2 (carried fl cumDelta input) = fl.decimal 2 (carried fl 0 input)) := by
  have analysed : ∀ start, analyzeEntry fl sqrt config keywords start entry =
      ({ signal with cumDelta := fl.decimal 2 (carried fl start input) },
        carried fl start input) := by
    intro start
    rw [analyzeEntry, analyze_eq entry.utcnow start entry.data parsed, fresh]
    rfl
  refine ⟨by rw [analysed], ?_⟩
  rw [alone, analysed, analysed]
  simp

@[simp] theorem decimal_zero (digits : ℕ) : fl.decimal digits 0 = 0 := by
  simp [Rounding.decimal, roundTo, roundHalfEven]

/-- **A batch gives each symbol what it gives alone exactly if nothing is carried into a signal**,
from every state of the engine, for every map in every order. -/
theorem batch_isolated_iff (fl : Rounding) (sqrt : ℚ → ℚ) (config : Config) (keywords : Keywords)
    (start : ℚ) (entries : List Entry) :
    batchAnalyze fl sqrt config keywords start entries =
        entries.map (fun entry => (entry.symbol, alone fl sqrt config keywords entry)) ↔
      Unleaked fl sqrt config keywords start entries := by
  induction entries generalizing start with
  | nil => exact iff_of_true rfl trivial
  | cons entry entries ih =>
      rw [batchAnalyze, List.map_cons, List.cons.injEq, Prod.mk.injEq, Unleaked]
      by_cases failed : outcome fl sqrt config keywords entry = .failed
      · rw [analyzeEntry_of_failed failed, failed, ih]
        simp
      · obtain ⟨input, parsed, signal, after, fresh, shape⟩ := exists_input failed
        obtain ⟨next, same⟩ := analyzeEntry_of_done parsed fresh start
        rw [same, next, ih, shape]
        unfold carried
        by_cases silent : input.trades.isEmpty = true
        · simp [silent]
        · simp only [silent, if_false, true_and, Bool.false_eq_true]
          exact Iff.rfl

end Batch

theorem sixty_pos : (0 : ℚ) < 60 := by norm_num

theorem ten_pos : (0 : ℚ) < 10 := by norm_num

/-- A trade of ten shares. -/
def tenShares (symbol : String) (side : Execution.Side) : TradePrint where
  symbol := symbol
  timestamp := 0
  price := ⟨60, sixty_pos⟩
  size := ⟨10, ten_pos⟩
  side := side

/-- Trades of ten shares each. -/
def traded (symbol : String) (sides : List Execution.Side) : Entry where
  symbol := symbol
  data := .list (sides.map fun side => .trade (tenShares symbol side))
  utcnow := 0

/-- A trade and something that is none. -/
def broken (symbol : String) : Entry where
  symbol := symbol
  data := .list [.trade (tenShares symbol .buy), .other "str"]
  utcnow := 0

/-- As much bought as sold, a failure, and a symbol after them: nothing is carried into it. -/
theorem batch_isolated_balanced :
    let entries := [traded "AAPL" [.buy, .sell], broken "MSFT", traded "TSLA" [.buy]]
    batchAnalyze binary64 Rat.sqrt {} {} 0 entries =
      entries.map fun entry => (entry.symbol, alone binary64 Rat.sqrt {} {} entry) := by
  have balanced : outcome binary64 Rat.sqrt {} {} (traded "AAPL" [.buy, .sell]) = .traded 0 := by
    decide +kernel
  have failed : outcome binary64 Rat.sqrt {} {} (broken "MSFT") = .failed := by
    decide +kernel
  have bought : outcome binary64 Rat.sqrt {} {} (traded "TSLA" [.buy]) = .traded 10 := by
    decide +kernel
  refine (batch_isolated_iff binary64 Rat.sqrt {} {} 0 _).mpr ?_
  simp only [Unleaked, balanced, failed, bought, Absorbs]
  decide +kernel

/-- The same trade is a cumulative delta of ten alone, and of twenty behind another symbol. -/
theorem batch_leaks_delta :
    (batchAnalyze binary64 Rat.sqrt {} {} 0 [traded "AAPL" [.buy], traded "MSFT" [.buy]]).map
        (fun result => (result.1, result.2.delta, result.2.cumDelta)) =
      [("AAPL", 10, 10), ("MSFT", 10, 20)] ∧
      (alone binary64 Rat.sqrt {} {} (traded "MSFT" [.buy])).cumDelta = 10 := by
  decide +kernel

end TradeOS.OrderFlow
