import TradeOS.Live.Modules
import TradeOS.Macro.Biases

/-!
# What a macro signal votes for

Arbitration reads two fields of a macro signal: the risk appetite is the side that it votes for,
and the confidence of the regime decides whether it is heard. The confidence is zero where no
regime was determined, and at least three tenths otherwise. So a macro signal is heard exactly if a
regime was determined, and then it is short in a falling regime and long in a rising and in a
ranging one. The regime of stagflation is never found.

The signal of an analysis that failed has the defaults of the schema, which are heard as a long
vote of confidence one half (`batch_votes`).

The support summary of the live pipeline reads the equity bias instead, and never finds a side in
it.
-/

set_option autoImplicit false

namespace TradeOS.Macro

open Numeric OrderFlow MarketData FirstMatch Arbitration Live Programs

/-! ## Regimes -/

/-- The bounds of the confidence in a regime that was determined. -/
structure Confident (regime : MacroRegimeMetrics) : Prop where
  loud : 3 / 10 ≤ regime.confidence
  small : regime.confidence ≤ 1
  found : regime.regime ≠ .stagflation

/-- A confidence keeps its bounds when it is rounded. -/
theorem rounded_bounds {confidence : ℚ} (loud : 3 / 10 ≤ confidence) :
    3 / 10 ≤ min 1 (roundTo 3 confidence) ∧ min 1 (roundTo 3 confidence) ≤ 1 := by
  refine ⟨le_min (by norm_num) ?_, min_le_left 1 _⟩
  have digits := le_roundTo_of_le 3 (q := confidence) 300 (by norm_num [loud])
  exact le_trans (by norm_num) digits

/-- The proxy is sure of every regime that it finds, and stagflation is not among them. -/
theorem proxyRegime_spec (annVol volChange totalReturn pricePosition : ℚ) :
    3 / 10 ≤ (proxyRegime (growthOf totalReturn) annVol volChange totalReturn pricePosition).2 ∧
      (proxyRegime (growthOf totalReturn) annVol volChange totalReturn pricePosition).1 ≠
        .stagflation := by
  unfold proxyRegime
  split_ifs with rising falling calm
  · have grown : 5 / 100 < totalReturn := by
      by_contra small
      have growth := rising.1
      rw [growthOf, if_neg small] at growth
      split at growth <;> cases growth
    exact ⟨le_min (by norm_num) (by linarith), MacroRegime.noConfusion⟩
  · exact ⟨le_min (by norm_num) (by linarith [abs_nonneg totalReturn]), MacroRegime.noConfusion⟩
  · exact ⟨le_min (by norm_num) (by linarith [calm.2.2]), MacroRegime.noConfusion⟩
  · exact ⟨le_rfl, MacroRegime.noConfusion⟩

theorem confident_proxy (sqrt : ℚ → ℚ) {columns : BarColumns} {lookback : ℕ}
    (enough : lookback ≤ columns.closes.length) :
    Confident (detectMacroRegimeProxy sqrt columns lookback) := by
  rw [detectMacroRegimeProxy, if_neg (Nat.not_lt.mpr enough)]
  have spec := proxyRegime_spec
  constructor
  · exact (rounded_bounds (spec _ _ _ _).1).1
  · exact (rounded_bounds (spec _ _ _ _).1).2
  · exact (spec _ _ _ _).2

theorem confident_events (rate : RatePressure) (inflation : InflationShock)
    (liquidity : LiquidityCondition) :
    Confident (detectRegimeFromMacroEvents rate inflation liquidity) := by
  have bounds : 3 / 10 ≤ (detectRegimeFromMacroEvents rate inflation liquidity).confidence ∧
      (detectRegimeFromMacroEvents rate inflation liquidity).confidence ≤ 1 := by
    refine rounded_bounds ?_
    cases liquidity.condition <;> split_ifs <;> norm_num
  refine ⟨bounds.1, bounds.2, ?_⟩
  unfold detectRegimeFromMacroEvents
  dsimp only
  split_ifs <;> decide

/-- A regime is determined: from events on bars with a volume, or from enough bars. -/
def Determined (config : Config) (input : Input) : Prop :=
  (input.events ≠ [] ∧ ∃ bar ∈ input.bars, bar.volume.val ≠ 0) ∨
    config.lookback ≤ input.bars.length

section Inputs

variable {sqrt : ℚ → ℚ} {config : Config} {order : SetOrder String} {keywords : Keywords}
  {input : Input}

theorem some_volume_iff (bars : List MarketBar) :
    (¬ ∀ volume ∈ (columnsOf bars).volumes, volume = 0) ↔ ∃ bar ∈ bars, bar.volume.val ≠ 0 := by
  simp [columnsOf]

/-- **The metrics are sure of a regime exactly if it is determined.** -/
theorem regime_spec : (Determined config input ∧
      Confident (metricsOf sqrt config order input).regime) ∨
    (¬ Determined config input ∧
      (metricsOf sqrt config order input).regime = undeterminedRegime) := by
  have length : (columnsOf input.bars).closes.length = input.bars.length := List.length_map _
  have volumes := some_volume_iff input.bars
  unfold metricsOf
  dsimp only
  unfold analyzeRegime Determined
  by_cases events : input.events ≠ [] ∧ ¬ ∀ volume ∈ (columnsOf input.bars).volumes, volume = 0
  · rw [if_pos events]
    exact .inl ⟨.inl ⟨events.1, volumes.mp events.2⟩, confident_events _ _ _⟩
  · rw [if_neg events, length]
    by_cases enough : config.lookback ≤ input.bars.length
    · rw [if_pos enough]
      exact .inl ⟨.inr enough, confident_proxy sqrt (length.symm ▸ enough)⟩
    · rw [if_neg enough]
      refine .inr ⟨?_, rfl⟩
      rintro (⟨some, volume⟩ | many)
      · exact events ⟨some, volumes.mpr volume⟩
      · exact enough many

/-- The level of the VIX passes its check, if one was given. -/
def Admitted (keywords : Keywords) : Prop := ∀ vix ∈ keywords.vixLevel, 0 ≤ roundTo 2 vix

instance (keywords : Keywords) : Decidable (Admitted keywords) :=
  inferInstanceAs (Decidable (∀ vix ∈ keywords.vixLevel, 0 ≤ roundTo 2 vix))

theorem std_nonneg (nonneg : ∀ x, 0 ≤ sqrt x) {values : List ℚ} {v : ℚ}
    (some : v ∈ std sqrt values) : 0 ≤ v := by
  unfold std at some
  split at some
  · cases some
  · obtain rfl := Option.some.inj some
    exact nonneg _

theorem volatility20d_nonneg (nonneg : ∀ x, 0 ≤ sqrt x) {closes : List ℚ} {v : ℚ}
    (some : v ∈ volatility20d sqrt closes) : 0 ≤ v := by
  unfold volatility20d at some
  split at some
  · obtain rfl := Option.some.inj some
    norm_num
  · dsimp only at some
    split at some
    · exact std_nonneg nonneg some
    · exact std_nonneg nonneg some

/-- The estimate of the VIX passes its check. -/
theorem estimateVix_nonneg (nonneg : ∀ x, 0 ≤ sqrt x) (closes : List ℚ) :
    0 ≤ estimateVix sqrt (volatility20d sqrt closes) := by
  cases volatility : volatility20d sqrt closes with
  | none => exact (by norm_num : (0 : ℚ) ≤ 80)
  | some v =>
      have positive := volatility20d_nonneg nonneg volatility
      have root := nonneg 252
      exact le_min (by norm_num) (by positivity)

theorem checked_eq {p : ℚ → Prop} [DecidablePred p] {path : String} {q : ℚ} (holds : p q) :
    (checked path q : Except Failure {q // p q}) = .ok ⟨q, holds⟩ := by
  rw [checked, check_of holds]
  rfl

theorem checked_error {p : ℚ → Prop} [DecidablePred p] {path : String} {q : ℚ} (fails : ¬ p q) :
    (checked path q : Except Failure {q // p q}) = .error (.field (.validation path)) := by
  rw [checked, check, dif_neg fails]
  rfl

theorem confidence_bounds : 0 ≤ (metricsOf sqrt config order input).regime.confidence ∧
    (metricsOf sqrt config order input).regime.confidence ≤ 1 := by
  rcases @regime_spec sqrt config order input with ⟨-, sure⟩ | ⟨-, unsure⟩
  · exact ⟨le_trans (by norm_num) sure.loud, sure.small⟩
  · rw [unsure]
    exact ⟨le_rfl, zero_le_one⟩

/-- An input is analysed exactly if the level of the VIX is admitted. -/
theorem analyzeInput_spec (nonneg : ∀ x, 0 ≤ sqrt x) (utcnow : Timestamp) :
    if Admitted keywords then
      ∃ timestamp vixLevel, ∀ order : SetOrder String,
        analyzeInput sqrt config order keywords utcnow input =
          .ok (signalOf order timestamp input (metricsOf sqrt config order input)
            ⟨(metricsOf sqrt config order input).regime.confidence, confidence_bounds⟩ vixLevel)
    else ∀ order : SetOrder String,
      ∃ raised, analyzeInput sqrt config order keywords utcnow input = .error raised := by
  have passes : Admitted keywords ↔ 0 ≤ roundTo 2 (keywords.vixLevel.getD
      (estimateVix sqrt (volatility20d sqrt (columnsOf input.bars).closes))) := by
    unfold Admitted
    cases keywords.vixLevel with
    | none =>
        exact iff_of_true (fun _ absent => absurd absent (Option.not_mem_none _))
          (roundTo_nonneg 2 (estimateVix_nonneg nonneg _))
    | some vix => exact ⟨fun all => all vix rfl, fun fine _ same => Option.some.inj same ▸ fine⟩
  unfold analyzeInput buildSignal
  dsimp only
  split
  · next admitted =>
      refine ⟨(input.bars.getLast?.map MarketBar.timestamp).getD utcnow,
        ⟨_, passes.mp admitted⟩, fun order => ?_⟩
      rw [checked_eq confidence_bounds, checked_eq (passes.mp admitted)]
      rfl
  · next refused =>
      intro order
      rw [checked_eq confidence_bounds, checked_error (fun fine => refused (passes.mpr fine))]
      exact ⟨_, rfl⟩

/-! ## Votes -/

/-- The payload of the macro module of the live pipeline. -/
def payload (signal : Signal) : Payload :=
  .macroRegime { signal.toMacroSignal with equityBias := signal.equityBias }

/-- What arbitration hears of a signal. -/
def votes (signal : Signal) : List DirectionalSignal := derived (payload signal).signals

/-- The signal votes for a side, with its confidence. -/
def VotesFor (signal : Signal) (direction : Direction) : Prop :=
  ∃ d, votes signal = [d] ∧ d.direction = direction ∧ d.confidence = signal.regimeConfidence

theorem votesFor_iff (signal : Signal) (direction : Direction) :
    VotesFor signal direction ↔ 3 / 10 ≤ signal.regimeConfidence.val ∧
      direction = if signal.riskOn then .long else .short := by
  have heard := fun d => @derived_eq_singleton_iff (payload signal).signals
    (macroDirectional signal.toMacroSignal) d rfl
  constructor
  · rintro ⟨d, alone, rfl, -⟩
    obtain ⟨rfl, loud⟩ := (heard d).mp alone
    exact ⟨loud, rfl⟩
  · rintro ⟨loud, rfl⟩
    exact ⟨_, (heard _).mpr ⟨rfl, loud⟩, rfl, rfl⟩

theorem votes_eq_nil {signal : Signal} (quiet : signal.regimeConfidence.val < 3 / 10) :
    votes signal = [] := by
  change ([macroDirectional signal.toMacroSignal].filter fun s =>
    lowConfidenceThreshold ≤ s.confidence.val) = []
  refine List.filter_eq_nil_iff.mpr fun d member => ?_
  rw [List.mem_singleton.mp member, decide_eq_true_eq, not_le]
  exact quiet

/-- What the signal of an entry says. -/
structure Speaks (config : Config) (keywords : Keywords) (entry : Entry) (signal : Signal) :
    Prop where
  /-- An analysis that fails is heard as a long vote of confidence one half. -/
  failed : (∀ input, parseInput keywords entry.data = .ok input → ¬ Admitted keywords) →
    signal.regime = .unknown ∧ VotesFor signal .long ∧ signal.regimeConfidence.val = 1 / 2
  /-- Where a regime is determined, the vote is short in a falling regime and long in others. -/
  heard : ∀ input, parseInput keywords entry.data = .ok input → Admitted keywords →
    Determined config input → signal.regime ∈ [.trendingUp, .trendingDown, .ranging] ∧
      VotesFor signal (if signal.regime = .trendingDown then .short else .long)
  /-- Where none is, there is no vote. -/
  silent : ∀ input, parseInput keywords entry.data = .ok input → Admitted keywords →
    ¬ Determined config input → signal.regime = .ranging ∧ votes signal = []
  /-- The support summary finds no side in the signal. -/
  sideless : ∀ name, (ModuleRunResult.mk name (some (payload signal))).listedDirection ∉
    ["LONG", "SHORT"]

theorem sideless_of_word {signal : Signal}
    (word : signal.equityBias ∈ ["negative", "positive", "neutral"]) (name : String) :
    (ModuleRunResult.mk name (some (payload signal))).listedDirection ∉ ["LONG", "SHORT"] := by
  have texts : ∀ text ∈ ["negative", "positive", "neutral"],
      upper (if upper text = "" then "n/a" else upper text) ∉ ["LONG", "SHORT"] := by
    with_unfolding_all decide
  exact texts _ word

variable (sqrt config order input) in
theorem complete_metricsOf : Complete (metricsOf sqrt config order input).shock.affectedAssets :=
  shock_complete _ _ _ _

/-- The equity bias of an analysis is the word of a shock. -/
theorem equity_word :
    (calcAssetBiases (metricsOf sqrt config order input)).equity ∈
      ["negative", "positive", "neutral"] := by
  obtain ⟨impact, -, word⟩ := bias_eq_word (complete_metricsOf sqrt config order input)
    (.inl rfl : Named .equity)
  change (calcAssetBiases (metricsOf sqrt config order input)).of .equity ∈ _
  rw [word]
  cases impact <;> decide

/-- An analysis speaks for the regime of its metrics. -/
theorem speaks_of_signalOf {entry : Entry} (parsed : parseInput keywords entry.data = .ok input)
    (admitted : Admitted keywords) (timestamp : Timestamp) (vixLevel : NonnegRational) :
    Speaks config keywords entry (signalOf order timestamp input
      (metricsOf sqrt config order input)
      ⟨(metricsOf sqrt config order input).regime.confidence, confidence_bounds⟩ vixLevel) := by
  constructor
  · intro fails
    exact absurd admitted (fails input parsed)
  · intro other same _ determined
    rw [parsed] at same
    obtain rfl := Except.ok.inj same
    rcases @regime_spec sqrt config order input with ⟨-, sure⟩ | ⟨unsure, -⟩
    · rw [votesFor_iff]
      unfold signalOf
      dsimp only
      refine ⟨?_, sure.loud, ?_⟩
      · cases regime : (metricsOf sqrt config order input).regime.regime <;>
          first | exact absurd regime sure.found | simp [mapRegime]
      · cases regime : (metricsOf sqrt config order input).regime.regime <;>
          first | exact absurd regime sure.found | simp [mapRegime]
    · exact absurd determined unsure
  · intro other same _ undetermined
    rw [parsed] at same
    obtain rfl := Except.ok.inj same
    rcases @regime_spec sqrt config order input with ⟨sure, -⟩ | ⟨-, unsure⟩
    · exact absurd sure undetermined
    · refine ⟨?_, votes_eq_nil ?_⟩
      · change mapRegime (metricsOf sqrt config order input).regime.regime = .ranging
        rw [unsure]
        rfl
      · change (metricsOf sqrt config order input).regime.confidence < 3 / 10
        rw [unsure]
        exact (by norm_num : (0 : ℚ) < 3 / 10)
  · exact sideless_of_word equity_word

theorem speaks_of_failed {entry : Entry} (utcnow : Timestamp) (raised : Failure)
    (fails : ∀ input, parseInput keywords entry.data = .ok input → ¬ Admitted keywords) :
    Speaks config keywords entry (failedSignal utcnow raised) := by
  constructor
  · intro _
    refine ⟨rfl, (votesFor_iff _ _).mpr ⟨?_, rfl⟩, rfl⟩
    exact (by norm_num : (3 : ℚ) / 10 ≤ 1 / 2)
  · exact fun input parsed admitted => absurd admitted (fails input parsed)
  · exact fun input parsed admitted => absurd admitted (fails input parsed)
  · exact sideless_of_word (by decide : "neutral" ∈ ["negative", "positive", "neutral"])

/-- **Every signal of a batch says what its entry has.** It is heard by arbitration exactly if a
regime is determined or the analysis fails: short in a falling regime, long in every other and for
a failure. The support summary never counts it for a side. -/
theorem batch_votes (nonneg : ∀ x, 0 ≤ sqrt x) (config : Config) (order : SetOrder String)
    (keywords : Keywords) (entries : List Entry) :
    List.Forall₂ (fun entry result => result.1 = entry.symbol ∧
        Speaks config keywords entry result.2)
      entries (batchAnalyze sqrt config order keywords entries) := by
  refine List.forall₂_map_right_iff.mpr (List.forall₂_same.mpr fun entry _ => ⟨rfl, ?_⟩)
  dsimp only
  unfold analyzeEntry analyze
  cases parsed : parseInput keywords entry.data with
  | error raised =>
      refine speaks_of_failed entry.utcnow raised fun input other => ?_
      rw [parsed] at other
      cases other
  | ok input =>
      have spec := @analyzeInput_spec sqrt config keywords input nonneg entry.utcnow
      by_cases admitted : Admitted keywords
      · rw [if_pos admitted] at spec
        obtain ⟨timestamp, vixLevel, analysed⟩ := spec
        simp only [bind, Except.bind, analysed]
        exact speaks_of_signalOf parsed admitted timestamp vixLevel
      · rw [if_neg admitted] at spec
        obtain ⟨raised, failed⟩ := spec order
        simp only [bind, Except.bind, failed]
        exact speaks_of_failed entry.utcnow raised fun _ _ => admitted

/-- A square root, cut to twelve decimal places. -/
def decimalRoot (x : ℚ) : ℚ := Nat.sqrt ⌊x * 10 ^ 24⌋₊ / 10 ^ 12

theorem decimalRoot_nonneg (x : ℚ) : 0 ≤ decimalRoot x := by
  unfold decimalRoot
  positivity

def sampleBar : MarketBar := .flat "SPY" .d1 0

theorem two_le_two : 2 ≤ 2 := le_rfl

/-- Two bars are enough. -/
def shortConfig : Config where
  lookback := 2
  volumeLookback := 2
  two_le_lookback := two_le_two
  two_le_volumeLookback := two_le_two

/-- One bar, a list that breaks off, and two bars. -/
def sampleBatch : List Entry :=
  [⟨"SPY", .list [.bar sampleBar], 0⟩, ⟨"QQQ", .list [.bar sampleBar, .other "dict"], 1⟩,
    ⟨"IWM", .list [.bar sampleBar, .bar sampleBar], 2⟩]

/-- The first entry has no vote, the second one fails, and the third one has a regime. -/
theorem batch_votes_sample :
    List.Forall₂ (fun entry result => result.1 = entry.symbol ∧
        Speaks shortConfig {} entry result.2)
      sampleBatch (batchAnalyze decimalRoot shortConfig asListed {} sampleBatch) ∧
    ¬ Determined shortConfig ⟨[sampleBar], [], true⟩ ∧
    Determined shortConfig ⟨[sampleBar, sampleBar], [], true⟩ := by
  refine ⟨batch_votes decimalRoot_nonneg shortConfig asListed {} sampleBatch, ?_, ?_⟩
  · rintro (⟨events, -⟩ | enough)
    · exact events rfl
    · exact absurd enough (by decide)
  · exact .inr le_rfl

end Inputs

end TradeOS.Macro
