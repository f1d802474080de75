import TradeOS.Macro.Votes

/-!
# Macro signals and the order of sets

The category of a shock is searched in sets of strings, which every process may run through in
another order: first in the categories of high impact, and only where none of them is mentioned in
those of medium impact. The candidates of a name are the categories of high impact that it
mentions, or if there is none those of medium impact. `reproducible_iff` says on which inputs an
analysis is the same in all orders: the name of the first event of high impact has one candidate
at most. The bias for equity or bonds is the same in all orders exactly if the candidates agree on
it, and what arbitration reads always is.
-/

set_option autoImplicit false

namespace TradeOS.Macro

open Numeric OrderFlow MarketData FirstMatch

/-- A signal whose themes have no order. -/
def Signal.unordered (signal : Signal) : Signal × Multiset String :=
  ({ signal with dominantThemes := [] }, signal.dominantThemes)

/-- The bias of a signal for equity or for bonds. -/
def Signal.biasFor (signal : Signal) : Asset → String
  | .equity => signal.equityBias
  | .bond => signal.bondBias
  | .commodity => signal.commodityBias
  | .fx => (signal.fxBias.lookup "DXY").getD ""

/-- What is the same in all orders: the fields that arbitration reads, the regime and the VIX. -/
def Signal.steady (signal : Signal) : Arbitration.AnalysisSignals × Regime × Option NonnegRational :=
  ({ macroSignal := some signal.toMacroSignal }, signal.regime, signal.vixLevel)

section Orders

variable {sqrt : ℚ → ℚ} {config : Config} {input : Input}

/-! ## Shocks -/

variable (sqrt config) in
/-- What is computed from a shock is the same in all orders exactly if it is the same for all
categories that the first event of high impact may get. -/
theorem forall_shock_iff {β : Type} (f : EventShock → β) :
    (∀ one other : SetOrder String, f (metricsOf sqrt config one input).shock =
        f (metricsOf sqrt config other input).shock) ↔
      ∀ event ∈ shockEvent input.events,
        ∀ category ∈ candidates event.eventName, ∀ other ∈ candidates event.eventName,
          f (shockOf (eventScore event.impact none none) category) =
            f (shockOf (eventScore event.impact none none) other) := by
  unfold metricsOf analyzeShock
  dsimp only
  cases shockEvent input.events with
  | none => exact iff_of_true (fun _ _ => rfl) fun _ absent => absurd absent (Option.not_mem_none _)
  | some event =>
      refine (forall_category_iff (fun category =>
        f (shockOf (eventScore event.impact none none) category)) event.eventName).trans ?_
      exact ⟨fun agree _ same => Option.some.inj same ▸ agree, fun agree => agree event rfl⟩

variable (sqrt config) in
/-- What tells the categories apart is the same in all orders exactly if there is one category at
most. -/
theorem forall_shock_unique_iff {β : Type} {f : EventShock → β}
    (reads : ∀ score category other, f (shockOf score category) = f (shockOf score other) →
      category = other) :
    (∀ one other : SetOrder String, f (metricsOf sqrt config one input).shock =
        f (metricsOf sqrt config other input).shock) ↔
      ∀ event ∈ shockEvent input.events, (candidates event.eventName).length ≤ 1 := by
  rw [forall_shock_iff sqrt config]
  refine forall₂_congr fun event _ => ?_
  rw [← unique_category_iff, forall_category_iff fun category => category]
  refine forall₂_congr fun category _ => forall₂_congr fun other _ => ?_
  exact ⟨reads _ category other, fun same => by rw [same]⟩

/-! ## Signals -/

variable (sqrt config) in
/-- The bias for equity or bonds is the same in all orders exactly if the impact of the shock
is. -/
theorem forall_bias_iff {asset : Asset} (named : Named asset) :
    (∀ one other : SetOrder String, (calcAssetBiases (metricsOf sqrt config one input)).of asset =
        (calcAssetBiases (metricsOf sqrt config other input)).of asset) ↔
      ∀ event ∈ shockEvent input.events,
        ∀ category ∈ candidates event.eventName, ∀ other ∈ candidates event.eventName,
          (impactsOf category).lookup asset = (impactsOf other).lookup asset := by
  refine Iff.trans ?_
    (forall_shock_iff sqrt config fun shock => shock.affectedAssets.lookup asset)
  refine forall₂_congr fun one other => ?_
  obtain ⟨first, found, word⟩ := bias_eq_word
    (complete_metricsOf sqrt config one input) named
  obtain ⟨second, reached, other⟩ := bias_eq_word
    (complete_metricsOf sqrt config other input) named
  rw [found, reached, word, other, Option.some.injEq]
  exact word_injective.eq_iff

theorem unordered_signalOf (order : SetOrder String) (timestamp : Timestamp) (metrics : Metrics)
    (confidence : UnitRational) (vixLevel : NonnegRational) :
    (signalOf order timestamp input metrics confidence vixLevel).unordered =
      ({ signalOf asListed timestamp input metrics confidence vixLevel with dominantThemes := [] },
        (themesOf metrics : Multiset String)) :=
  Prod.ext rfl (Multiset.coe_eq_coe.mpr (order.property _))

/-- The category of the shock, which a signal reports. -/
def Signal.category (signal : Signal) : Option String :=
  match signal.metadata with
  | .details _ _ _ _ shock _ => some shock.category
  | .error _ => none

/-- **An analysis is the same in all orders of the sets exactly if the name of the first event of
high impact has one candidate at most.** The bias for equity or bonds is the same exactly if its
candidates agree on it. What arbitration reads is the same on every input. -/
theorem reproducible_iff (nonneg : ∀ x, 0 ≤ sqrt x) (config : Config) {keywords : Keywords}
    (utcnow : Timestamp) {data : Data} (parsed : parseInput keywords data = .ok input)
    (admitted : Admitted keywords) :
    ((∀ one other : SetOrder String,
        (analyze sqrt config one keywords utcnow data).map Signal.unordered =
          (analyze sqrt config other keywords utcnow data).map Signal.unordered) ↔
      ∀ event ∈ shockEvent input.events, (candidates event.eventName).length ≤ 1) ∧
    (∀ asset, Named asset →
      ((∀ one other : SetOrder String,
          (analyze sqrt config one keywords utcnow data).map (Signal.biasFor · asset) =
            (analyze sqrt config other keywords utcnow data).map (Signal.biasFor · asset)) ↔
        ∀ event ∈ shockEvent input.events,
          ∀ category ∈ candidates event.eventName, ∀ other ∈ candidates event.eventName,
            (impactsOf category).lookup asset = (impactsOf other).lookup asset)) ∧
    ∀ one other : SetOrder String,
      (analyze sqrt config one keywords utcnow data).map Signal.steady =
        (analyze sqrt config other keywords utcnow data).map Signal.steady := by
  have spec := @analyzeInput_spec sqrt config keywords input nonneg utcnow
  rw [if_pos admitted] at spec
  obtain ⟨timestamp, vixLevel, analysed⟩ := spec
  -- The regime does not depend on the order, so the confidence of one order stands for all.
  obtain ⟨confidence, result⟩ : ∃ confidence : UnitRational, ∀ order : SetOrder String,
      analyze sqrt config order keywords utcnow data =
        .ok (signalOf order timestamp input (metricsOf sqrt config order input) confidence
          vixLevel) := by
    refine ⟨⟨(metricsOf sqrt config asListed input).regime.confidence, confidence_bounds⟩, ?_⟩
    intro order
    unfold analyze
    rw [parsed]
    exact analysed order
  simp only [result, Except.map, Except.ok.injEq]
  refine ⟨?_, fun asset named => ?_, fun one other => rfl⟩
  · constructor
    · intro same
      refine (forall_shock_unique_iff sqrt config (f := EventShock.category)
        fun _ _ _ => id).mp fun one other => ?_
      exact Option.some.inj (congrArg (fun view => view.1.category) (same one other))
    · intro unique one other
      have shock := (forall_shock_unique_iff sqrt config (f := id)
        fun _ _ _ => congrArg EventShock.category).mpr unique one other
      have metrics : metricsOf sqrt config one input = metricsOf sqrt config other input :=
        congrArg (fun shock => { metricsOf sqrt config other input with shock := shock }) shock
      rw [unordered_signalOf, unordered_signalOf, metrics]
  · rw [← forall_bias_iff sqrt config named]
    refine forall₂_congr fun one other => ?_
    rcases named with rfl | rfl
    · exact Iff.rfl
    · exact Iff.rfl

end Orders

/-- An event that mentions two categories: growth is good for equity, inflation is not. -/
def sampleEvent : MacroEvent := ⟨0, "US CPI and GDP", "US", "high"⟩

theorem reproducible_sample : ¬ ∀ one other : SetOrder String,
    (analyze decimalRoot {} one { macroEvents := [sampleEvent] } 0 .none).map
        (Signal.biasFor · .equity) =
      (analyze decimalRoot {} other { macroEvents := [sampleEvent] } 0 .none).map
        (Signal.biasFor · .equity) := by
  have admitted : Admitted { macroEvents := [sampleEvent] } :=
    fun _ absent => absurd absent (Option.not_mem_none _)
  have parsed : parseInput { macroEvents := [sampleEvent] } .none = .ok _ := rfl
  have orders := reproducible_iff decimalRoot_nonneg {} 0 parsed admitted
  rw [orders.2.1 .equity (.inl rfl)]
  intro agree
  have words := agree sampleEvent rfl "cpi" (by with_unfolding_all decide) "gdp"
    (by with_unfolding_all decide)
  exact absurd words (by with_unfolding_all decide)

end TradeOS.Macro
