import TradeOS.Arbitration.Derived

/-!
# The modules of the live pipeline

The six analysis modules of `core/data/live/orchestrator.py`, with the payloads they return. The
orchestrator reads a direction off a payload for the support summary that it shows to the user,
apart from the direction that arbitration derives from the same payload.

The two readings agree on technical, chan and order-flow payloads that arbitration hears. The
support summary reads a sentiment of the scale from `0` to `1` as if zero were neutral, and shows
the bias text of a macro signal in place of a direction (`support_agrees_iff`).
-/

set_option autoImplicit false

namespace TradeOS.Live

open Arbitration

/-! ## Payloads -/

/-- The part of an order-flow signal that the pipeline reads. -/
structure OrderFlowPayload extends OrderFlowSignal where
  absorptionScore : UnitRational := UnitRational.zero

/-- The part of a macro signal that the pipeline reads. The bias is a free text, documented as
`bullish`, `bearish` or `neutral`. -/
structure MacroPayload extends MacroSignal where
  equityBias : String := "neutral"

/-- The part of a fundamental report that the pipeline reads. -/
structure FundamentalPayload extends FundamentalReport where
  qualityScore : ℚ

/-- What a module returns. -/
inductive Payload where
  | technical (sig : TechnicalSignal)
  | chan (sig : ChanSignal)
  | orderflow (sig : OrderFlowPayload)
  | sentiment (sig : SentimentEvent)
  | macroRegime (sig : MacroPayload)
  | fundamental (report : FundamentalPayload)

/-- The result of a module, reduced to its name and its payload. -/
structure ModuleRunResult where
  moduleName : String
  payload : Option Payload := none

/-- The text that a signed number is shown as, with a band of `0.05` around zero. -/
def bandText (value : ℚ) : String :=
  if 5 / 100 < value then "LONG" else if value < -(5 / 100) then "SHORT" else "FLAT"

/-- `_output_direction`. -/
def ModuleRunResult.outputDirection (result : ModuleRunResult) : String :=
  match result.payload with
  | none => "n/a"
  | some (.technical sig) => upper sig.direction.value
  | some (.chan sig) => upper sig.direction.value
  | some (.macroRegime sig) => upper sig.equityBias
  | some (.orderflow sig) => bandText sig.bookImbalance
  | some (.sentiment sig) => bandText sig.compositeSentiment.val
  | some (.fundamental _) => "n/a"

/-- `_confidence`. -/
def ModuleRunResult.confidence (result : ModuleRunResult) : Option ℚ :=
  match result.payload with
  | none => none
  | some (.technical sig) => some sig.confidence.val
  | some (.chan sig) => some sig.confidence.val
  | some (.macroRegime sig) => some sig.regimeConfidence.val
  | some (.fundamental report) => some report.qualityScore
  | some (.orderflow sig) => some sig.absorptionScore.val
  | some (.sentiment sig) => some (min |sig.compositeSentiment.val| 1)

/-! ## The support summary -/

/-- The summary of what the modules say. -/
structure SupportSummary where
  longSupport : List String := []
  shortSupport : List String := []
  neutralSupport : List String := []
  longScore : ℚ := 0
  shortScore : ℚ := 0
  dominantDirection : String := "neutral"
  dominantConfidence : ℚ := 0

/-- The direction that the summary reads. -/
def ModuleRunResult.listedDirection (result : ModuleRunResult) : String :=
  upper (if result.outputDirection = "" then "n/a" else result.outputDirection)

/-- One round of the loop over the modules. -/
def SupportSummary.count (summary : SupportSummary) (result : ModuleRunResult) : SupportSummary :=
  let confidence := result.confidence.getD 0
  if result.listedDirection = "LONG" then
    { summary with
      longSupport := summary.longSupport ++ [result.moduleName]
      longScore := summary.longScore + confidence }
  else if result.listedDirection = "SHORT" then
    { summary with
      shortSupport := summary.shortSupport ++ [result.moduleName]
      shortScore := summary.shortScore + confidence }
  else { summary with neutralSupport := summary.neutralSupport ++ [result.moduleName] }

/-- `_module_support_summary`. -/
def moduleSupportSummary (modules : List ModuleRunResult) : SupportSummary :=
  let counted := modules.foldl SupportSummary.count {}
  { counted with
    longScore := Numeric.roundTo 4 counted.longScore
    shortScore := Numeric.roundTo 4 counted.shortScore
    dominantDirection :=
      if counted.shortScore < counted.longScore then "long"
      else if counted.longScore < counted.shortScore then "short"
      else "neutral"
    dominantConfidence :=
      Numeric.roundTo 4
        (max (max counted.longScore counted.shortScore) 0 / max (modules.length : ℚ) 1) }

/-- The summary lists a module on the side that it reads. -/
theorem mem_longSupport_iff (modules : List ModuleRunResult) (name : String) :
    name ∈ (moduleSupportSummary modules).longSupport ↔
      ∃ result ∈ modules, result.moduleName = name ∧ result.listedDirection = "LONG" := by
  have counted : ∀ summary : SupportSummary,
      name ∈ (modules.foldl SupportSummary.count summary).longSupport ↔
        name ∈ summary.longSupport ∨
          ∃ result ∈ modules, result.moduleName = name ∧ result.listedDirection = "LONG" := by
    induction modules with
    | nil => simp
    | cons result modules ih =>
        intro summary
        rw [List.foldl_cons, ih, List.exists_mem_cons_iff, ← or_assoc]
        refine or_congr_left ?_
        unfold SupportSummary.count
        split_ifs with long short <;> simp [long, eq_comm]
  rw [moduleSupportSummary]
  exact (counted {}).trans (or_iff_right (List.not_mem_nil))

/-! ## The two readings of a payload -/

/-- The arbitration input with one payload. -/
def Payload.signals : Payload → AnalysisSignals
  | .technical sig => { technical := some sig }
  | .chan sig => { chan := some sig }
  | .orderflow sig => { orderflow := some sig.toOrderFlowSignal }
  | .sentiment sig => { sentiment := some sig }
  | .macroRegime sig => { macroSignal := some sig.toMacroSignal }
  | .fundamental report => { fundamental := some report.toFundamentalReport }

/-- The name that the summary has for a direction. -/
def directionName : Direction → String
  | .long => "LONG"
  | .short => "SHORT"
  | .flat => "FLAT"

theorem upper_value (direction : Direction) : upper direction.value = directionName direction := by
  cases direction with
  | long => with_unfolding_all decide
  | short => with_unfolding_all decide
  | flat => with_unfolding_all decide

/-- The payloads on which both readings agree once arbitration hears them. -/
def Payload.ReadAlike : Payload → Prop
  | .technical _ | .chan _ | .orderflow _ | .fundamental _ => True
  | .sentiment sig => 1 / 2 < sig.compositeSentiment.val
  | .macroRegime sig => upper sig.equityBias = directionName (if sig.riskOn then .long else .short)

/-- The one signal that arbitration hears from a payload. -/
theorem derived_eq_singleton_iff {signals : AnalysisSignals} (only : DirectionalSignal)
    {d : DirectionalSignal}
    (listed : directionalSignals signals = [only]) :
    derived signals = [d] ↔ only = d ∧ lowConfidenceThreshold ≤ only.confidence.val := by
  rw [derived, listed, List.filter_singleton]
  by_cases heard : lowConfidenceThreshold ≤ only.confidence.val
  · simp [heard]
  · simp [heard]

/-- An order-flow signal that is heard lies outside both bands. -/
theorem bandText_of_heard {sig : OrderFlowSignal}
    (heard : lowConfidenceThreshold ≤ (orderflowDirectional sig).confidence.val) :
    bandText sig.bookImbalance = directionName (orderflowDirectional sig).direction := by
  unfold orderflowDirectional at heard ⊢
  dsimp only at heard ⊢
  by_cases near : |sig.bookImbalance| < 1 / 10
  · rw [if_pos near] at heard
    norm_num [lowConfidenceThreshold, zeroConfidence, UnitRational.zero] at heard
  · rw [if_neg near]
    rw [not_lt, le_abs] at near
    dsimp only
    by_cases positive : 0 < sig.bookImbalance
    · have above : 5 / 100 < sig.bookImbalance := by rcases near with far | far <;> linarith
      rw [if_pos positive, bandText, if_pos above]
      rfl
    · have below : sig.bookImbalance < -(5 / 100) := by rcases near with far | far <;> linarith
      rw [if_neg positive, bandText, if_neg (by linarith), if_pos below]
      rfl

/-- A sentiment that is heard is read alike exactly when it is above one half: below one half it
is shown as long or flat. -/
theorem bandText_sentiment_iff {sig : SentimentEvent}
    (heard : lowConfidenceThreshold ≤ (sentimentDirectional sig).confidence.val) :
    bandText sig.compositeSentiment.val = directionName (sentimentDirectional sig).direction ↔
      1 / 2 < sig.compositeSentiment.val := by
  have nonneg := sig.compositeSentiment.property.1
  unfold sentimentDirectional at heard ⊢
  dsimp only at heard ⊢
  by_cases near : |sig.compositeSentiment.val - 1 / 2| < 1 / 10
  · rw [if_pos near] at heard
    norm_num [lowConfidenceThreshold, zeroConfidence, UnitRational.zero] at heard
  · rw [if_neg near]
    dsimp only
    by_cases positive : 1 / 2 < sig.compositeSentiment.val
    · rw [if_pos positive, bandText, if_pos (by linarith)]
      exact iff_of_true rfl positive
    · refine iff_of_false ?_ positive
      have above : ¬ sig.compositeSentiment.val < -(5 / 100) := by linarith
      rw [if_neg positive, bandText, if_neg above]
      split_ifs <;> decide

/-- **The summary and arbitration read a payload alike exactly if it is a technical, chan or
order-flow payload, a sentiment above one half, or a macro signal whose bias text names the side of
its risk appetite**, for every payload that passes the noise filter. -/
theorem support_agrees_iff (name : String) (payload : Payload) (d : DirectionalSignal)
    (heard : derived payload.signals = [d]) :
    (ModuleRunResult.mk name (some payload)).outputDirection = directionName d.direction ↔
      payload.ReadAlike := by
  cases payload with
  | technical sig =>
      obtain ⟨rfl, -⟩ := (derived_eq_singleton_iff (technicalDirectional sig) rfl).mp heard
      exact iff_of_true (upper_value _) trivial
  | chan sig =>
      obtain ⟨rfl, -⟩ := (derived_eq_singleton_iff (chanDirectional sig) rfl).mp heard
      exact iff_of_true (upper_value _) trivial
  | orderflow sig =>
      obtain ⟨rfl, loud⟩ :=
        (derived_eq_singleton_iff (orderflowDirectional sig.toOrderFlowSignal) rfl).mp heard
      exact iff_of_true (bandText_of_heard loud) trivial
  | sentiment sig =>
      obtain ⟨rfl, loud⟩ := (derived_eq_singleton_iff (sentimentDirectional sig) rfl).mp heard
      exact bandText_sentiment_iff loud
  | macroRegime sig =>
      obtain ⟨rfl, -⟩ :=
        (derived_eq_singleton_iff (macroDirectional sig.toMacroSignal) rfl).mp heard
      exact Iff.rfl
  | fundamental report => cases heard

/-- No documented bias text of a macro signal names a side. -/
theorem not_readAlike_documented (sig : MacroPayload)
    (documented : sig.equityBias ∈ ["bullish", "bearish", "neutral"]) :
    ¬ (Payload.macroRegime sig).ReadAlike := by
  have texts : ∀ text ∈ ["bullish", "bearish", "neutral"], ∀ direction,
      upper text ≠ directionName direction := by
    intro text member direction
    cases direction <;> revert text <;> with_unfolding_all decide
  exact texts _ documented _

/-- An order-flow payload of imbalance one half. -/
def buyingPressure : Payload := .orderflow ⟨⟨1 / 2⟩, UnitRational.zero⟩

theorem support_agrees_buying :
    derived buyingPressure.signals = [orderflowDirectional ⟨1 / 2⟩] ∧
      (ModuleRunResult.mk "OrderFlow" (some buyingPressure)).outputDirection =
        directionName (orderflowDirectional ⟨1 / 2⟩).direction := by
  have heard : derived buyingPressure.signals = [orderflowDirectional ⟨1 / 2⟩] :=
    (derived_eq_singleton_iff _ rfl).mpr ⟨rfl, by with_unfolding_all decide⟩
  exact ⟨heard, (support_agrees_iff "OrderFlow" buyingPressure _ heard).mpr trivial⟩

/-- A negative sentiment, and a risk-off macro signal. -/
def bearishSentiment : SentimentEvent := ⟨UnitRational.clamp (1 / 5)⟩

def bearishMacro : MacroPayload where
  regimeConfidence := UnitRational.clamp (4 / 5)
  riskOn := false
  equityBias := "bearish"

/-- Arbitration counts both as short; the summary lists the first as supporting long, and the
second nowhere. -/
theorem support_disagrees :
    (derived (Payload.sentiment bearishSentiment).signals).map DirectionalSignal.direction =
        [.short] ∧
      (derived (Payload.macroRegime bearishMacro).signals).map DirectionalSignal.direction =
        [.short] ∧
      (ModuleRunResult.mk "Sentiment" (some (.sentiment bearishSentiment))).outputDirection =
        "LONG" ∧
      (ModuleRunResult.mk "Macro" (some (.macroRegime bearishMacro))).outputDirection =
        "BEARISH" ∧
      (moduleSupportSummary [⟨"Sentiment", some (.sentiment bearishSentiment)⟩,
        ⟨"Macro", some (.macroRegime bearishMacro)⟩]).longSupport = ["Sentiment"] ∧
      (moduleSupportSummary [⟨"Sentiment", some (.sentiment bearishSentiment)⟩,
        ⟨"Macro", some (.macroRegime bearishMacro)⟩]).shortSupport = [] := by
  with_unfolding_all decide

end TradeOS.Live
