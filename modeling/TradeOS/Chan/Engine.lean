import TradeOS.Chan.Points
import TradeOS.Schemas
import TradeOS.Store.Files

/-!
# The Chan engine

`analyze` takes a price series through fractals, strokes, segments, centers, divergences and
trading points, and makes one signal of them. On the way `_synthesize_signal` reads the entry
`"summary"` of the summary of the centers. The summary has this entry only when there is no
center: with a center it has `"count"`, `"latest"` and `"all_ranges"`.

So the analysis of a series fails exactly if three consecutive segments of it overlap
(`lookups_succeed_iff`), that is when the engine has found what it looks for.

Every other place that is read is there: the last entry of a list is read only if the list
has one. The scores that end up in the signal are in the unit interval by their type, so the
checks of the signal's fields pass.
-/

set_option autoImplicit false

namespace TradeOS.Chan

open Numeric
open Store (MarketBar)

/-! ## Configuration and input -/

/-- The configuration of an engine. -/
structure ChanConfig where
  biMinBars : ℤ := 5
  segmentBackRatio : ℚ := 1 / 2
  divergenceMacdPeriods : ℕ × ℕ × ℕ := (12, 26, 9)
  higherTimeframe : String := "D"
  lowerTimeframe : String := "30m"
  deriving DecidableEq

/-- What an analysis can raise. -/
inductive AnalysisError where
  | valueError (message : String)
  | keyError (key : String)
  deriving DecidableEq

/-- `_check_bars`, on a list of bars. -/
def checkBars (bars : List MarketBar) (minLength : ℕ) : Except AnalysisError (List MarketBar) :=
  if bars = [] then .error (.valueError "Input bars list is empty")
  else if bars.length < minLength then
    .error (.valueError ("Insufficient bars: got " ++ toString bars.length ++
      ", need at least " ++ toString minLength))
  else .ok bars

/-- The prices of a bar of which fractals are made. -/
def barOf (bar : MarketBar) : Bar := ⟨bar.low, bar.high⟩

/-- The strokes of a series, by its fractals with inclusion handling. -/
def strokesOf (config : ChanConfig) (bars : List MarketBar) : List Stroke :=
  buildStrokes (detectFractals (bars.map barOf) true 3) config.biMinBars

/-- The segments of a series. -/
def segmentsOf (config : ChanConfig) (bars : List MarketBar) : List Segment :=
  buildSegments (strokesOf config bars)

/-! ## Direction and regime -/

/-- A score of the signal. -/
abbrev score (q : ℚ) : UnitRational := UnitRational.clamp q

/-- A direction with its scores. -/
structure DirectionScores where
  direction : Direction
  confidence : UnitRational
  entryScore : UnitRational := score (1 / 2)
  exitScore : UnitRational := score (1 / 2)
  deriving DecidableEq

theorem roundTo_bounds (digits : ℕ) (q : UnitRational) :
    0 ≤ roundTo digits q.val ∧ roundTo digits q.val ≤ 1 :=
  roundTo_mem_unit digits q.property.1 q.property.2

/-- A score, rounded. -/
def roundScore (digits : ℕ) (q : UnitRational) : UnitRational :=
  ⟨roundTo digits q.val, roundTo_bounds digits q⟩

/-- The scores of a direction, rounded. -/
def DirectionScores.rounded (scores : DirectionScores) : DirectionScores where
  direction := scores.direction
  confidence := roundScore 3 scores.confidence
  entryScore := roundScore 2 scores.entryScore
  exitScore := roundScore 2 scores.exitScore

theorem divergenceEntry_bounds (severity : UnitRational) :
    0 ≤ min (9 / 10) (5 / 10 + severity.val * (4 / 10)) ∧
      min (9 / 10) (5 / 10 + severity.val * (4 / 10)) ≤ 1 := by
  have nonneg := severity.property.1
  exact ⟨le_min (by norm_num) (by positivity), (min_le_left _ _).trans (by norm_num)⟩

/-- The entry score that a divergence gives. -/
def divergenceEntry (severity : UnitRational) : UnitRational :=
  ⟨min (9 / 10) (5 / 10 + severity.val * (4 / 10)), divergenceEntry_bounds severity⟩

/-- The direction of a trading point. -/
def TradingPointType.direction : TradingPointType → Direction
  | .purchase1 | .purchase2 | .purchase3 => .long
  | .sell1 | .sell2 | .sell3 => .short
  | .structureInvalid => .flat

/-- The direction to trade along a stroke. -/
def StrokeDirection.toDirection : StrokeDirection → Direction
  | .up => .long
  | .down => .short

/-- The scores of a divergence. -/
def scoresOfDivergence (div : Divergence) : DirectionScores :=
  match div.divergenceType with
  | .bullish =>
      ⟨.long, divergenceConfidence div.severity, divergenceEntry div.severity, score (3 / 10)⟩
  | .bearish =>
      ⟨.short, divergenceConfidence div.severity, divergenceEntry div.severity, score (3 / 10)⟩
  | .none => { direction := .flat, confidence := score (3 / 10) }

/-- The scores of a trading point. -/
def scoresOfPoint (point : TradingPoint) : DirectionScores :=
  match point.pointType.direction with
  | .flat => { direction := .flat, confidence := score (3 / 10) }
  | direction =>
      { direction := direction, confidence := point.confidence, entryScore := point.confidence }

/-- The scores of a price outside or inside a center. -/
def scoresOfCenter (currentPrice : ℚ) (center : Center) : DirectionScores :=
  if center.zg < currentPrice then { direction := .long, confidence := score (1 / 2) }
  else if currentPrice < center.zd then { direction := .short, confidence := score (1 / 2) }
  else { direction := .flat, confidence := score (3 / 10) }

/-- The scores of the last stroke alone. -/
def scoresOfStroke : Option Stroke → DirectionScores
  | some stroke => { direction := stroke.direction.toDirection, confidence := score (4 / 10) }
  | none => { direction := .flat, confidence := score (2 / 10) }

/-- The scores where the structure is invalid: along the last stroke. -/
def scoresOfInvalid : Option Stroke → DirectionScores
  | some stroke =>
      match stroke.direction with
      | .up => ⟨.long, score (6 / 10), score (7 / 10), score (3 / 10)⟩
      | .down => ⟨.short, score (6 / 10), score (3 / 10), score (7 / 10)⟩
  | none => ⟨.flat, score (3 / 10), score (3 / 10), score (3 / 10)⟩

/-- `_calc_direction`. -/
def calcDirection (latestStroke : Option Stroke) (latestDiv : Option Divergence)
    (latestPoint : Option TradingPoint) (invalid : Bool) (centers : List Center)
    (currentPrice : ℚ) : DirectionScores :=
  if invalid then scoresOfInvalid latestStroke
  else
    DirectionScores.rounded <|
      match latestDiv, latestPoint, centers.getLast? with
      | some div, _, _ => scoresOfDivergence div
      | none, some point, _ => scoresOfPoint point
      | none, none, some center => scoresOfCenter currentPrice center
      | none, none, none => scoresOfStroke latestStroke

/-- `_calc_regime`: by the last two centers, or by the price and the last one. -/
def calcRegime (centers : List Center) (currentPrice : ℚ) : Regime :=
  match centers.reverse with
  | [] => .unknown
  | latest :: previous :: _ =>
      if previous.mid < latest.mid then .trendingUp
      else if latest.mid < previous.mid then .trendingDown
      else .ranging
  | [latest] =>
      if isPriceInCenter currentPrice latest then .ranging
      else if latest.zg < currentPrice then .trendingUp
      else if currentPrice < latest.zd then .trendingDown
      else .ranging

/-! ## The signal -/

/-- The signal of the engine. -/
structure Signal extends ChanSignal where
  entryScore : UnitRational
  exitScore : UnitRational
  fractalLevel : Option String
  biStatus : String
  segmentStatus : String
  zhongshuStatus : SummaryValue
  divergence : Option String := none
  purchasePoint : Option ℕ := none
  sellPoint : Option ℕ := none

/-- The text of the direction of a stroke. -/
def StrokeDirection.value : StrokeDirection → String
  | .up => "up"
  | .down => "down"

/-- The text of the direction of a segment. -/
def SegmentDirection.value : SegmentDirection → String
  | .up => "up"
  | .down => "down"

/-- The status of the strokes. -/
def biStatus (latestStroke : Option Stroke) : String :=
  match latestStroke with
  | some stroke => stroke.direction.value ++ "_forming"
  | none => "unknown"

/-- The status of the segments. -/
def segmentStatus (latestSegment : Option Segment) : String :=
  match latestSegment with
  | some segment => segment.direction.value ++ "_segment"
  | none => "no_segment"

/-- The fractal to expect next. -/
def fractalLevel (latestStroke : Option Stroke) : Option String :=
  latestStroke.map fun stroke =>
    match stroke.direction with
    | .up => "potential_top"
    | .down => "potential_bottom"

/-- Reading an entry of a summary that may not be there. -/
def Summary.read (summary : Summary) (key : String) : Except AnalysisError SummaryValue :=
  match summary.lookup key with
  | some value => .ok value
  | none => .error (.keyError key)

/-- The entry of the summary that the synthesis reads. -/
def summaryKey : String := "summary"

/-- `_synthesize_signal`. -/
def synthesizeSignal (strokes : List Stroke) (segments : List Segment) (centers : List Center)
    (divergences : List Divergence) (points : List TradingPoint) (invalid : Bool)
    (currentPrice : ℚ) : Except AnalysisError Signal := do
  let zhongshuStatus ← (summarizeCenters centers).read summaryKey
  let scores := calcDirection strokes.getLast? divergences.getLast? (getLatestTradingPoint points)
    invalid centers currentPrice
  return {
    direction := scores.direction
    confidence := scores.confidence
    regime := calcRegime centers currentPrice
    entryScore := scores.entryScore
    exitScore := scores.exitScore
    fractalLevel := fractalLevel strokes.getLast?
    biStatus := biStatus strokes.getLast?
    segmentStatus := segmentStatus segments.getLast?
    zhongshuStatus := zhongshuStatus }

/-- The class of a purchase. -/
def TradingPointType.purchaseClass : TradingPointType → Option ℕ
  | .purchase1 => some 1
  | .purchase2 => some 2
  | .purchase3 => some 3
  | _ => none

/-- The class of a sell. -/
def TradingPointType.sellClass : TradingPointType → Option ℕ
  | .sell1 => some 1
  | .sell2 => some 2
  | .sell3 => some 3
  | _ => none

/-- `analyze`. -/
def analyze (config : ChanConfig) (data : List MarketBar) : Except AnalysisError Signal := do
  let bars ← checkBars data 30
  let closes := bars.map MarketBar.close
  let strokes := strokesOf config bars
  let segments := segmentsOf config bars
  let centers := buildCenters segments
  let (fast, slow, signalPeriod) := config.divergenceMacdPeriods
  let divergences := detectDivergence exactSummation strokes closes fast slow signalPeriod
  let points := detectPurchasePoints strokes centers divergences ++
    detectSellPoints strokes centers divergences
  let invalid := checkStructureInvalidation strokes divergences
  let signal ← synthesizeSignal strokes segments centers divergences points invalid.isSome
    (closes.getLastD 0)
  let latestPoint := getLatestTradingPoint points
  return { signal with
    divergence := divergences.getLast?.map fun div => div.divergenceType.value
    purchasePoint := latestPoint.bind fun point => point.pointType.purchaseClass
    sellPoint := latestPoint.bind fun point => point.pointType.sellClass }

/-! ## Lookups -/

theorem read_summary_iff (segments : List Segment) :
    (∃ value, (summarizeCenters (buildCenters segments)).lookup summaryKey = some value) ↔
      OverlapFree segments := by
  rw [← buildCenters_eq_nil_iff]
  cases found : (buildCenters segments).getLast? with
  | none =>
      refine iff_of_true ⟨.text "no_center", ?_⟩ (List.getLast?_eq_none_iff.mp found)
      rw [summarizeCenters, found]
      rfl
  | some latest =>
      refine iff_of_false ?_ ?_
      · rintro ⟨value, read⟩
        rw [summarizeCenters, found] at read
        cases read
      · intro empty
        rw [empty] at found
        cases found

/-- The synthesis fails at its one lookup or not at all. -/
theorem synthesizeSignal_cases (strokes : List Stroke) (segments : List Segment)
    (divergences : List Divergence) (points : List TradingPoint) (invalid : Bool)
    (currentPrice : ℚ) :
    (OverlapFree segments ∧ ∃ signal, synthesizeSignal strokes segments (buildCenters segments)
        divergences points invalid currentPrice = .ok signal) ∨
      (¬ OverlapFree segments ∧ synthesizeSignal strokes segments (buildCenters segments)
        divergences points invalid currentPrice = .error (.keyError summaryKey)) := by
  by_cases free : OverlapFree segments
  · obtain ⟨value, read⟩ := (read_summary_iff segments).mpr free
    refine .inl ⟨free, ?_⟩
    unfold synthesizeSignal Summary.read
    rw [read]
    exact ⟨_, rfl⟩
  · have missing : (summarizeCenters (buildCenters segments)).lookup summaryKey = none := by
      refine Option.eq_none_iff_forall_ne_some.mpr fun value read => ?_
      exact free ((read_summary_iff segments).mp ⟨value, read⟩)
    refine .inr ⟨free, ?_⟩
    unfold synthesizeSignal Summary.read
    rw [missing]
    rfl

theorem checkBars_of_le {bars : List MarketBar} {minLength : ℕ} (positive : 0 < minLength)
    (enough : minLength ≤ bars.length) : checkBars bars minLength = .ok bars := by
  unfold checkBars
  rw [if_neg, if_neg (not_lt.mpr enough)]
  rintro rfl
  exact absurd (positive.trans_le enough) (lt_irrefl 0)

/-- The analysis of at least thirty bars returns a signal or fails at the lookup. -/
theorem analyze_cases (config : ChanConfig) {bars : List MarketBar} (enough : 30 ≤ bars.length) :
    (OverlapFree (segmentsOf config bars) ∧ ∃ signal, analyze config bars = .ok signal) ∨
      (¬ OverlapFree (segmentsOf config bars) ∧
        analyze config bars = .error (.keyError summaryKey)) := by
  unfold analyze
  rw [checkBars_of_le (by decide) enough]
  rcases synthesizeSignal_cases _ (segmentsOf config bars) _ _ _ _ with
    ⟨free, signal, returned⟩ | ⟨taken, failed⟩
  · refine .inl ⟨free, ?_⟩
    simp only [bind, Except.bind]
    rw [returned]
    exact ⟨_, rfl⟩
  · refine .inr ⟨taken, ?_⟩
    simp only [bind, Except.bind]
    rw [failed]

/-- **The summary of the centers has the entry that the synthesis reads, and the analysis of
at least thirty bars raises no lookup error, if and only if no three consecutive segments
overlap.** -/
theorem lookups_succeed_iff (segments : List Segment) (config : ChanConfig)
    {bars : List MarketBar} (enough : 30 ≤ bars.length) :
    ((∃ value, (summarizeCenters (buildCenters segments)).lookup summaryKey = some value) ↔
        OverlapFree segments) ∧
      ((∀ key, analyze config bars ≠ .error (.keyError key)) ↔
        OverlapFree (segmentsOf config bars)) := by
  refine ⟨read_summary_iff segments, ?_⟩
  rcases analyze_cases config enough with ⟨free, signal, returned⟩ | ⟨taken, failed⟩
  · refine iff_of_true (fun key failed => ?_) free
    rw [returned] at failed
    cases failed
  · exact iff_of_false (fun silent => silent summaryKey failed) taken

/-- The bars of a price series, one a minute. -/
def sampleSeries (prices : List Bar) : List MarketBar :=
  prices.mapIdx fun minutes bar =>
    { Store.sampleBar minutes with
      low := bar.low, high := bar.high, opening := bar.low, close := bar.low }

/-- Ten bars with one stroke down, from 16 to 2. -/
def wave : List Bar :=
  [⟨7, 15⟩, ⟨6, 16⟩, ⟨8, 14⟩, ⟨9, 13⟩, ⟨7, 13⟩, ⟨7, 13⟩, ⟨5, 13⟩, ⟨3, 13⟩, ⟨3, 13⟩, ⟨2, 15⟩]

/-- Six strokes down have two segments: they are analyzed. -/
theorem lookups_succeed_twoSegments :
    segmentsOf {} (sampleSeries ((List.replicate 6 wave).flatten ++ [⟨7, 15⟩])) =
        [⟨.down, 0, 2, 16, 2, 14, 3⟩, ⟨.down, 3, 5, 16, 2, 14, 3⟩] ∧
      ∀ key, analyze {} (sampleSeries ((List.replicate 6 wave).flatten ++ [⟨7, 15⟩])) ≠
        .error (.keyError key) := by
  have segments : segmentsOf {} (sampleSeries ((List.replicate 6 wave).flatten ++ [⟨7, 15⟩])) =
      [⟨.down, 0, 2, 16, 2, 14, 3⟩, ⟨.down, 3, 5, 16, 2, 14, 3⟩] := by
    with_unfolding_all decide
  have enough : 30 ≤ (sampleSeries ((List.replicate 6 wave).flatten ++ [⟨7, 15⟩])).length := by
    decide
  refine ⟨segments, (lookups_succeed_iff [] {} enough).2.mpr ?_⟩
  rw [segments]
  exact overlapFree_of_length (by decide)

/-- Nine strokes down: three segments, one center. -/
def waves : List MarketBar := sampleSeries ((List.replicate 9 wave).flatten ++ [⟨7, 15⟩])

theorem not_overlapFree_waves : ¬ OverlapFree (segmentsOf {} waves) := by
  have segments : segmentsOf {} waves = [⟨.down, 0, 2, 16, 2, 14, 3⟩,
      ⟨.down, 3, 5, 16, 2, 14, 3⟩, ⟨.down, 6, 8, 16, 2, 14, 3⟩] := by
    with_unfolding_all decide
  rw [segments]
  intro free
  exact free _ _ _ (List.infix_refl _) (by with_unfolding_all decide)

/-- The analysis of a series with a center fails, as its summary has no text. -/
theorem analyze_waves_fails :
    (summarizeCenters (buildCenters (segmentsOf {} waves))).lookup summaryKey = none ∧
      30 ≤ waves.length ∧ analyze {} waves = .error (.keyError "summary") := by
  have enough : 30 ≤ waves.length := by decide
  refine ⟨?_, enough, ?_⟩
  · refine Option.eq_none_iff_forall_ne_some.mpr fun value read => ?_
    exact not_overlapFree_waves ((read_summary_iff _).mp ⟨value, read⟩)
  · rcases analyze_cases {} enough with ⟨free, -⟩ | ⟨-, failed⟩
    · exact absurd free not_overlapFree_waves
    · exact failed

end TradeOS.Chan
