import TradeOS.Arbitration.Neutrality
import TradeOS.Technical.Engine

/-!
# The mirrored direction

A market upside down has the opposite trend, momentum and patterns, and its direction should be the
opposite one with the same confidence. The score takes the trend and the patterns with their signs,
but the momentum with the sign that it has in an up trend or in all others. So the mirrored score
is that of the opposite momentum, with the other sign (`netScore_opposite`), and without a trend it
is the score itself.

The direction is then mirrored exactly if the momentum does not matter (`mirrored_iff`): without a
trend or a momentum, or if the score is flat, or fully confident, with the one momentum and the
other. Without patterns that never happens in a trend.
-/

set_option autoImplicit false

namespace TradeOS.Technical

open Numeric
open Arbitration (opposite opposite_opposite)

/-! ## The mirror -/

def TrendState.opposite : TrendState → TrendState
  | .up => .down
  | .down => .up
  | .sideways => .sideways

def MomentumState.opposite : MomentumState → MomentumState
  | .strengthening => .weakening
  | .weakening => .strengthening
  | .neutral => .neutral

def PatternDirection.opposite : PatternDirection → PatternDirection
  | .bullish => .bearish
  | .bearish => .bullish
  | .neutral => .neutral

def Pattern.opposite (pattern : Pattern) : Pattern :=
  { pattern with direction := pattern.direction.opposite }

def CandlePattern.opposite (pattern : CandlePattern) : CandlePattern :=
  { pattern with direction := pattern.direction.opposite }

theorem signedConfidence_opposite (direction : PatternDirection) (confidence : ℚ) :
    signedConfidence direction.opposite confidence = -signedConfidence direction confidence := by
  cases direction with
  | bullish => rfl
  | bearish => exact (neg_neg confidence).symm
  | neutral => exact neg_zero.symm

/-! ## The score -/

def trendPart : TrendState → ℚ
  | .up => 1
  | .down => -1
  | .sideways => 0

def momentumPart (trend : TrendState) : MomentumState → ℚ
  | .strengthening => if trend = .up then 1 / 2 else -(1 / 2)
  | .weakening => if trend = .up then -(1 / 2) else 1 / 2
  | .neutral => 0

/-- What the first patterns add to the score. -/
def patternPart (pattern : Option Pattern) (candle : Option CandlePattern) : ℚ :=
  (pattern.elim 0 fun p => signedConfidence p.direction p.confidence) +
    candle.elim 0 fun c => signedConfidence c.direction (c.confidence * (1 / 2))

/-- The number of parts of the score. -/
def partCount (pattern : Option Pattern) (candle : Option CandlePattern) : ℕ :=
  2 + pattern.elim 0 (fun _ => 1) + candle.elim 0 (fun _ => 1)

section Score

variable (trend : TrendState) (momentum : MomentumState) (pattern : Option Pattern)
  (candle : Option CandlePattern)

theorem netScore_eq :
    netScore trend momentum pattern candle =
      (trendPart trend + patternPart pattern candle + momentumPart trend momentum) /
        partCount pattern candle := by
  have parts : netScore trend momentum pattern candle =
      (trendPart trend + momentumPart trend momentum +
        (pattern.elim 0 fun p => signedConfidence p.direction p.confidence) +
          candle.elim 0 fun c => signedConfidence c.direction (c.confidence * (1 / 2))) /
        partCount pattern candle := rfl
  rw [parts, patternPart]
  ring

theorem trendPart_opposite : trendPart trend.opposite = -trendPart trend := by
  cases trend with
  | up => rfl
  | down => exact (neg_neg 1).symm
  | sideways => exact neg_zero.symm

/-- In a trend the momentum keeps its sign, and only without one it is mirrored. -/
theorem momentumPart_opposite :
    momentumPart trend.opposite momentum.opposite =
      if trend = .sideways then -momentumPart trend momentum else momentumPart trend momentum := by
  cases trend <;> cases momentum <;>
    simp [momentumPart, TrendState.opposite, MomentumState.opposite]

theorem patternPart_opposite :
    patternPart (pattern.map Pattern.opposite) (candle.map CandlePattern.opposite) =
      -patternPart pattern candle := by
  have ofPattern : ((pattern.map Pattern.opposite).elim 0 fun p =>
      signedConfidence p.direction p.confidence) =
        -(pattern.elim 0 fun p => signedConfidence p.direction p.confidence) := by
    cases pattern with
    | none => exact neg_zero.symm
    | some p => exact signedConfidence_opposite p.direction p.confidence
  have ofCandle : ((candle.map CandlePattern.opposite).elim 0 fun c =>
      signedConfidence c.direction (c.confidence * (1 / 2))) =
        -(candle.elim 0 fun c => signedConfidence c.direction (c.confidence * (1 / 2))) := by
    cases candle with
    | none => exact neg_zero.symm
    | some c => exact signedConfidence_opposite c.direction (c.confidence * (1 / 2))
  rw [patternPart, ofPattern, ofCandle, patternPart]
  ring

theorem partCount_opposite :
    partCount (pattern.map Pattern.opposite) (candle.map CandlePattern.opposite) =
      partCount pattern candle := by
  cases pattern <;> cases candle <;> rfl

/-- The mirrored score has the other sign, and in a trend the opposite momentum. -/
theorem netScore_opposite :
    netScore trend.opposite momentum.opposite (pattern.map Pattern.opposite)
        (candle.map CandlePattern.opposite) =
      -netScore trend (if trend = .sideways then momentum else momentum.opposite) pattern
        candle := by
  rw [netScore_eq, netScore_eq, trendPart_opposite, patternPart_opposite, partCount_opposite,
    momentumPart_opposite]
  have turned : (if trend = .sideways then -momentumPart trend momentum
      else momentumPart trend momentum) =
      -momentumPart trend (if trend = .sideways then momentum else momentum.opposite) := by
    cases trend <;> cases momentum <;> simp [momentumPart, MomentumState.opposite]
  rw [turned, ← neg_div]
  ring

end Score

/-! ## The confidence -/

/-- The confidence in a direction with a score of a size. -/
def confident (size : ℚ) : ℚ := roundTo 3 (min (95 / 100) (1 / 2 + size * (1 / 2)))

theorem confident_le (size : ℚ) : confident size ≤ 95 / 100 := by
  have capped := roundTo_le_of_le 3 950
    ((min_le_left (95 / 100) (1 / 2 + size * (1 / 2))).trans_eq (by norm_num))
  rw [confident]
  exact capped.trans_eq (by norm_num)

/-- The cap is reached from a half unit below it on, since its last digit is even. -/
theorem full_le_confident_iff (size : ℚ) : 95 / 100 ≤ confident size ↔ 899 / 1000 ≤ size := by
  have units : ⌈(95 / 100 : ℚ) * 10 ^ 3⌉ = 950 := by
    have whole : (95 / 100 : ℚ) * 10 ^ 3 = (950 : ℤ) := by norm_num
    rw [whole, Int.ceil_intCast]
  rw [confident, le_roundTo_iff, units, le_roundHalfEven_iff]
  push_cast
  constructor
  · intro reached
    have raised : (9495 / 10000 : ℚ) ≤ min (95 / 100) (1 / 2 + size * (1 / 2)) := by
      rcases reached with past | ⟨tie, -⟩ <;> linarith
    have uncapped := raised.trans (min_le_right _ _)
    linarith
  · intro large
    have raised : (9495 / 10000 : ℚ) ≤ min (95 / 100) (1 / 2 + size * (1 / 2)) :=
      le_min (by norm_num) (by linarith)
    rcases raised.lt_or_eq with past | tie
    · exact .inl (by linarith)
    · exact .inr ⟨by linarith, trivial⟩

/-- Two sizes that are a quarter apart have the same confidence only at the cap. -/
theorem confident_eq_iff {lower upper : ℚ} (apart : lower + 1 / 4 ≤ upper) :
    confident lower = confident upper ↔ 899 / 1000 ≤ lower := by
  constructor
  · intro same
    by_contra small
    have under : confident lower < 95 / 100 :=
      lt_of_not_ge fun reached => small ((full_le_confident_iff lower).mp reached)
    rw [same] at under
    have upperSmall : upper < 899 / 1000 :=
      lt_of_not_ge fun large => absurd ((full_le_confident_iff upper).mpr large) under.not_ge
    have above : confident lower ≤ 1 / 2 + lower * (1 / 2) + 1 / (2 * 10 ^ 3) := by
      rw [confident, min_eq_right (by linarith)]
      exact roundTo_le_add 3 _
    have beneath : 1 / 2 + upper * (1 / 2) - 1 / (2 * 10 ^ 3) ≤ confident upper := by
      rw [confident, min_eq_right (by linarith)]
      have near := (abs_le.mp (abs_roundTo_sub_le 3 (1 / 2 + upper * (1 / 2)))).1
      linarith
    linarith
  · intro large
    have lowerFull := (full_le_confident_iff lower).mpr large
    have upperFull := (full_le_confident_iff upper).mpr (by linarith)
    rw [(confident_le lower).antisymm lowerFull, (confident_le upper).antisymm upperFull]

/-- The direction and the confidence of a score. -/
def directionOf (net : ℚ) : Direction × ℚ :=
  if 3 / 10 < net then (.long, confident |net|)
  else if net < -(3 / 10) then (.short, confident |net|)
  else (.flat, roundTo 3 (3 / 10))

theorem calcDirectionConfidence_eq (trend : TrendState) (momentum : MomentumState)
    (pattern : Option Pattern) (candle : Option CandlePattern) :
    calcDirectionConfidence trend momentum pattern candle =
      directionOf (netScore trend momentum pattern candle) := rfl

theorem directionOf_neg (net : ℚ) :
    directionOf (-net) = (opposite (directionOf net).1, (directionOf net).2) := by
  rw [directionOf, directionOf, abs_neg]
  rcases lt_or_ge (3 / 10) net with long | notLong
  · rw [if_neg (by linarith), if_pos (by linarith), if_pos long]
    rfl
  rcases lt_or_ge net (-(3 / 10)) with short | notShort
  · rw [if_pos (by linarith), if_neg (by linarith), if_pos short]
    rfl
  · rw [if_neg (by linarith), if_neg (by linarith), if_neg (by linarith), if_neg (by linarith)]
    rfl

theorem directionOf_long {net : ℚ} (long : 3 / 10 < net) :
    directionOf net = (.long, confident net) := by
  rw [directionOf, if_pos long, abs_of_pos (by linarith)]

theorem directionOf_flat {net : ℚ} (flat : |net| ≤ 3 / 10) :
    directionOf net = (.flat, roundTo 3 (3 / 10)) := by
  obtain ⟨low, high⟩ := abs_le.mp flat
  rw [directionOf, if_neg high.not_gt, if_neg low.not_gt]

theorem directionOf_short {net : ℚ} (short : net < -(3 / 10)) :
    directionOf net = (.short, confident (-net)) := by
  rw [directionOf, if_neg (by linarith), if_pos short, abs_of_neg (by linarith)]

/-- Two scores that are a quarter apart have the same direction and confidence only if both are
flat, or both fully confident in one direction. -/
theorem directionOf_eq_iff {lower upper : ℚ} (apart : lower + 1 / 4 ≤ upper) :
    directionOf lower = directionOf upper ↔
      (-(3 / 10) ≤ lower ∧ upper ≤ 3 / 10) ∨ 899 / 1000 ≤ lower ∨ upper ≤ -(899 / 1000) := by
  rcases lt_or_ge (3 / 10) lower with long | notLong
  · rw [directionOf_long long, directionOf_long (by linarith), Prod.mk.injEq, and_iff_right rfl,
      confident_eq_iff apart]
    constructor
    · exact fun large => .inr (.inl large)
    · rintro (⟨-, flat⟩ | large | small) <;> linarith
  rcases lt_or_ge upper (-(3 / 10)) with short | notShort
  · rw [directionOf_short short, directionOf_short (by linarith), Prod.mk.injEq,
      and_iff_right rfl, eq_comm, confident_eq_iff (by linarith)]
    constructor
    · exact fun small => .inr (.inr (by linarith))
    · rintro (⟨flat, -⟩ | large | small) <;> linarith
  rw [or_iff_left (by rintro (large | small) <;> linarith)]
  rcases lt_or_ge (3 / 10) upper with upperLong | upperFlat
  · refine iff_of_false (fun same => ?_) fun flat => absurd flat.2 upperLong.not_ge
    rw [directionOf_long upperLong] at same
    rcases lt_or_ge lower (-(3 / 10)) with lowerShort | lowerFlat
    · rw [directionOf_short lowerShort] at same
      cases congrArg Prod.fst same
    · rw [directionOf_flat (abs_le.mpr ⟨lowerFlat, notLong⟩)] at same
      cases congrArg Prod.fst same
  · rw [directionOf_flat (abs_le.mpr ⟨notShort, upperFlat⟩), and_iff_left upperFlat]
    rcases lt_or_ge lower (-(3 / 10)) with lowerShort | lowerFlat
    · refine iff_of_false (fun same => ?_) lowerShort.not_ge
      rw [directionOf_short lowerShort] at same
      cases congrArg Prod.fst same
    · exact iff_of_true (directionOf_flat (abs_le.mpr ⟨lowerFlat, notLong⟩)) lowerFlat

/-! ## The direction of a market upside down -/

section Mirrored

variable (trend : TrendState) (momentum : MomentumState) (patterns : List Pattern)
  (candlePatterns : List CandlePattern)

/-- Upside down, the direction is the opposite one and the confidence the same. -/
def DirectionMirrored : Prop :=
  calcDirectionConfidence trend.opposite momentum.opposite
      (patterns.map Pattern.opposite).head? (candlePatterns.map CandlePattern.opposite).head? =
    let result := calcDirectionConfidence trend momentum patterns.head? candlePatterns.head?
    (opposite result.1, result.2)

/-- The trend and the first patterns keep the score flat, or make it fully confident, by so much
that the half of a momentum does not change that. -/
def Decided (pattern : Option Pattern) (candle : Option CandlePattern) : Prop :=
  |trendPart trend + patternPart pattern candle| ≤ 3 / 10 * partCount pattern candle - 1 / 2 ∨
    899 / 1000 * partCount pattern candle + 1 / 2 ≤ |trendPart trend + patternPart pattern candle|

variable {trend momentum patterns candlePatterns}

theorem directionMirrored_iff_same :
    DirectionMirrored trend momentum patterns candlePatterns ↔
      directionOf (netScore trend (if trend = .sideways then momentum else momentum.opposite)
        patterns.head? candlePatterns.head?) =
      directionOf (netScore trend momentum patterns.head? candlePatterns.head?) := by
  rw [DirectionMirrored, List.head?_map, List.head?_map, calcDirectionConfidence_eq,
    netScore_opposite, directionOf_neg, calcDirectionConfidence_eq, Prod.mk.injEq, Prod.ext_iff]
  exact and_congr_left fun _ =>
    ⟨fun same => by simpa using congrArg opposite same, congrArg opposite⟩

/-- The score with the one momentum and with the other. -/
theorem directionOf_half_iff (sum count : ℚ) (atLeast : 2 ≤ count) (atMost : count ≤ 4) :
    directionOf ((sum - 1 / 2) / count) = directionOf ((sum + 1 / 2) / count) ↔
      |sum| ≤ 3 / 10 * count - 1 / 2 ∨ 899 / 1000 * count + 1 / 2 ≤ |sum| := by
  have positive : 0 < count := by linarith
  have apart : (sum - 1 / 2) / count + 1 / 4 ≤ (sum + 1 / 2) / count := by
    rw [← le_sub_iff_add_le', ← sub_div, le_div_iff₀ positive]
    linarith
  rw [directionOf_eq_iff apart, le_div_iff₀ positive, div_le_iff₀ positive, le_div_iff₀ positive,
    div_le_iff₀ positive, abs_le, le_abs]
  refine or_congr (and_congr ?_ ?_) (or_congr ?_ ?_) <;> constructor <;> intro <;> linarith

theorem partCount_bounds (pattern : Option Pattern) (candle : Option CandlePattern) :
    2 ≤ partCount pattern candle ∧ partCount pattern candle ≤ 4 := by
  cases pattern <;> cases candle <;> simp [partCount]

/-- In a trend a momentum adds or takes a half, and the opposite one the other way round. -/
theorem momentumPart_cases (inTrend : trend ≠ .sideways) (moving : momentum ≠ .neutral) :
    (momentumPart trend momentum = 1 / 2 ∧ momentumPart trend momentum.opposite = -(1 / 2)) ∨
      (momentumPart trend momentum = -(1 / 2) ∧
        momentumPart trend momentum.opposite = 1 / 2) := by
  cases trend with
  | sideways => exact absurd rfl inTrend
  | up | down =>
      cases momentum with
      | neutral => exact absurd rfl moving
      | strengthening | weakening => simp [momentumPart, MomentumState.opposite]

/-- **The direction is mirrored exactly if there is no trend or no momentum, or the momentum does
not matter.** -/
theorem directionMirrored_iff (trend : TrendState) (momentum : MomentumState)
    (patterns : List Pattern) (candlePatterns : List CandlePattern) :
    DirectionMirrored trend momentum patterns candlePatterns ↔
      trend = .sideways ∨ momentum = .neutral ∨
        Decided trend patterns.head? candlePatterns.head? := by
  rw [directionMirrored_iff_same]
  by_cases noTrend : trend = .sideways
  · rw [if_pos noTrend]
    exact iff_of_true rfl (.inl noTrend)
  by_cases still : momentum = .neutral
  · rw [if_neg noTrend, still]
    exact iff_of_true rfl (.inr (.inl rfl))
  rw [if_neg noTrend, or_iff_right noTrend, or_iff_right still, netScore_eq, netScore_eq, Decided]
  obtain ⟨atLeast, atMost⟩ := partCount_bounds patterns.head? candlePatterns.head?
  have halves := directionOf_half_iff
    (trendPart trend + patternPart patterns.head? candlePatterns.head?)
    (partCount patterns.head? candlePatterns.head?) (by exact_mod_cast atLeast)
    (by exact_mod_cast atMost)
  rcases momentumPart_cases noTrend still with ⟨added, taken⟩ | ⟨taken, added⟩
  · rw [added, taken, ← sub_eq_add_neg]
    exact halves
  · rw [added, taken, ← sub_eq_add_neg, eq_comm]
    exact halves

/-- A rising market with a rising momentum is long, a falling one with a falling momentum flat. -/
theorem falling_flat :
    ¬ ∀ (trend : TrendState) (momentum : MomentumState) (patterns : List Pattern)
      (candlePatterns : List CandlePattern),
      DirectionMirrored trend momentum patterns candlePatterns := by
  intro always
  have rising := always .up .strengthening [] []
  exact absurd (congrArg Prod.fst rising) (by decide +kernel)

end Mirrored

end TradeOS.Technical
