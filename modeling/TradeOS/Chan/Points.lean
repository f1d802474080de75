import TradeOS.Chan.Centers
import TradeOS.Data.Validation
import TradeOS.Numeric.Binary64
import Mathlib.Data.List.MinMax

/-!
# Divergences and trading points

A divergence is a pair of successive strokes of one direction of which the second goes
further with a smaller MACD area. Trading points of the first class are read off the
divergences, those of the second class off the first point of the first class, and those of
the third class off the last center.

The MACD is computed in a rounded arithmetic: whether two areas differ may hang on the last digits.
A missing value of an array (`nan`) is `none`. The texts that describe divergences and points
are left out, as nothing is decided by them.
-/

set_option autoImplicit false

namespace TradeOS.Chan

open Numeric

/-! ## MACD -/

section Macd

variable (arith : Summation)

/-- The average of an array; missing if one of its values is. -/
def mean (prices : List (Option ℚ)) : Option ℚ :=
  (prices.mapM id).map fun values => arith.fl (arith.sum values / values.length)

/-- A step of the exponential average. -/
def emaStep (mult price previous : ℚ) : ℚ :=
  arith.fl (arith.fl (arith.fl (price - previous) * mult) + previous)

/-- The loop of the exponential average, from a value on. -/
def emaFrom (mult : ℚ) (previous : Option ℚ) : List (Option ℚ) → List (Option ℚ)
  | [] => []
  | price :: rest =>
      let next := Option.map₂ (emaStep arith mult) price previous
      next :: emaFrom mult next rest

/-- `ema_arr`: missing up to the first full period, which it starts with the average of. -/
def emaArr (prices : List (Option ℚ)) (period : ℕ) : List (Option ℚ) :=
  if prices.length < period then List.replicate prices.length none
  else
    let first := mean arith (prices.take period)
    List.replicate (period - 1) none ++
      first :: emaFrom arith (arith.fl (2 / (period + 1))) first (prices.drop period)

/-- The difference of two arrays. -/
def difference (first second : List (Option ℚ)) : List (Option ℚ) :=
  List.zipWith (Option.map₂ fun value other => arith.fl (value - other)) first second

/-- `macd_strength`: the histogram of the closing prices. -/
def macdStrength (closes : List ℚ) (fast slow signalPeriod : ℕ) : List (Option ℚ) :=
  let prices := closes.map some
  let macdLine := difference arith (emaArr arith prices fast) (emaArr arith prices slow)
  let signal := emaArr arith (macdLine.drop (slow - 1)) signalPeriod
  difference arith macdLine ((List.replicate closes.length none).take (slow - 1) ++ signal)

/-- `_macd_area`: the sum from one index to another, a missing value as zero. -/
def macdArea (histogram : List (Option ℚ)) (startIdx endIdx : ℕ) : ℚ :=
  arith.sum (((histogram.take (endIdx + 1)).drop startIdx).map fun value => value.getD 0)

end Macd

/-! ## Divergences -/

/-- The type of a divergence. -/
inductive DivergenceType where
  | bullish
  | bearish
  | none
  deriving DecidableEq

/-- The text of a type. -/
def DivergenceType.value : DivergenceType → String
  | .bullish => "bullish"
  | .bearish => "bearish"
  | .none => "none"

/-- A divergence. -/
structure Divergence where
  divergenceType : DivergenceType
  priceExtremumIdx : ℕ
  macdExtremumIdx : ℕ
  priceExtremumValue : ℚ
  macdExtremumValue : ℚ
  macdPrevExtremumValue : ℚ
  pricePrevExtremumValue : ℚ
  severity : UnitRational
  deriving DecidableEq

/-- The difference of two areas, as a share of the first. -/
def areaLoss (fl : Rounding) (area1 area2 : ℚ) : ℚ :=
  fl (|fl (area1 - area2)| / fl (|area1| + fl (1 / 10 ^ 10)))

theorem severity_bounds (fl : Rounding) (area1 area2 : ℚ) :
    0 ≤ min (areaLoss fl area1 area2) 1 ∧ min (areaLoss fl area1 area2) 1 ≤ 1 := by
  have small : 0 ≤ fl (1 / 10 ^ 10) := fl.nonneg (by norm_num)
  have scale : 0 ≤ fl (|area1| + fl (1 / 10 ^ 10)) := fl.nonneg (by positivity)
  exact ⟨le_min (fl.nonneg (div_nonneg (abs_nonneg _) scale)) zero_le_one, min_le_right _ _⟩

/-- The severity of a divergence. -/
def severity (fl : Rounding) (area1 area2 : ℚ) : UnitRational :=
  ⟨min (areaLoss fl area1 area2) 1, severity_bounds fl area1 area2⟩

/-- The second of two strokes of a direction goes further. -/
def goesFurther : StrokeDirection → ℚ → ℚ → Bool
  | .up, price1, price2 => decide (price1 < price2)
  | .down, price1, price2 => decide (price2 < price1)

/-- The type of a divergence of strokes of a direction. -/
def divergenceOf : StrokeDirection → DivergenceType
  | .up => .bearish
  | .down => .bullish

/-- One turn of the loop of `detect_divergence`, over the histogram and the number of strokes
before the recent ones. -/
def divergenceAt (arith : Summation) (histogram : List (Option ℚ)) (startOffset : ℕ)
    (pair : Stroke × Stroke) : Option Divergence :=
  let area1 := macdArea arith histogram pair.1.startIdx pair.1.endIdx
  let area2 := macdArea arith histogram pair.2.startIdx pair.2.endIdx
  if pair.1.direction = pair.2.direction ∧
      goesFurther pair.1.direction pair.1.endPrice pair.2.endPrice ∧ |area2| < |area1| then
    some ⟨divergenceOf pair.1.direction, pair.2.endIdx + startOffset, pair.2.endIdx + startOffset,
      pair.2.endPrice, area2, area1, pair.1.endPrice, severity arith.fl area1 area2⟩
  else none

/-- `detect_divergence`, over the last six strokes. -/
def detectDivergence (arith : Summation) (strokes : List Stroke) (closes : List ℚ)
    (fast slow signalPeriod : ℕ) : List Divergence :=
  if strokes.length < 3 then []
  else
    let histogram := macdStrength arith closes fast slow signalPeriod
    let startOffset := strokes.length - min 6 strokes.length
    (Adjacent.pairs (strokes.drop startOffset)).filterMap (divergenceAt arith histogram startOffset)

/-! ## Trading points -/

/-- The type of a trading point. -/
inductive TradingPointType where
  | purchase1
  | purchase2
  | purchase3
  | sell1
  | sell2
  | sell3
  | structureInvalid
  deriving DecidableEq

/-- A trading point. -/
structure TradingPoint where
  pointType : TradingPointType
  price : ℚ
  index : ℕ
  confidence : UnitRational
  relatedCenter : Option ℕ := none
  stopLoss : Option ℚ := none
  deriving DecidableEq

theorem divergenceConfidence_bounds (severity : UnitRational) :
    0 ≤ min (9 / 10) (6 / 10 + severity.val * (3 / 10)) ∧
      min (9 / 10) (6 / 10 + severity.val * (3 / 10)) ≤ 1 := by
  have nonneg := severity.property.1
  refine ⟨le_min (by norm_num) (by positivity), (min_le_left _ _).trans (by norm_num)⟩

/-- The confidence that a divergence gives. -/
def divergenceConfidence (severity : UnitRational) : UnitRational :=
  ⟨min (9 / 10) (6 / 10 + severity.val * (3 / 10)), divergenceConfidence_bounds severity⟩

/-- The confidence of a point of the second class. -/
def secondConfidence : UnitRational := UnitRational.clamp (7 / 10)

/-- The confidence of a point of the third class. -/
def thirdConfidence : UnitRational := UnitRational.clamp (75 / 100)

/-- The lower end of a stroke. -/
def Stroke.low (stroke : Stroke) : ℚ := min stroke.startPrice stroke.endPrice

/-- The upper end of a stroke. -/
def Stroke.high (stroke : Stroke) : ℚ := max stroke.startPrice stroke.endPrice

/-- The first stroke of a direction that ends behind an index. -/
def firstAfter (direction : StrokeDirection) (index : ℕ) (strokes : List Stroke) : Option Stroke :=
  strokes.find? fun stroke => stroke.direction = direction ∧ index < stroke.endIdx

/-- The first stroke with a property, if a stroke of a direction follows it. -/
def firstFollowed (found : Stroke → Bool) (direction : StrokeDirection) : List Stroke → Option Stroke
  | [] => none
  | stroke :: rest =>
      if found stroke then
        if rest.any fun next => next.direction = direction then some stroke else none
      else firstFollowed found direction rest

/-- The first class of points: after each divergence of a type, the first stroke of a
direction that ends behind it. -/
def firstClass (divergenceType : DivergenceType) (direction : StrokeDirection)
    (pointType : TradingPointType) (strokes : List Stroke) (divergences : List Divergence) :
    List TradingPoint :=
  divergences.filterMap fun div =>
    if div.divergenceType = divergenceType then
      (firstAfter direction div.priceExtremumIdx strokes).map fun stroke =>
        { pointType := pointType, price := stroke.endPrice, index := stroke.endIdx,
          confidence := divergenceConfidence div.severity,
          stopLoss := some div.priceExtremumValue }
    else none

/-- The first class of `detect_purchase_points`. -/
def firstPurchases : List Stroke → List Divergence → List TradingPoint :=
  firstClass .bullish .up .purchase1

/-- The second class: a stroke down after the first purchase that stays above its price. -/
def secondPurchase (strokes : List Stroke) (centers : List Center) (p1 : TradingPoint) :
    Option TradingPoint :=
  let pullback := fun stroke : Stroke =>
    decide (stroke.direction = .down ∧ p1.index < stroke.endIdx ∧ p1.price < stroke.low)
  (firstFollowed pullback .up strokes).map fun stroke =>
    { pointType := .purchase2, price := stroke.low, index := stroke.endIdx,
      confidence := secondConfidence, relatedCenter := centers.getLast?.map Center.index,
      stopLoss := some (p1.price * (98 / 100)) }

/-- The third class: a stroke up that leaves the last center, and then one down that stays
above it. -/
def thirdPurchase (strokes : List Stroke) (center : Center) : Option TradingPoint := do
  let leaving ← strokes.find? fun stroke =>
    center.endIdx < stroke.endIdx ∧ stroke.direction = .up ∧ center.zg < stroke.high
  let pullback ← firstAfter .down leaving.endIdx strokes
  if center.zg < pullback.low then
    some { pointType := .purchase3, price := pullback.low, index := pullback.endIdx,
           confidence := thirdConfidence, relatedCenter := some center.index }
  else none

/-- `detect_purchase_points`. -/
def detectPurchasePoints (strokes : List Stroke) (centers : List Center)
    (divergences : List Divergence) : List TradingPoint :=
  if strokes.length < 3 then []
  else
    let first := firstPurchases strokes divergences
    first ++ (first.head?.bind (secondPurchase strokes centers)).toList ++
      (centers.getLast?.bind (thirdPurchase strokes)).toList

/-- The first class of `detect_sell_points`. -/
def firstSells : List Stroke → List Divergence → List TradingPoint :=
  firstClass .bearish .down .sell1

/-- The second class: a stroke up after the first sell that stays below its price. -/
def secondSell (strokes : List Stroke) (centers : List Center) (s1 : TradingPoint) :
    Option TradingPoint :=
  let rebound := fun stroke : Stroke =>
    decide (stroke.direction = .up ∧ s1.index < stroke.endIdx ∧ stroke.high < s1.price)
  (firstFollowed rebound .down strokes).map fun stroke =>
    { pointType := .sell2, price := stroke.high, index := stroke.endIdx,
      confidence := secondConfidence, relatedCenter := centers.getLast?.map Center.index }

/-- The third class: a stroke down that leaves the last center, and then one up that stays
below it. -/
def thirdSell (strokes : List Stroke) (center : Center) : Option TradingPoint := do
  let leaving ← strokes.find? fun stroke =>
    center.endIdx < stroke.endIdx ∧ stroke.direction = .down ∧ stroke.low < center.zd
  let rebound ← firstAfter .up leaving.endIdx strokes
  if rebound.high < center.zd then
    some { pointType := .sell3, price := rebound.high, index := rebound.endIdx,
           confidence := thirdConfidence, relatedCenter := some center.index }
  else none

/-- `detect_sell_points`. -/
def detectSellPoints (strokes : List Stroke) (centers : List Center)
    (divergences : List Divergence) : List TradingPoint :=
  if strokes.length < 3 then []
  else
    let first := firstSells strokes divergences
    first ++ (first.head?.bind (secondSell strokes centers)).toList ++
      (centers.getLast?.bind (thirdSell strokes)).toList

/-- The reason for which a structure is invalid, by the direction of its last stroke. -/
def invalidationReason : StrokeDirection → String
  | .down => "下跌创新低但无背驰，空头结构延续"
  | .up => "上涨创新高但无背驰，多头结构延续"

/-- `check_structure_invalidation`: the last stroke goes further than the one of its direction
before it, and no divergence comes with it. -/
def checkStructureInvalidation (strokes : List Stroke) (divergences : List Divergence) :
    Option String := do
  let last ← strokes.getLast?
  let previous ← strokes.dropLast.reverse.find? fun stroke => stroke.direction = last.direction
  if goesFurther last.direction previous.endPrice last.endPrice ∧
      ¬ divergences.any fun div =>
        div.divergenceType = divergenceOf last.direction ∧ last.endIdx ≤ div.priceExtremumIdx then
    some (invalidationReason last.direction)
  else none

/-- `get_latest_trading_point`: of the points with the largest index, the first one. -/
def getLatestTradingPoint (points : List TradingPoint) : Option TradingPoint :=
  points.argmax TradingPoint.index

/-! ## The types of the points -/

section Types

variable {strokes : List Stroke} {centers : List Center} {divergences : List Divergence}
  {point : TradingPoint}

theorem pointType_of_mem_firstClass {divergenceType : DivergenceType}
    {direction : StrokeDirection} {pointType : TradingPointType}
    (member : point ∈ firstClass divergenceType direction pointType strokes divergences) :
    point.pointType = pointType := by
  obtain ⟨div, -, taken⟩ := List.mem_filterMap.mp member
  obtain ⟨-, taken⟩ := Option.ite_none_right_eq_some.mp taken
  obtain ⟨stroke, -, rfl⟩ := Option.map_eq_some_iff.mp taken
  rfl

theorem pointType_secondPurchase {p1 : TradingPoint}
    (found : secondPurchase strokes centers p1 = some point) : point.pointType = .purchase2 := by
  obtain ⟨stroke, -, rfl⟩ := Option.map_eq_some_iff.mp found
  rfl

theorem pointType_secondSell {s1 : TradingPoint}
    (found : secondSell strokes centers s1 = some point) : point.pointType = .sell2 := by
  obtain ⟨stroke, -, rfl⟩ := Option.map_eq_some_iff.mp found
  rfl

/-- The points of a purchase or of a sell list, class by class. -/
structure Classes (types : TradingPointType × TradingPointType × TradingPointType)
    (first : List TradingPoint) (second third : Option TradingPoint) : Prop where
  first : ∀ point ∈ first, point.pointType = types.1
  second : ∀ point, second = some point → point.pointType = types.2.1
  third : ∀ point, third = some point → point.pointType = types.2.2

variable {types : TradingPointType × TradingPointType × TradingPointType}
  {first : List TradingPoint} {second third : Option TradingPoint}

theorem Classes.mem_first (classes : Classes types first second third)
    (differ : types.2.1 ≠ types.1 ∧ types.2.2 ≠ types.1)
    (member : point ∈ first ++ second.toList ++ third.toList) (ofType : point.pointType = types.1) :
    point ∈ first := by
  rcases List.mem_append.mp member with early | late
  · rcases List.mem_append.mp early with listed | listed
    · exact listed
    · have own := classes.second point (Option.mem_toList.mp listed)
      exact absurd (own.symm.trans ofType) differ.1
  · have own := classes.third point (Option.mem_toList.mp late)
    exact absurd (own.symm.trans ofType) differ.2

theorem Classes.third_iff (classes : Classes types first second third)
    (differ : types.1 ≠ types.2.2 ∧ types.2.1 ≠ types.2.2) :
    (point ∈ first ++ second.toList ++ third.toList ∧ point.pointType = types.2.2) ↔
      third = some point := by
  constructor
  · rintro ⟨member, ofType⟩
    rcases List.mem_append.mp member with early | late
    · rcases List.mem_append.mp early with listed | listed
      · exact absurd ((classes.first point listed).symm.trans ofType) differ.1
      · have own := classes.second point (Option.mem_toList.mp listed)
        exact absurd (own.symm.trans ofType) differ.2
    · exact Option.mem_toList.mp late
  · intro found
    exact ⟨List.mem_append_right _ (Option.mem_toList.mpr found), classes.third point found⟩

theorem classes_purchases (strokes : List Stroke) (centers : List Center)
    (divergences : List Divergence) :
    Classes (.purchase1, .purchase2, .purchase3) (firstPurchases strokes divergences)
      ((firstPurchases strokes divergences).head?.bind (secondPurchase strokes centers))
      (centers.getLast?.bind (thirdPurchase strokes)) where
  first point member := pointType_of_mem_firstClass member
  second point found := by
    obtain ⟨p1, -, found⟩ := Option.bind_eq_some_iff.mp found
    exact pointType_secondPurchase found
  third point found := by
    obtain ⟨center, -, found⟩ := Option.bind_eq_some_iff.mp found
    obtain ⟨leaving, -, found⟩ := Option.bind_eq_some_iff.mp found
    obtain ⟨pullback, -, found⟩ := Option.bind_eq_some_iff.mp found
    obtain ⟨-, found⟩ := Option.ite_none_right_eq_some.mp found
    cases found
    rfl

theorem classes_sells (strokes : List Stroke) (centers : List Center)
    (divergences : List Divergence) :
    Classes (.sell1, .sell2, .sell3) (firstSells strokes divergences)
      ((firstSells strokes divergences).head?.bind (secondSell strokes centers))
      (centers.getLast?.bind (thirdSell strokes)) where
  first point member := pointType_of_mem_firstClass member
  second point found := by
    obtain ⟨s1, -, found⟩ := Option.bind_eq_some_iff.mp found
    exact pointType_secondSell found
  third point found := by
    obtain ⟨center, -, found⟩ := Option.bind_eq_some_iff.mp found
    obtain ⟨leaving, -, found⟩ := Option.bind_eq_some_iff.mp found
    obtain ⟨rebound, -, found⟩ := Option.bind_eq_some_iff.mp found
    obtain ⟨-, found⟩ := Option.ite_none_right_eq_some.mp found
    cases found
    rfl

end Types

end TradeOS.Chan
