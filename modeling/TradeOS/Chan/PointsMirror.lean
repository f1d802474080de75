import TradeOS.Chan.Points
import Mathlib.Algebra.Order.Group.MinMax

/-!
# Buy and sell points are mirror images

Turning the chart upside down negates the prices and exchanges up and down, bullish
and bearish, and the two edges of a center. A search for the first stroke with a
property finds the mirror image of what it found before (`firstAfter_mirror`,
`firstFollowed_mirror`), so each class of sell points is the mirror image of the class
of purchase points. `detectSellPoints_mirror` puts the three classes together.

The stop losses are left out: the sell points of the second class have none.
-/

set_option autoImplicit false

namespace TradeOS.Chan

/-! ## The mirror -/

/-- The other direction. -/
def StrokeDirection.opposite : StrokeDirection → StrokeDirection
  | .up => .down
  | .down => .up

@[simp] theorem StrokeDirection.opposite_opposite (direction : StrokeDirection) :
    direction.opposite.opposite = direction := by
  cases direction <;> rfl

@[simp] theorem StrokeDirection.opposite_inj {first second : StrokeDirection} :
    first.opposite = second.opposite ↔ first = second := by
  cases first <;> cases second <;> simp [opposite]

theorem opposite_eq_up {direction : StrokeDirection} :
    direction.opposite = .up ↔ direction = .down := by
  cases direction <;> simp [StrokeDirection.opposite]

theorem opposite_eq_down {direction : StrokeDirection} :
    direction.opposite = .down ↔ direction = .up := by
  cases direction <;> simp [StrokeDirection.opposite]

/-- A stroke upside down. -/
def Stroke.mirror (stroke : Stroke) : Stroke :=
  { stroke with
    direction := stroke.direction.opposite
    startPrice := -stroke.startPrice
    endPrice := -stroke.endPrice }

/-- The other direction of a center. -/
def CenterDirection.opposite : CenterDirection → CenterDirection
  | .up => .down
  | .down => .up
  | .neutral => .neutral

/-- A center upside down: the edges change their places. -/
def Center.mirror (center : Center) : Center :=
  { center with
    gg := -center.dd
    dd := -center.gg
    zg := -center.zd
    zd := -center.zg
    direction := center.direction.opposite }

/-- The other type of a divergence. -/
def DivergenceType.opposite : DivergenceType → DivergenceType
  | .bullish => .bearish
  | .bearish => .bullish
  | .none => .none

@[simp] theorem DivergenceType.opposite_inj {first second : DivergenceType} :
    first.opposite = second.opposite ↔ first = second := by
  cases first <;> cases second <;> simp [opposite]

/-- A divergence upside down. -/
def Divergence.mirror (div : Divergence) : Divergence :=
  { div with
    divergenceType := div.divergenceType.opposite
    priceExtremumValue := -div.priceExtremumValue
    macdExtremumValue := -div.macdExtremumValue
    macdPrevExtremumValue := -div.macdPrevExtremumValue
    pricePrevExtremumValue := -div.pricePrevExtremumValue }

/-- The point type of the same class on the other side. -/
def TradingPointType.opposite : TradingPointType → TradingPointType
  | .purchase1 => .sell1
  | .purchase2 => .sell2
  | .purchase3 => .sell3
  | .sell1 => .purchase1
  | .sell2 => .purchase2
  | .sell3 => .purchase3
  | .structureInvalid => .structureInvalid

/-- A point without its stop loss. -/
def TradingPoint.withoutStop (point : TradingPoint) : TradingPoint :=
  { point with stopLoss := none }

/-- A point upside down, without its stop loss. -/
def TradingPoint.mirror (point : TradingPoint) : TradingPoint :=
  { point with
    pointType := point.pointType.opposite
    price := -point.price
    stopLoss := none }

section Fields

variable (stroke : Stroke) (center : Center) (div : Divergence)

@[simp] theorem Stroke.direction_mirror : stroke.mirror.direction = stroke.direction.opposite := rfl

@[simp] theorem Stroke.endIdx_mirror : stroke.mirror.endIdx = stroke.endIdx := rfl

@[simp] theorem Stroke.endPrice_mirror : stroke.mirror.endPrice = -stroke.endPrice := rfl

@[simp] theorem Stroke.low_mirror : stroke.mirror.low = -stroke.high := min_neg_neg _ _

@[simp] theorem Stroke.high_mirror : stroke.mirror.high = -stroke.low := max_neg_neg _ _

@[simp] theorem Center.index_mirror : center.mirror.index = center.index := rfl

@[simp] theorem Center.endIdx_mirror : center.mirror.endIdx = center.endIdx := rfl

@[simp] theorem Center.zd_mirror : center.mirror.zd = -center.zg := rfl

@[simp] theorem Divergence.type_mirror :
    div.mirror.divergenceType = div.divergenceType.opposite := rfl

end Fields

/-! ## The searches -/

/-- A search in the mirrored strokes finds the mirror image of a stroke. -/
theorem find?_mirror (wanted mirrored : Stroke → Bool)
    (same : ∀ stroke, mirrored stroke.mirror = wanted stroke) (strokes : List Stroke) :
    (strokes.map Stroke.mirror).find? mirrored = (strokes.find? wanted).map Stroke.mirror := by
  rw [List.find?_map]
  congr 2
  funext stroke
  exact same stroke

theorem firstAfter_mirror (direction : StrokeDirection) (index : ℕ) (strokes : List Stroke) :
    firstAfter direction.opposite index (strokes.map Stroke.mirror) =
      (firstAfter direction index strokes).map Stroke.mirror :=
  find?_mirror _ _ (fun stroke => by simp) strokes

theorem firstFollowed_mirror (wanted mirrored : Stroke → Bool)
    (same : ∀ stroke, mirrored stroke.mirror = wanted stroke) (direction : StrokeDirection)
    (strokes : List Stroke) :
    firstFollowed mirrored direction.opposite (strokes.map Stroke.mirror) =
      (firstFollowed wanted direction strokes).map Stroke.mirror := by
  induction strokes with
  | nil => rfl
  | cons stroke rest ih =>
      have follows : ((rest.map Stroke.mirror).any fun next => next.direction = direction.opposite)
          = rest.any fun next => next.direction = direction := by
        rw [List.any_map]
        congr 1
        funext next
        simp
      rw [List.map_cons, firstFollowed, firstFollowed, same, follows, ih]
      split
      · split
        · rfl
        · rfl
      · rfl

/-! ## The three classes -/

theorem firstClass_mirror (divergenceType : DivergenceType) (direction : StrokeDirection)
    (pointType : TradingPointType) (strokes : List Stroke) (divergences : List Divergence) :
    (firstClass divergenceType.opposite direction.opposite pointType.opposite
        (strokes.map Stroke.mirror) (divergences.map Divergence.mirror)).map
        TradingPoint.withoutStop =
      (firstClass divergenceType direction pointType strokes divergences).map
        TradingPoint.mirror := by
  simp only [firstClass]
  rw [List.filterMap_map, List.map_filterMap, List.map_filterMap]
  congr 1
  funext div
  simp only [Function.comp_apply, Divergence.type_mirror, DivergenceType.opposite_inj]
  split
  · have found := firstAfter_mirror direction div.priceExtremumIdx strokes
    rw [show div.mirror.priceExtremumIdx = div.priceExtremumIdx from rfl, found, Option.map_map,
      Option.map_map, Option.map_map]
    rfl
  · rfl

theorem getLast?_mirror (centers : List Center) :
    (centers.map Center.mirror).getLast? = centers.getLast?.map Center.mirror :=
  List.getLast?_map

/-- The second class reads the index and the price of the first point only. -/
theorem secondSell_mirror (strokes : List Stroke) (centers : List Center)
    {p1 s1 : TradingPoint} (index : s1.index = p1.index) (price : s1.price = -p1.price) :
    (secondSell (strokes.map Stroke.mirror) (centers.map Center.mirror) s1).map
        TradingPoint.withoutStop =
      (secondPurchase strokes centers p1).map TradingPoint.mirror := by
  have found := firstFollowed_mirror
    (fun stroke => decide (stroke.direction = .down ∧ p1.index < stroke.endIdx ∧
      p1.price < stroke.low))
    (fun stroke => decide (stroke.direction = .up ∧ s1.index < stroke.endIdx ∧
      stroke.high < s1.price)) (fun stroke => ?_) .up strokes
  · have center : (centers.map Center.mirror).getLast?.map Center.index =
        centers.getLast?.map Center.index := by
      rw [getLast?_mirror, Option.map_map]
      rfl
    simp only [StrokeDirection.opposite] at found
    simp only [secondSell, secondPurchase]
    rw [center, found, Option.map_map, Option.map_map, Option.map_map]
    congr 1
    funext stroke
    simp [TradingPoint.withoutStop, TradingPoint.mirror, TradingPointType.opposite]
  · rw [decide_eq_decide, index, price, Stroke.high_mirror, neg_lt_neg_iff,
      Stroke.direction_mirror, opposite_eq_up, Stroke.endIdx_mirror]

/-- The third class: the stroke that leaves the center and the stroke back are mirror
images one after the other. -/
theorem thirdSell_mirror (strokes : List Stroke) (center : Center) :
    (thirdSell (strokes.map Stroke.mirror) center.mirror).map TradingPoint.withoutStop =
      (thirdPurchase strokes center).map TradingPoint.mirror := by
  have left := find?_mirror
    (fun stroke => decide (center.endIdx < stroke.endIdx ∧ stroke.direction = .up ∧
      center.zg < stroke.high))
    (fun stroke => decide (center.mirror.endIdx < stroke.endIdx ∧ stroke.direction = .down ∧
      stroke.low < center.mirror.zd)) (fun stroke => ?_) strokes
  · simp only [thirdSell, thirdPurchase]
    rw [left]
    cases strokes.find? fun stroke => decide (center.endIdx < stroke.endIdx ∧
        stroke.direction = .up ∧ center.zg < stroke.high) with
    | none => rfl
    | some leaving =>
        have back := firstAfter_mirror .down leaving.endIdx strokes
        simp only [StrokeDirection.opposite] at back
        simp only [Option.map_some, Option.bind_eq_bind, Option.bind_some, Stroke.endIdx_mirror]
        rw [back]
        cases firstAfter .down leaving.endIdx strokes with
        | none => rfl
        | some pullback =>
            simp only [Option.map_some, Option.bind_some, Stroke.high_mirror, Center.zd_mirror,
              neg_lt_neg_iff]
            split
            · rfl
            · rfl
  · rw [decide_eq_decide, Stroke.low_mirror, Center.zd_mirror, neg_lt_neg_iff,
      Stroke.direction_mirror, opposite_eq_down, Stroke.endIdx_mirror, Center.endIdx_mirror]

/-- The second class starts from the first point of the first class. -/
theorem secondClass_mirror (strokes : List Stroke) (centers : List Center)
    {sells purchases : List TradingPoint}
    (first : sells.map TradingPoint.withoutStop = purchases.map TradingPoint.mirror) :
    (sells.head?.bind (secondSell (strokes.map Stroke.mirror) (centers.map Center.mirror))).map
        TradingPoint.withoutStop =
      (purchases.head?.bind (secondPurchase strokes centers)).map TradingPoint.mirror := by
  cases sells with
  | nil =>
      rw [List.map_nil, eq_comm, List.map_eq_nil_iff] at first
      rw [first]
      rfl
  | cons s1 sells =>
      cases purchases with
      | nil => cases first
      | cons p1 purchases =>
          obtain ⟨same, _⟩ := List.cons.inj first
          have index : s1.withoutStop.index = p1.mirror.index := congrArg TradingPoint.index same
          have price : s1.withoutStop.price = p1.mirror.price := congrArg TradingPoint.price same
          exact secondSell_mirror strokes centers index price

/-- **Sell points are purchase points upside down.** For all strokes, centers and
divergences, the sell points of the mirrored chart are the mirrored purchase points:
the same number of points, of the same classes, at the same indices, with the same
confidences and centers. -/
theorem detectSellPoints_mirror (strokes : List Stroke) (centers : List Center)
    (divergences : List Divergence) :
    (detectSellPoints (strokes.map Stroke.mirror) (centers.map Center.mirror)
        (divergences.map Divergence.mirror)).map TradingPoint.withoutStop =
      (detectPurchasePoints strokes centers divergences).map TradingPoint.mirror := by
  unfold detectSellPoints detectPurchasePoints
  rw [List.length_map]
  split
  · rfl
  · have first : (firstSells (strokes.map Stroke.mirror)
        (divergences.map Divergence.mirror)).map TradingPoint.withoutStop =
        (firstPurchases strokes divergences).map TradingPoint.mirror :=
      firstClass_mirror .bullish .up .purchase1 strokes divergences
    have second := secondClass_mirror strokes centers first
    have third : (((centers.map Center.mirror).getLast?.bind
        (thirdSell (strokes.map Stroke.mirror))).map TradingPoint.withoutStop) =
        (centers.getLast?.bind (thirdPurchase strokes)).map TradingPoint.mirror := by
      rw [getLast?_mirror]
      cases centers.getLast? with
      | none => rfl
      | some center => exact thirdSell_mirror strokes center
    dsimp only
    rw [List.map_append, List.map_append, List.map_append, List.map_append, first,
      ← Option.toList_map, ← Option.toList_map, second, third, Option.toList_map,
      Option.toList_map]

end TradeOS.Chan
