import TradeOS.Chan.Points
import TradeOS.Chan.StrokePlaces

/-!
# Where divergences and points of the first class lie

A divergence is found on the last six strokes, and located by adding the number of strokes
before them to the index of a bar. With at most six strokes nothing is added. With more the
sum is the end of a stroke only by coincidence: a stroke must end as many bars later as there
are strokes before the last six, and at the same price (`firstClass_located_iff`).

A point of the first class is the end of the first stroke behind the place of its divergence,
so it is located where the divergence is.
-/

set_option autoImplicit false

namespace TradeOS.Chan

open Adjacent Numeric

/-! ## Divergences -/

/-- Two successive strokes diverge: the second goes further in their direction, with a smaller
area. -/
def Diverges (arith : Summation) (histogram : List (Option ℚ)) (pair : Stroke × Stroke) :
    Prop :=
  pair.1.direction = pair.2.direction ∧
    goesFurther pair.1.direction pair.1.endPrice pair.2.endPrice ∧
    |macdArea arith histogram pair.2.startIdx pair.2.endIdx| <
      |macdArea arith histogram pair.1.startIdx pair.1.endIdx|

/-- The number of strokes before the last six. -/
def startOffset (strokes : List Stroke) : ℕ := strokes.length - 6

/-- The recent strokes. -/
def recentStrokes (strokes : List Stroke) : List Stroke := strokes.drop (startOffset strokes)

/-- A divergence lies at the end of a stroke. -/
def Divergence.AtStroke (div : Divergence) (stroke : Stroke) : Prop :=
  stroke.endIdx = div.priceExtremumIdx ∧ stroke.endPrice = div.priceExtremumValue

theorem divergenceAt_places {arith : Summation} {histogram : List (Option ℚ)} {offset : ℕ}
    {pair : Stroke × Stroke} {div : Divergence}
    (found : divergenceAt arith histogram offset pair = some div) :
    Diverges arith histogram pair ∧ div.priceExtremumIdx = pair.2.endIdx + offset ∧
      div.priceExtremumValue = pair.2.endPrice := by
  obtain ⟨diverges, same⟩ := Option.ite_none_right_eq_some.mp found
  cases same
  exact ⟨diverges, rfl, rfl⟩

theorem exists_divergenceAt {arith : Summation} {histogram : List (Option ℚ)} (offset : ℕ)
    {pair : Stroke × Stroke} (diverges : Diverges arith histogram pair) :
    ∃ div, divergenceAt arith histogram offset pair = some div :=
  ⟨_, if_pos diverges⟩

section Detection

variable {arith : Summation} {strokes : List Stroke} {closes : List ℚ}
  {fast slow signalPeriod : ℕ}

theorem mem_detectDivergence_iff {div : Divergence} :
    div ∈ detectDivergence arith strokes closes fast slow signalPeriod ↔
      3 ≤ strokes.length ∧ ∃ pair ∈ pairs (recentStrokes strokes),
        divergenceAt arith (macdStrength arith closes fast slow signalPeriod)
          (startOffset strokes) pair = some div := by
  have offset : strokes.length - min 6 strokes.length = startOffset strokes := by
    rw [startOffset]
    omega
  unfold detectDivergence
  split
  · rename_i few
    simp only [List.not_mem_nil, false_iff]
    rintro ⟨enough, -⟩
    omega
  · rename_i enough
    rw [offset]
    exact List.mem_filterMap.trans (and_iff_right (not_lt.mp enough)).symm

/-- The second stroke of a recent pair is one of the strokes. -/
theorem mem_of_recent {pair : Stroke × Stroke} (listed : pair ∈ pairs (recentStrokes strokes)) :
    pair.2 ∈ strokes := by
  have infixed := mem_pairs_iff.mp listed
  exact List.mem_of_mem_drop (infixed.subset (by simp))

end Detection

/-! ## Points of the first class -/

/-- A point lies at the end of the first stroke of a direction that ends after a stroke. -/
def TradingPoint.FirstAfter (strokes : List Stroke) (direction : StrokeDirection)
    (stroke : Stroke) (point : TradingPoint) : Prop :=
  ∃ next, firstAfter direction stroke.endIdx strokes = some next ∧
    point.index = next.endIdx ∧ point.price = next.endPrice

/-- The points of a type lie at the ends of the first strokes of a direction after the strokes
of divergences. -/
def FirstClassLocated (strokes : List Stroke) (divergences : List Divergence)
    (divergenceType : DivergenceType) (direction : StrokeDirection)
    (pointType : TradingPointType) (points : List TradingPoint) : Prop :=
  ∀ point ∈ points, point.pointType = pointType →
    ∃ div ∈ divergences, div.divergenceType = divergenceType ∧
      ∃ stroke ∈ strokes, div.AtStroke stroke ∧ point.FirstAfter strokes direction stroke

/-- The divergences lie at the ends of strokes, in range, and the points of the first class
after these strokes. -/
structure Located (bound : ℕ) (strokes : List Stroke) (centers : List Center)
    (divergences : List Divergence) : Prop where
  extrema : ∀ div ∈ divergences,
    div.priceExtremumIdx < bound ∧ ∃ stroke ∈ strokes, div.AtStroke stroke
  purchases : FirstClassLocated strokes divergences .bullish .up .purchase1
    (detectPurchasePoints strokes centers divergences)
  sells : FirstClassLocated strokes divergences .bearish .down .sell1
    (detectSellPoints strokes centers divergences)

section FirstClass

variable {strokes : List Stroke} {divergences : List Divergence} {divergenceType : DivergenceType}
  {direction : StrokeDirection} {pointType : TradingPointType}

/-- A point of the first class comes from a divergence. -/
theorem mem_firstClass {point : TradingPoint}
    (member : point ∈ firstClass divergenceType direction pointType strokes divergences) :
    ∃ div ∈ divergences, div.divergenceType = divergenceType ∧
      ∃ next, firstAfter direction div.priceExtremumIdx strokes = some next ∧
        point.index = next.endIdx ∧ point.price = next.endPrice := by
  obtain ⟨div, listed, taken⟩ := List.mem_filterMap.mp member
  obtain ⟨ofType, taken⟩ := Option.ite_none_right_eq_some.mp taken
  obtain ⟨next, found, rfl⟩ := Option.map_eq_some_iff.mp taken
  exact ⟨div, listed, ofType, next, found, rfl, rfl⟩

/-- Where the divergences lie at strokes, the points of the first class lie after them. -/
theorem firstClassLocated_of_atStroke
    (atStroke : ∀ div ∈ divergences, ∃ stroke ∈ strokes, div.AtStroke stroke)
    {points : List TradingPoint}
    (first : ∀ point ∈ points, point.pointType = pointType →
      point ∈ firstClass divergenceType direction pointType strokes divergences) :
    FirstClassLocated strokes divergences divergenceType direction pointType points := by
  intro point member ofType
  obtain ⟨div, listed, ofDivergence, next, found, index, price⟩ :=
    mem_firstClass (first point member ofType)
  obtain ⟨stroke, taken, ends⟩ := atStroke div listed
  refine ⟨div, listed, ofDivergence, stroke, taken, ends, next, ?_, index, price⟩
  rw [ends.1]
  exact found

end FirstClass

section Lists

variable {strokes : List Stroke} {centers : List Center} {divergences : List Divergence}
  {point : TradingPoint}

theorem mem_firstPurchases (member : point ∈ detectPurchasePoints strokes centers divergences)
    (ofType : point.pointType = .purchase1) : point ∈ firstPurchases strokes divergences := by
  unfold detectPurchasePoints at member
  split at member
  · cases member
  · exact (classes_purchases strokes centers divergences).mem_first (by decide) member ofType

theorem mem_firstSells (member : point ∈ detectSellPoints strokes centers divergences)
    (ofType : point.pointType = .sell1) : point ∈ firstSells strokes divergences := by
  unfold detectSellPoints at member
  split at member
  · cases member
  · exact (classes_sells strokes centers divergences).mem_first (by decide) member ofType

end Lists

/-- The divergences lie at strokes if every stroke that diverges is met by one that ends as
many bars later as there are strokes before the last six, at its price. -/
theorem atStroke_iff (arith : Summation) (strokes : List Stroke) (closes : List ℚ)
    (fast slow signalPeriod : ℕ) :
    (∀ div ∈ detectDivergence arith strokes closes fast slow signalPeriod,
      ∃ stroke ∈ strokes, div.AtStroke stroke) ↔
      strokes.length ≤ 6 ∨ ∀ pair ∈ pairs (recentStrokes strokes),
        Diverges arith (macdStrength arith closes fast slow signalPeriod) pair →
          ∃ stroke ∈ strokes, stroke.endIdx = pair.2.endIdx + startOffset strokes ∧
            stroke.endPrice = pair.2.endPrice := by
  constructor
  · intro atStroke
    rcases Nat.lt_or_ge 6 strokes.length with long | short
    · right
      intro pair listed diverges
      obtain ⟨div, found⟩ := exists_divergenceAt (startOffset strokes) diverges
      obtain ⟨stroke, member, index, price⟩ := atStroke div
        (mem_detectDivergence_iff.mpr ⟨by omega, pair, listed, found⟩)
      obtain ⟨-, place, value⟩ := divergenceAt_places found
      exact ⟨stroke, member, index.trans place, price.trans value⟩
    · exact .inl short
  · intro harmless div member
    obtain ⟨-, pair, listed, found⟩ := mem_detectDivergence_iff.mp member
    obtain ⟨diverges, place, value⟩ := divergenceAt_places found
    rcases harmless with short | met
    · have none : startOffset strokes = 0 := Nat.sub_eq_zero_of_le short
      refine ⟨pair.2, mem_of_recent listed, ?_, value.symm⟩
      rw [place, none, Nat.add_zero]
    · obtain ⟨stroke, taken, index, price⟩ := met pair listed diverges
      exact ⟨stroke, taken, index.trans place.symm, price.trans value.symm⟩

/-- **Divergences and points of the first class lie where strokes end if and only if there are
at most six strokes, or every stroke that diverges is met by one that ends at its price, as
many bars later as there are strokes before the last six.** -/
theorem firstClass_located_iff (arith : Summation) (strokes : List Stroke)
    (centers : List Center) (closes : List ℚ) (fast slow signalPeriod : ℕ)
    (placed : StrokesPlaced closes.length strokes) :
    Located closes.length strokes centers
        (detectDivergence arith strokes closes fast slow signalPeriod) ↔
      strokes.length ≤ 6 ∨ ∀ pair ∈ pairs (recentStrokes strokes),
        Diverges arith (macdStrength arith closes fast slow signalPeriod) pair →
          ∃ stroke ∈ strokes, stroke.endIdx = pair.2.endIdx + startOffset strokes ∧
            stroke.endPrice = pair.2.endPrice := by
  rw [← atStroke_iff]
  constructor
  · intro located div member
    exact (located.extrema div member).2
  · intro atStroke
    refine ⟨?_, ?_, ?_⟩
    · intro div member
      obtain ⟨stroke, taken, ends⟩ := atStroke div member
      refine ⟨?_, stroke, taken, ends⟩
      rw [← ends.1]
      exact placed.within stroke taken
    · refine firstClassLocated_of_atStroke atStroke ?_
      intro point member ofType
      exact mem_firstPurchases member ofType
    · refine firstClassLocated_of_atStroke atStroke ?_
      intro point member ofType
      exact mem_firstSells member ofType

/-- Seven strokes over 42 bars, of which the last two go up. -/
def twoUp : List Stroke :=
  [⟨.down, 0, 6, 14, 10, 4, 9⟩, ⟨.up, 6, 12, 10, 13, 3, 9⟩, ⟨.down, 12, 18, 13, 10, 3, 9⟩,
    ⟨.up, 18, 24, 10, 13, 3, 9⟩, ⟨.down, 24, 30, 13, 10, 3, 9⟩, ⟨.up, 30, 36, 10, 12, 2, 9⟩,
    ⟨.up, 36, 42, 12, 14, 2, 9⟩]

/-- Closing prices of 43 bars that move once. -/
def onePulse : List ℚ := List.replicate 34 10 ++ 12 :: List.replicate 8 10

/-- The divergences of strokes at these prices. -/
def pulseDivergences (strokes : List Stroke) : List Divergence :=
  detectDivergence binary64.leftToRight strokes onePulse 12 26 9

/-- The last six of the strokes alone: their divergence lies at the last bar. -/
theorem twoUp_tail_located :
    (pulseDivergences twoUp.tail).map Divergence.priceExtremumIdx = [42] ∧
      Located onePulse.length twoUp.tail [] (pulseDivergences twoUp.tail) := by
  have placed : StrokesPlaced onePulse.length twoUp.tail := ⟨by decide, by decide, by decide⟩
  refine ⟨by decide +kernel, ?_⟩
  exact (firstClass_located_iff binary64.leftToRight twoUp.tail [] onePulse 12 26 9 placed).mpr
    (.inl (by decide))

/-- With the stroke before them the divergence lies behind the last bar. -/
theorem twoUp_not_located :
    StrokesPlaced onePulse.length twoUp ∧
      (pulseDivergences twoUp).map Divergence.priceExtremumIdx = [43] ∧
      ¬ Located onePulse.length twoUp [] (pulseDivergences twoUp) := by
  have behind : (pulseDivergences twoUp).map Divergence.priceExtremumIdx = [43] := by
    decide +kernel
  refine ⟨⟨by decide, by decide, by decide⟩, behind, ?_⟩
  intro located
  have listed : 43 ∈ (pulseDivergences twoUp).map Divergence.priceExtremumIdx := by
    rw [behind]
    exact List.mem_cons_self
  obtain ⟨div, member, index⟩ := List.mem_map.mp listed
  have within := (located.extrema div member).1
  rw [index] at within
  exact absurd within (by decide)

end TradeOS.Chan
