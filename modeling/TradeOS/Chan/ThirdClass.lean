import TradeOS.Chan.Points
import TradeOS.Chan.SegmentRuns
import TradeOS.Chan.CenterCover

/-!
# Points of the third class and their center

A stroke ends at a bar, a segment ends at a stroke and a center ends at a segment, so the last
bar of a center is found through three maps of indices. The search for a stroke that leaves
the center compares the index of a bar with that of a segment instead. It may take a stroke of
the center itself, or one before it.

A point of the third class then lies where the first stroke back ends, if that one stays
beyond the edge of the center. So the points lie behind their center exactly if the stroke that
is found first either ends behind the last bar of the center, or leads to no point because the
stroke back does not stay beyond the edge (`third_behind_iff`).
-/

set_option autoImplicit false

namespace TradeOS.Chan

/-! ## The two sides of a center -/

/-- A side of a center: the type of its points, the directions in which a stroke leaves on this
side and comes back, the tests for the two strokes, and the price of a point. -/
structure Side where
  pointType : TradingPointType
  out : StrokeDirection
  back : StrokeDirection
  beyond : Center → Stroke → Bool
  stays : Center → Stroke → Bool
  price : Stroke → ℚ

/-- Above a center: purchases. -/
def above : Side where
  pointType := .purchase3
  out := .up
  back := .down
  beyond center stroke := center.zg < stroke.high
  stays center stroke := center.zg < stroke.low
  price := Stroke.low

/-- Below a center: sells. -/
def below : Side where
  pointType := .sell3
  out := .down
  back := .up
  beyond center stroke := stroke.low < center.zd
  stays center stroke := stroke.high < center.zd
  price := Stroke.high

/-- A stroke passes the test for leaving a center. -/
def Side.leaves (side : Side) (center : Center) (stroke : Stroke) : Bool :=
  decide (center.endIdx < stroke.endIdx ∧ stroke.direction = side.out ∧
    side.beyond center stroke)

/-- The point at a stroke back to a center. -/
def Side.point (side : Side) (center : Center) (returning : Stroke) : TradingPoint where
  pointType := side.pointType
  price := side.price returning
  index := returning.endIdx
  confidence := thirdConfidence
  relatedCenter := some center.index

/-- A stroke leaves a center, and the first stroke back stays beyond its edge. -/
structure Side.Found (side : Side) (strokes : List Stroke) (center : Center)
    (leaving returning : Stroke) : Prop where
  first : strokes.find? (side.leaves center) = some leaving
  back : firstAfter side.back leaving.endIdx strokes = some returning
  stays : side.stays center returning = true

/-- The search of a side, from a center. -/
def Side.third (side : Side) (strokes : List Stroke) (center : Center) : Option TradingPoint := do
  let leaving ← strokes.find? (side.leaves center)
  let returning ← firstAfter side.back leaving.endIdx strokes
  if side.stays center returning then some (side.point center returning) else none

theorem leaves_above (center : Center) :
    above.leaves center = fun stroke => decide (center.endIdx < stroke.endIdx ∧
      stroke.direction = .up ∧ center.zg < stroke.high) := by
  funext stroke
  simp [Side.leaves, above]

theorem leaves_below (center : Center) :
    below.leaves center = fun stroke => decide (center.endIdx < stroke.endIdx ∧
      stroke.direction = .down ∧ stroke.low < center.zd) := by
  funext stroke
  simp [Side.leaves, below]

theorem thirdPurchase_eq : thirdPurchase = above.third := by
  funext strokes center
  rw [thirdPurchase, Side.third, leaves_above]
  simp [Side.point, above]

theorem thirdSell_eq : thirdSell = below.third := by
  funext strokes center
  rw [thirdSell, Side.third, leaves_below]
  simp [Side.point, below]

theorem third_eq_some_iff {side : Side} {strokes : List Stroke} {center : Center}
    {point : TradingPoint} :
    side.third strokes center = some point ↔
      ∃ leaving returning, side.Found strokes center leaving returning ∧
        point = side.point center returning := by
  constructor
  · intro found
    obtain ⟨leaving, first, found⟩ := Option.bind_eq_some_iff.mp found
    obtain ⟨returning, back, found⟩ := Option.bind_eq_some_iff.mp found
    obtain ⟨stays, same⟩ := Option.ite_none_right_eq_some.mp found
    exact ⟨leaving, returning, ⟨first, back, stays⟩, (Option.some.inj same).symm⟩
  · rintro ⟨leaving, returning, ⟨first, back, stays⟩, rfl⟩
    refine Option.bind_eq_some_iff.mpr ⟨leaving, first, ?_⟩
    exact Option.bind_eq_some_iff.mpr ⟨returning, back, if_pos stays⟩

/-! ## The last bar of a center -/

/-- The centers of a list of strokes. -/
def centersOf (strokes : List Stroke) : List Center := buildCenters (buildSegments strokes)

/-- The bar at which the last stroke of the last segment of a center ends. -/
def lastBar (strokes : List Stroke) (center : Center) : Option ℕ :=
  (buildSegments strokes)[center.endIdx]?.bind fun segment =>
    strokes[segment.endIdx]?.map Stroke.endIdx

section LastBar

variable {strokes : List Stroke} {center : Center}

/-- The indices of a center, of a segment and of a stroke compose. -/
theorem exists_lastBar (member : center ∈ centersOf strokes) :
    ∃ bar, lastBar strokes center = some bar := by
  obtain ⟨before, s1, s2, s3, inside, after, split, same, -⟩ :=
    (overlapDecomposition_buildCenters (buildSegments strokes)).sound center member
  have last : center.endIdx < (buildSegments strokes).length := by
    rw [same, split]
    show before.length + 2 + inside.length < _
    simp only [List.length_append, List.length_cons]
    omega
  have within := (span_of_mem_buildSegments (List.getElem_mem last)).2
  refine ⟨(strokes[(buildSegments strokes)[center.endIdx].endIdx]).endIdx, ?_⟩
  rw [lastBar, List.getElem?_eq_getElem last, Option.bind_some, List.getElem?_eq_getElem within]
  rfl

/-- There is a center only if there are three strokes. -/
theorem three_le_of_mem_centersOf (member : center ∈ centersOf strokes) : 3 ≤ strokes.length := by
  obtain ⟨before, s1, s2, s3, inside, after, split, -⟩ :=
    (overlapDecomposition_buildCenters (buildSegments strokes)).sound center member
  have listed : s1 ∈ buildSegments strokes := by
    rw [split]
    simp
  obtain ⟨three, within⟩ := span_of_mem_buildSegments listed
  omega

/-- A center is known by its number. -/
theorem eq_of_index_eq {other : Center} (member : center ∈ centersOf strokes)
    (member' : other ∈ centersOf strokes) (same : center.index = other.index) :
    center = other := by
  have numbered := (overlapDecomposition_buildCenters (buildSegments strokes)).numbered
  obtain ⟨m, first⟩ := List.mem_iff_getElem?.mp member
  obtain ⟨n, second⟩ := List.mem_iff_getElem?.mp member'
  have places : m = n := (numbered m center first).symm.trans (same.trans (numbered n other second))
  rw [places, second] at first
  exact (Option.some.inj first).symm

end LastBar

/-! ## Points behind their center -/

/-- The points of a side lie behind the last bar of their center, and so does the stroke that
left it. -/
def BehindCenter (side : Side) (strokes : List Stroke) (points : List TradingPoint) : Prop :=
  ∀ point ∈ points, point.pointType = side.pointType →
    ∃ center ∈ centersOf strokes, point.relatedCenter = some center.index ∧
      ∃ bar leaving, lastBar strokes center = some bar ∧
        strokes.find? (side.leaves center) = some leaving ∧ bar < leaving.endIdx ∧
          bar < point.index

/-- The points of the third class lie behind their centers. -/
structure ThirdBehind (strokes : List Stroke) : Prop where
  purchases : ∀ divergences, BehindCenter above strokes
    (detectPurchasePoints strokes (centersOf strokes) divergences)
  sells : ∀ divergences, BehindCenter below strokes
    (detectSellPoints strokes (centersOf strokes) divergences)

/-- If the first stroke that passes the test for leaving the last center ends by the last bar
of that center, then the first stroke back after it does not stay beyond the edge. -/
def EarlyFallsBack (side : Side) (strokes : List Stroke) : Prop :=
  ∀ center bar, (centersOf strokes).getLast? = some center → lastBar strokes center = some bar →
    ∀ before stroke after, strokes = before ++ stroke :: after →
      (∀ earlier ∈ before, ¬ side.leaves center earlier) → side.leaves center stroke →
        stroke.endIdx ≤ bar → ∀ returning, firstAfter side.back stroke.endIdx strokes =
          some returning → ¬ side.stays center returning

/-- The points of a side are those that the search from the last center finds. -/
def PointsOf (side : Side) (strokes : List Stroke) (points : List TradingPoint) : Prop :=
  ∀ point, (point ∈ points ∧ point.pointType = side.pointType) ↔
    ∃ center, (centersOf strokes).getLast? = some center ∧
      ∃ leaving returning, side.Found strokes center leaving returning ∧
        point = side.point center returning

/-- Without three strokes there are no points, and no center to search from. -/
theorem pointsOf_few {side : Side} {strokes : List Stroke} (few : strokes.length < 3) :
    PointsOf side strokes [] := by
  intro point
  refine iff_of_false (fun both => List.not_mem_nil both.1) ?_
  rintro ⟨center, last, -⟩
  exact absurd (three_le_of_mem_centersOf (List.mem_of_getLast? last)) (not_le.mpr few)

theorem pointsOf_purchases (strokes : List Stroke) (divergences : List Divergence) :
    PointsOf above strokes (detectPurchasePoints strokes (centersOf strokes) divergences) := by
  intro point
  unfold detectPurchasePoints
  split
  · rename_i few
    exact pointsOf_few few point
  · refine ((classes_purchases strokes (centersOf strokes) divergences).third_iff
      (by decide)).trans ?_
    simp only [Option.bind_eq_some_iff, thirdPurchase_eq, third_eq_some_iff]

theorem pointsOf_sells (strokes : List Stroke) (divergences : List Divergence) :
    PointsOf below strokes (detectSellPoints strokes (centersOf strokes) divergences) := by
  intro point
  unfold detectSellPoints
  split
  · rename_i few
    exact pointsOf_few few point
  · refine ((classes_sells strokes (centersOf strokes) divergences).third_iff
      (by decide)).trans ?_
    simp only [Option.bind_eq_some_iff, thirdSell_eq, third_eq_some_iff]

theorem behindCenter_iff {side : Side} {strokes : List Stroke} {points : List TradingPoint}
    (found : PointsOf side strokes points) :
    BehindCenter side strokes points ↔ EarlyFallsBack side strokes := by
  constructor
  · intro behind center bar last ends before stroke after split none leaves early returning back
      stays
    have first : strokes.find? (side.leaves center) = some stroke :=
      List.find?_eq_some_iff_append.mpr ⟨leaves, before, after, split, by simpa using none⟩
    obtain ⟨member, ofType⟩ := (found (side.point center returning)).mpr
      ⟨center, last, stroke, returning, ⟨first, back, stays⟩, rfl⟩
    obtain ⟨other, listed, related, bar', leaving, ends', first', late, -⟩ :=
      behind _ member ofType
    obtain rfl : center = other :=
      eq_of_index_eq (List.mem_of_getLast? last) listed (Option.some.inj related)
    rw [ends] at ends'
    rw [first] at first'
    cases ends'
    cases first'
    exact absurd early (not_le.mpr late)
  · intro falls point member ofType
    obtain ⟨center, last, leaving, returning, ⟨first, back, stays⟩, rfl⟩ :=
      (found point).mp ⟨member, ofType⟩
    have listed : center ∈ centersOf strokes := List.mem_of_getLast? last
    obtain ⟨bar, ends⟩ := exists_lastBar listed
    obtain ⟨leaves, before, after, split, none⟩ := List.find?_eq_some_iff_append.mp first
    have late : bar < leaving.endIdx := by
      by_contra early
      exact falls center bar last ends before leaving after split (by simpa using none) leaves
        (not_lt.mp early) returning back stays
    have behind : leaving.endIdx < returning.endIdx := by
      have wanted := List.find?_some back
      exact (of_decide_eq_true wanted).2
    exact ⟨center, listed, rfl, bar, leaving, ends, first, late, late.trans behind⟩

/-- **The points of the third class lie behind their centers if and only if, on both sides of
the last center, the first stroke that passes the test for leaving it ends behind its last bar,
or the stroke back after it does not stay beyond the edge.** -/
theorem third_behind_iff (strokes : List Stroke) :
    ThirdBehind strokes ↔ EarlyFallsBack above strokes ∧ EarlyFallsBack below strokes := by
  constructor
  · intro behind
    exact ⟨(behindCenter_iff (pointsOf_purchases strokes [])).mp (behind.purchases []),
      (behindCenter_iff (pointsOf_sells strokes [])).mp (behind.sells [])⟩
  · rintro ⟨purchases, sells⟩
    refine ⟨?_, ?_⟩
    · intro divergences
      exact (behindCenter_iff (pointsOf_purchases strokes divergences)).mpr purchases
    · intro divergences
      exact (behindCenter_iff (pointsOf_sells strokes divergences)).mpr sells

/-- Nine strokes in three segments, of which the first goes far above the overlap. -/
def highStart : List Stroke :=
  [⟨.up, 0, 6, 8, 12, 4, 9⟩, ⟨.up, 6, 12, 12, 16, 4, 9⟩, ⟨.up, 12, 18, 16, 20, 4, 9⟩,
    ⟨.down, 18, 24, 20, 18, 2, 9⟩, ⟨.down, 24, 30, 18, 14, 4, 9⟩, ⟨.down, 30, 36, 14, 10, 4, 9⟩,
    ⟨.up, 36, 42, 10, 11, 1, 9⟩, ⟨.up, 42, 48, 11, 13, 2, 9⟩, ⟨.up, 48, 54, 13, 15, 2, 9⟩]

/-- Their purchase lies at the fourth stroke, while the center ends at the ninth. -/
theorem highStart_not_behind :
    centersOf highStart = [⟨0, 0, 2, 15, 10, 15, 10, 5, .up⟩] ∧
      (centersOf highStart).map (lastBar highStart) = [some 54] ∧
      (∃ point ∈ detectPurchasePoints highStart (centersOf highStart) [],
        point.pointType = .purchase3 ∧ point.index = 24) ∧
      ¬ ThirdBehind highStart := by
  have ends : (centersOf highStart).map (lastBar highStart) = [some 54] := by
    with_unfolding_all decide
  have early : ∃ point ∈ detectPurchasePoints highStart (centersOf highStart) [],
      point.pointType = .purchase3 ∧ point.index = 24 := by
    with_unfolding_all decide
  refine ⟨by with_unfolding_all decide, ends, early, ?_⟩
  intro behind
  obtain ⟨point, member, ofType, index⟩ := early
  obtain ⟨center, found, -, bar, leaving, last, -, -, late⟩ :=
    behind.purchases [] point member ofType
  have bars := List.mem_map_of_mem (f := lastBar highStart) found
  rw [ends, last, List.mem_singleton] at bars
  cases bars
  rw [index] at late
  exact absurd late (by decide)

end TradeOS.Chan
