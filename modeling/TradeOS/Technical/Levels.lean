import TradeOS.Technical.Patterns

/-!
# Support and resistance

A level is a price that several pivots share. The pivots of the highs and of the lows are put in
order, their prices are clustered, and a cluster of at least two is a level at its mean.

The detection returns for columns of one length (`returns_detectSupportResistance`).
-/

set_option autoImplicit false

namespace TradeOS.Technical

open Programs CheckedArray

inductive LevelType where
  | support
  | resistance
  deriving DecidableEq, Repr

structure Level where
  price : ℚ
  strength : ℚ
  touches : ℕ
  levelType : LevelType
  deriving DecidableEq, Repr

/-- `find_pivot_points`, with its default of five bars on both sides. -/
def findPivotPoints (highs lows : List ℚ) : Except ArrayError (List ℕ × List ℕ) := do
  let pivotHighs ← extrema above highs 5
  let pivotLows ← extrema below lows 5
  return (pivotHighs, pivotLows)

/-- The price of a pivot: that of the high, if there is one. -/
def pivotPrice (highs lows : List ℚ) (pivotHighs : List ℕ) (idx : ℕ) : Except ArrayError ℚ :=
  if idx ∈ pivotHighs then readAt highs idx else readAt lows idx

/-- A price within a share of another one. -/
def closeTo (tolerance price other : ℚ) : Bool := |other - price| / price < tolerance

section Rounds

variable (tolerance : ℚ) (prices : List ℚ)

/-- The places behind a place that join its cluster, those in use left out. -/
def joinedTo (used : List ℕ) (i : ℕ) : List ℕ :=
  (List.range' (i + 1) (prices.length - (i + 1))).filter fun j =>
    j ∉ used ∧ closeTo tolerance (priceAt prices i) (priceAt prices j)

/-- The rounds of the outer loop, with the places in use. -/
def clusterRounds : List ℕ → List ℕ → List (List ℚ)
  | [], _ => []
  | i :: rest, used =>
      if i ∈ used then clusterRounds rest used
      else
        let cluster := i :: joinedTo tolerance prices used i
        cluster.map (priceAt prices) :: clusterRounds rest (used ++ cluster)

/-- The clusters of the nested loop. -/
def clusterLoop : List (List ℚ) := clusterRounds tolerance prices (List.range prices.length) []

end Rounds

/-- The level of a cluster. -/
def levelOf (currentPrice : ℚ) (cluster : List ℚ) : Level where
  price := average cluster
  strength := min 1 (cluster.length / 5)
  touches := cluster.length
  levelType := if average cluster < currentPrice then .support else .resistance

/-- `detect_support_resistance`, of columns that are cut to the bars to look back at. -/
def detectSupportResistanceWith (tolerancePct : ℚ) (minTouches : ℕ) (highs lows closes : List ℚ) :
    Except ArrayError (List Level) :=
  if closes.length < 20 then .ok []
  else do
    let (pivotHighs, pivotLows) ← findPivotPoints highs lows
    let allPivots := (pivotHighs ++ pivotLows).insertionSort (· ≤ ·)
    if allPivots = [] then return []
    else
      let levelsPrice ← allPivots.mapM (pivotPrice highs lows pivotHighs)
      let currentPrice ← readAt closes (closes.length - 1)
      let touched := (clusterLoop tolerancePct levelsPrice).filter fun cluster =>
        minTouches ≤ cluster.length
      return (touched.map (levelOf currentPrice)).insertionSort fun level other =>
        level.price ≤ other.price

/-- `detect_support_resistance`, with its defaults. -/
def detectSupportResistance (highs lows closes : List ℚ) : Except ArrayError (List Level) :=
  detectSupportResistanceWith (2 / 100) 2 highs lows closes

/-- The levels of a kind, the nearest first, at most three. -/
def nearestOf (levelType : LevelType) (distance : Level → ℚ) (levels : List Level) : List Level :=
  ((levels.filter fun level => level.levelType = levelType).insertionSort fun level other =>
    distance level ≤ distance other).take 3

/-- `get_nearest_levels`, with its default number: the support and the resistance. -/
def getNearestLevels (levels : List Level) (currentPrice : ℚ) : List Level × List Level :=
  (nearestOf .support (fun level => currentPrice - level.price) levels,
    nearestOf .resistance (fun level => level.price - currentPrice) levels)

section Total

variable {highs lows closes : List ℚ} (sameHighs : highs.length = closes.length)
  (sameLows : lows.length = closes.length)

include sameHighs sameLows

theorem returns_findPivotPoints :
    Returns (findPivotPoints highs lows) fun found =>
      Ascending closes.length found.1 ∧ Ascending closes.length found.2 := by
  refine (returns_extrema above highs 5).bind fun pivotHighs ascending => ?_
  refine (returns_extrema below lows 5).bind fun pivotLows ascending' => ?_
  rw [sameHighs] at ascending
  rw [sameLows] at ascending'
  exact returns_pure_iff.mpr ⟨ascending, ascending'⟩

theorem returns_detectSupportResistance :
    Returns (detectSupportResistance highs lows closes) fun _ => True := by
  unfold detectSupportResistance detectSupportResistanceWith
  by_cases short : closes.length < 20
  · simp [short]
  rw [if_neg short]
  refine (returns_findPivotPoints sameHighs sameLows).bind fun found ascending => ?_
  rw [returns_ite_iff]
  split
  · simp
  refine (returns_mapM_total_iff.mpr fun idx member => ?_).bind fun prices _ => ?_
  · have inside : idx < closes.length := by
      rcases List.mem_append.mp ((List.mem_insertionSort _).mp member) with high | low
      · exact ascending.1.inside idx high
      · exact ascending.2.inside idx low
    unfold pivotPrice
    split
    · exact returns_readAt_total (sameHighs ▸ inside)
    · exact returns_readAt_total (sameLows ▸ inside)
  exact (returns_readAt_total (by omega)).bind fun currentPrice _ => by simp

end Total

end TradeOS.Technical
