import TradeOS.Technical.Levels
import TradeOS.Technical.LocalExtrema
import Mathlib.Data.List.Perm.Lattice

/-!
# The pivots behind the levels

The detection of levels puts the places of the pivot highs and the pivot lows into one list and
looks up the price of each again: that of the high, if the place is among the pivot highs. Then
it clusters the prices in a nested loop that marks what it has used.

The clusters are a partition of the prices (`flatten_clusterLoop_perm`), and each level is made
of one of them. What goes wrong is the second lookup: a bar that is a pivot of both kinds is
listed twice, and both times with its high. The prices are those of the pivots, each once,
exactly if the highs of such bars are a permutation of their lows (`pivotsOnce_iff`), which for
real bars means that they have no range (`highs_perm_lows_iff`).
-/

set_option autoImplicit false

namespace TradeOS.Technical

open Programs CheckedArray

/-! ## The nested loop -/

/-- The clusters of a list of prices: the first price with those that are close to it, and then the
clusters of the others. -/
def clusters (tolerance : ℚ) : List ℚ → List (List ℚ)
  | [] => []
  | price :: rest =>
      (price :: rest.filter (closeTo tolerance price)) ::
        clusters tolerance (rest.filter fun other => !closeTo tolerance price other)
  termination_by prices => prices.length
  decreasing_by
    rw [List.length_cons, List.length_unattach]
    exact Nat.lt_succ_of_le ((List.length_filter_le _ _).trans_eq List.length_attach)

section Rounds

variable (tolerance : ℚ) (prices : List ℚ)

/-- The places from one on that are not in use. -/
def unused (used : List ℕ) (k : ℕ) : List ℕ :=
  (List.range' k (prices.length - k)).filter fun j => j ∉ used

variable {prices}

/-- What joins a cluster are the unused places with a close price. -/
theorem joinedTo_eq (used : List ℕ) (k : ℕ) :
    joinedTo tolerance prices used k =
      (unused prices used (k + 1)).filter fun j =>
        closeTo tolerance (priceAt prices k) (priceAt prices j) := by
  rw [joinedTo, unused, List.filter_filter]
  refine List.filter_congr fun j _ => ?_
  rw [Bool.decide_and, Bool.and_comm, Bool.decide_eq_true]

/-- Behind a cluster the unused places with other prices are left. -/
theorem unused_behind (used : List ℕ) (k : ℕ) :
    unused prices (used ++ k :: joinedTo tolerance prices used k) (k + 1) =
      (unused prices used (k + 1)).filter fun j =>
        !closeTo tolerance (priceAt prices k) (priceAt prices j) := by
  rw [unused, unused, List.filter_filter]
  refine List.filter_congr fun j member => ?_
  have later : j ≠ k := by
    have bound := (List.mem_range'_1.mp member).1
    omega
  rw [Bool.eq_iff_iff, decide_eq_true_eq, Bool.and_eq_true, decide_eq_true_eq, List.mem_append,
    List.mem_cons, joinedTo, List.mem_filter, decide_eq_true_eq, Bool.not_eq_true']
  cases closeTo tolerance (priceAt prices k) (priceAt prices j) <;> simp [later, member]

/-- From a place on the rounds make the clusters of the prices that are not in use. The induction
is on the number of places that are left. -/
theorem clusterRounds_eq (count k : ℕ) (used : List ℕ) (rest : k + count = prices.length) :
    clusterRounds tolerance prices (List.range' k count) used =
      clusters tolerance ((unused prices used k).map (priceAt prices)) := by
  induction count generalizing k used with
  | zero =>
      have ended : prices.length - k = 0 := by omega
      rw [unused, ended, List.range'_zero, List.filter_nil, List.map_nil, clusters, clusterRounds]
  | succ count ih =>
      have left : prices.length - k = count + 1 := by omega
      have behind : prices.length - (k + 1) = count := by omega
      rw [List.range'_succ, clusterRounds, unused, left, List.range'_succ, List.filter_cons]
      by_cases taken : k ∈ used
      · rw [if_pos taken, if_neg (by simpa using taken), ih (k + 1) used (by omega), unused, behind]
      · rw [if_neg taken, if_pos (by simpa using taken), List.map_cons, clusters]
        have remaining : (List.range' (k + 1) count).filter (fun j => j ∉ used) =
            unused prices used (k + 1) := by
          rw [unused, behind]
        dsimp only
        rw [remaining, List.filter_map, List.filter_map, ih (k + 1) _ (by omega), unused_behind,
          List.map_cons, joinedTo_eq]
        rfl

/-- **The nested loop makes the clusters.** -/
theorem clusterLoop_eq (prices : List ℚ) :
    clusterLoop tolerance prices = clusters tolerance prices := by
  have all : unused prices [] 0 = List.range prices.length := by
    rw [unused, List.range_eq_range', Nat.sub_zero]
    exact List.filter_eq_self.mpr fun j _ => by simp
  rw [clusterLoop, List.range_eq_range', clusterRounds_eq tolerance prices.length 0 [] (by simp),
    all]
  exact congrArg (clusters tolerance) (table_priceAt prices)

theorem flatten_clusters_perm (prices : List ℚ) :
    (clusters tolerance prices).flatten.Perm prices := by
  induction prices using clusters.induct tolerance with
  | case1 =>
      rw [clusters]
      rfl
  | case2 price rest ih =>
      have others : (rest.attach.filter fun x => !closeTo tolerance price x.1).unattach =
          rest.filter fun other => !closeTo tolerance price other := by
        rw [@List.unattach_filter _ _ rest.attach _ (fun other => !closeTo tolerance price other)
          fun _ _ => rfl, List.unattach_attach]
      rw [others] at ih
      rw [clusters, List.flatten_cons, List.cons_append]
      refine List.Perm.cons price ((List.Perm.append_left _ ih).trans ?_)
      exact List.filter_append_perm (closeTo tolerance price) rest

/-- The clusters are a partition of the prices. -/
theorem flatten_clusterLoop_perm (prices : List ℚ) :
    (clusterLoop tolerance prices).flatten.Perm prices := by
  rw [clusterLoop_eq]
  exact flatten_clusters_perm tolerance prices

theorem ne_nil_of_mem_clusterRounds {places used : List ℕ} {cluster : List ℚ}
    (member : cluster ∈ clusterRounds tolerance prices places used) : cluster ≠ [] := by
  induction places generalizing used with
  | nil => exact absurd member List.not_mem_nil
  | cons i rest ih =>
      rw [clusterRounds] at member
      split at member
      · exact ih member
      · rcases List.mem_cons.mp member with rfl | later
        · exact List.cons_ne_nil _ _
        · exact ih later

end Rounds

/-! ## The lookup of the prices -/

section Lookup

variable (highs lows : List ℚ)

/-- The pivot highs and the pivot lows in one list, in order. -/
def allPivots : List ℕ :=
  (localExtrema above highs 5 ++ localExtrema below lows 5).insertionSort (· ≤ ·)

/-- What the second lookup finds. -/
def lookedUp (idx : ℕ) : ℚ :=
  if idx ∈ localExtrema above highs 5 then priceAt highs idx else priceAt lows idx

/-- The prices of the pivots: the high of each pivot high and the low of each pivot low. -/
def pivotPrices : List ℚ :=
  (localExtrema above highs 5).map (priceAt highs) ++ (localExtrema below lows 5).map (priceAt lows)

/-- The bars that are pivots of both kinds. -/
def bothKinds : List ℕ :=
  (localExtrema below lows 5).filter fun idx => idx ∈ localExtrema above highs 5

/-- The bars that are pivot lows only. -/
def lowsOnly : List ℕ :=
  (localExtrema below lows 5).filter fun idx => !decide (idx ∈ localExtrema above highs 5)

/-- The prices that `detect_support_resistance` clusters. -/
def levelsPrice : Except ArrayError (List ℚ) := do
  let (pivotHighs, pivotLows) ← findPivotPoints highs lows
  let allPivots := (pivotHighs ++ pivotLows).insertionSort (· ≤ ·)
  allPivots.mapM (pivotPrice highs lows pivotHighs)

variable {highs lows}

theorem findPivotPoints_eq :
    findPivotPoints highs lows =
      .ok (localExtrema above highs 5, localExtrema below lows 5) := by
  rw [findPivotPoints, extrema_eq, extrema_eq]
  rfl

theorem mapM_pivotPrice_eq (same : lows.length = highs.length) :
    (allPivots highs lows).mapM (pivotPrice highs lows (localExtrema above highs 5)) =
      .ok ((allPivots highs lows).map (lookedUp highs lows)) := by
  refine mapM_eq fun idx member => ?_
  have inside : idx < highs.length := by
    rcases List.mem_append.mp ((List.mem_insertionSort _).mp member) with high | low
    · have behind := (mem_localExtrema.mp high).behind
      omega
    · have behind := (mem_localExtrema.mp low).behind
      omega
  rw [pivotPrice, lookedUp, readAt_eq_priceAt inside, readAt_eq_priceAt (same ▸ inside)]
  split <;> rfl

theorem levelsPrice_eq (same : lows.length = highs.length) :
    levelsPrice highs lows = .ok ((allPivots highs lows).map (lookedUp highs lows)) := by
  rw [levelsPrice, findPivotPoints_eq]
  exact mapM_pivotPrice_eq same

theorem bothKinds_append_lowsOnly_perm :
    (bothKinds highs lows ++ lowsOnly highs lows).Perm (localExtrema below lows 5) :=
  List.filter_append_perm (fun idx => decide (idx ∈ localExtrema above highs 5)) _

/-- What is looked up for the pivot lows: the highs of those that are pivot highs as well. -/
theorem map_lookedUp_lows_perm :
    ((localExtrema below lows 5).map (lookedUp highs lows)).Perm
      ((bothKinds highs lows).map (priceAt highs) ++ (lowsOnly highs lows).map (priceAt lows)) := by
  have ofBoth : (bothKinds highs lows).map (lookedUp highs lows) =
      (bothKinds highs lows).map (priceAt highs) :=
    List.map_congr_left fun idx member => if_pos (of_decide_eq_true (List.mem_filter.mp member).2)
  have ofLowsOnly : (lowsOnly highs lows).map (lookedUp highs lows) =
      (lowsOnly highs lows).map (priceAt lows) := by
    refine List.map_congr_left fun idx member => if_neg ?_
    have other := (List.mem_filter.mp member).2
    rwa [Bool.not_eq_true', decide_eq_false_iff_not] at other
  rw [← ofBoth, ← ofLowsOnly, ← List.map_append]
  exact (bothKinds_append_lowsOnly_perm.map _).symm

/-- The lookups give the prices of the pivots exactly if the pivots of both kinds lose nothing by
it. -/
theorem lookedUp_perm_iff :
    ((allPivots highs lows).map (lookedUp highs lows)).Perm (pivotPrices highs lows) ↔
      ((bothKinds highs lows).map (priceAt highs)).Perm
        ((bothKinds highs lows).map (priceAt lows)) := by
  have sorted : ((allPivots highs lows).map (lookedUp highs lows)).Perm
      ((localExtrema above highs 5).map (lookedUp highs lows) ++
        (localExtrema below lows 5).map (lookedUp highs lows)) := by
    rw [← List.map_append]
    exact (List.perm_insertionSort _ _).map _
  have ofHighs : (localExtrema above highs 5).map (lookedUp highs lows) =
      (localExtrema above highs 5).map (priceAt highs) :=
    List.map_congr_left fun idx member => if_pos member
  have wanted : ((localExtrema below lows 5).map (priceAt lows)).Perm
      ((bothKinds highs lows).map (priceAt lows) ++ (lowsOnly highs lows).map (priceAt lows)) := by
    rw [← List.map_append]
    exact (bothKinds_append_lowsOnly_perm.map _).symm
  rw [sorted.congr_left, ofHighs, pivotPrices, List.perm_append_left_iff,
    map_lookedUp_lows_perm.congr_left, wanted.congr_right, List.perm_append_right_iff]

/-- Of bars whose lows are not above their highs, the highs are a permutation of the lows exactly
if they are the same. -/
theorem highs_perm_lows_iff {bars : List ℕ}
    (ordered : ∀ i ∈ bars, priceAt lows i ≤ priceAt highs i) :
    (bars.map (priceAt highs)).Perm (bars.map (priceAt lows)) ↔
      ∀ i ∈ bars, priceAt highs i = priceAt lows i := by
  constructor
  · intro perm i member
    by_contra differ
    have lower : priceAt lows i < priceAt highs i :=
      lt_of_le_of_ne (ordered i member) (Ne.symm differ)
    have sums : (bars.map (priceAt lows)).sum < (bars.map (priceAt highs)).sum :=
      List.sum_lt_sum _ _ ordered ⟨i, member, lower⟩
    exact absurd perm.sum_eq sums.ne'
  · intro same
    rw [List.map_congr_left same]

end Lookup

/-! ## The levels -/

/-- A series of at least twenty bars with positive prices. -/
structure LevelSeries where
  highs : List ℚ
  lows : List ℚ
  closes : List ℚ
  sameHighs : highs.length = closes.length
  sameLows : lows.length = closes.length
  enough : 20 ≤ closes.length
  positive : ∀ price ∈ highs ++ lows ++ closes, 0 < price

/-- The levels are those of some of the clusters, each with the size and the mean of its own. -/
def OfClusters (levels : List Level) (parts : List (List ℚ)) : Prop :=
  ∃ chosen : List (List ℚ), chosen.Sublist parts ∧
    (levels.map fun level => (level.touches, level.price)).Perm
      (chosen.map fun cluster => (cluster.length, average cluster))

/-- The clustered prices are those of the pivots, each once, the clusters are a partition of them,
and the levels are made of the clusters. -/
def PivotsOnce (tolerancePct : ℚ) (minTouches : ℕ) (series : LevelSeries) : Prop :=
  Returns (levelsPrice series.highs series.lows) fun prices =>
    prices.Perm (pivotPrices series.highs series.lows) ∧
      ((clusterLoop tolerancePct prices).flatten.Perm prices ∧
        ∀ cluster ∈ clusterLoop tolerancePct prices, cluster ≠ []) ∧
      Returns (detectSupportResistanceWith tolerancePct minTouches series.highs series.lows
        series.closes) fun levels => OfClusters levels (clusterLoop tolerancePct prices)

theorem ofClusters_sorted (parts : List (List ℚ)) (minTouches : ℕ) (currentPrice : ℚ) :
    OfClusters
      (((parts.filter fun cluster => minTouches ≤ cluster.length).map
        (levelOf currentPrice)).insertionSort fun level other => level.price ≤ other.price)
      parts := by
  refine ⟨parts.filter fun cluster => minTouches ≤ cluster.length, List.filter_sublist, ?_⟩
  refine ((List.perm_insertionSort _ _).map _).trans ?_
  rw [List.map_map]
  exact List.Perm.refl _

theorem returns_detectSupportResistanceWith (tolerancePct : ℚ) (minTouches : ℕ)
    (series : LevelSeries) :
    Returns (detectSupportResistanceWith tolerancePct minTouches series.highs series.lows
      series.closes) fun levels => OfClusters levels (clusterLoop tolerancePct
        ((allPivots series.highs series.lows).map (lookedUp series.highs series.lows))) := by
  have enough := series.enough
  rw [detectSupportResistanceWith, if_neg (by omega), findPivotPoints_eq]
  show Returns (if allPivots series.highs series.lows = [] then _ else
    (allPivots series.highs series.lows).mapM _ >>= _) _
  by_cases empty : allPivots series.highs series.lows = []
  · rw [if_pos empty, returns_pure_iff]
    exact ⟨[], List.nil_sublist _, List.Perm.refl _⟩
  · rw [if_neg empty, mapM_pivotPrice_eq (series.sameLows.trans series.sameHighs.symm),
      returns_bind_iff, returns_ok_iff, returns_bind_iff,
      readAt_eq_priceAt (by omega), returns_ok_iff, returns_pure_iff]
    exact ofClusters_sorted _ _ _

/-- **Every pivot counts once exactly if the highs of the bars that are pivots of both kinds are a
permutation of their lows.** -/
theorem pivotsOnce_iff (tolerancePct : ℚ) (minTouches : ℕ) (series : LevelSeries) :
    PivotsOnce tolerancePct minTouches series ↔
      ((bothKinds series.highs series.lows).map (priceAt series.highs)).Perm
        ((bothKinds series.highs series.lows).map (priceAt series.lows)) := by
  rw [PivotsOnce, levelsPrice_eq (series.sameLows.trans series.sameHighs.symm), returns_ok_iff,
    lookedUp_perm_iff, and_iff_left_iff_imp]
  intro _
  exact ⟨⟨flatten_clusterLoop_perm tolerancePct _,
    fun cluster member => ne_nil_of_mem_clusterRounds tolerancePct member⟩,
    returns_detectSupportResistanceWith tolerancePct minTouches series⟩

/-- Twenty-one bars with a wide one in the middle. -/
def wideBar : LevelSeries where
  highs := List.replicate 10 10 ++ 20 :: List.replicate 10 10
  lows := List.replicate 10 9 ++ 5 :: List.replicate 10 9
  closes := List.replicate 21 9
  sameHighs := rfl
  sameLows := rfl
  enough := by decide
  positive := by decide +kernel

/-- The wide bar is a pivot of both kinds, and its low is lost. -/
theorem wideBar_counted_twice : ¬ ∀ (tolerancePct : ℚ) (minTouches : ℕ) (series : LevelSeries),
    PivotsOnce tolerancePct minTouches series := by
  intro always
  obtain ⟨prices, found, once, -⟩ := always (2 / 100) 2 wideBar
  have looked : levelsPrice wideBar.highs wideBar.lows = .ok [20, 20] := by decide +kernel
  have wanted : pivotPrices wideBar.highs wideBar.lows = [20, 5] := by decide +kernel
  cases found.symm.trans looked
  rw [wanted] at once
  exact absurd once (by decide +kernel)

end TradeOS.Technical
