import TradeOS.Technical.Indicators
import Mathlib.Data.List.DropRight
import Mathlib.Data.List.Sort

/-!
# Chart patterns

A local extremum is a bar beyond those of a window before it and not below those of the window
after it. The patterns are read off the indices of the extrema: heads and shoulders from three in a
row, double tops and bottoms from two, triangles from the slopes through the last ones.

The scan returns for every price series (`returns_scanPatterns`), since the extrema are ascending
indices of the series. For the same reason it never finds a head with shoulders: the source compares
their indices where it means their prices (`returns_detectHeadShoulders`).
-/

set_option autoImplicit false

namespace TradeOS.Technical

open Programs CheckedArray

inductive PatternDirection where
  | bullish
  | bearish
  | neutral
  deriving DecidableEq, Repr

structure Pattern where
  name : String
  direction : PatternDirection
  confidence : ℚ
  startIdx : ℕ
  endIdx : ℕ
  neckline : Option ℚ := none
  deriving DecidableEq, Repr

/-! ## Extrema -/

/-- The bar is beyond the bars before it, and none of the bars after it is beyond the bar. -/
def isExtremum (beyond : ℚ → ℚ → Bool) (prices : List ℚ) (window i : ℕ) :
    Except ArrayError Bool := do
  let here ← readAt prices i
  let before ← allOf (fun j => do
    let other ← readAt prices (i - j)
    return beyond here other) (List.range' 1 window)
  if before then
    allOf (fun j => do
      let other ← readAt prices (i + j)
      return !beyond other here) (List.range' 1 window)
  else return false

/-- The indices of the extrema that have a full window on both sides. -/
def extrema (beyond : ℚ → ℚ → Bool) (prices : List ℚ) (window : ℕ) : Except ArrayError (List ℕ) :=
  select (isExtremum beyond prices window) (List.range' window (prices.length - window - window))

/-- A price above another one, as a high is. -/
def above (price other : ℚ) : Bool := other < price

/-- A price below another one, as a low is. -/
def below (price other : ℚ) : Bool := price < other

/-- `find_local_extrema`: the highs and the lows. -/
def findLocalExtrema (prices : List ℚ) (window : ℕ) : Except ArrayError (List ℕ × List ℕ) := do
  let highs ← extrema above prices window
  let lows ← extrema below prices window
  return (highs, lows)

/-- Ascending indices of an array. -/
structure Ascending (size : ℕ) (indices : List ℕ) : Prop where
  increasing : indices.Pairwise (· < ·)
  inside : ∀ i ∈ indices, i < size

theorem returns_isExtremum {beyond : ℚ → ℚ → Bool} {prices : List ℚ} {window i : ℕ}
    (inside : i + window < prices.length) :
    Returns (isExtremum beyond prices window i) fun _ => True := by
  refine (returns_readAt_total (by omega)).bind fun here _ => ?_
  refine (returns_allOf fun j member => ?_).bind fun before _ => ?_
  · exact (returns_readAt_total (by omega)).bind fun other _ => by simp
  rw [returns_ite_iff]
  split
  · refine returns_allOf fun j member => ?_
    have reach := (List.mem_range'_1.mp member).2
    exact (returns_readAt_total (by omega)).bind fun other _ => by simp
  · simp

theorem returns_extrema (beyond : ℚ → ℚ → Bool) (prices : List ℚ) (window : ℕ) :
    Returns (extrema beyond prices window) (Ascending prices.length) := by
  refine (returns_select fun i member => ?_).mono fun indices part => ⟨?_, fun i member => ?_⟩
  · obtain ⟨_, reach⟩ := List.mem_range'_1.mp member
    exact returns_isExtremum (by omega)
  · exact List.Pairwise.sublist part List.pairwise_lt_range'
  · obtain ⟨_, reach⟩ := List.mem_range'_1.mp (part.subset member)
    omega

theorem returns_findLocalExtrema (prices : List ℚ) (window : ℕ) :
    Returns (findLocalExtrema prices window) fun found =>
      Ascending prices.length found.1 ∧ Ascending prices.length found.2 := by
  refine (returns_extrema above prices window).bind fun highs ascending => ?_
  refine (returns_extrema below prices window).bind fun lows ascending' => ?_
  exact returns_pure_iff.mpr ⟨ascending, ascending'⟩

/-! ## Reversals -/

/-- The neckline between two bars: their lowest price under a top, the highest over a bottom. -/
def necklineBetween (top : Bool) (prices : List ℚ) (first last : ℕ) : Except ArrayError ℚ :=
  let region := slice prices first (last + 1)
  if top then smallest region else largest region

theorem returns_necklineBetween {top : Bool} {prices : List ℚ} {first last : ℕ}
    (ordered : first ≤ last) (inside : first < prices.length) :
    Returns (necklineBetween top prices first last) fun _ => True := by
  have nonempty := slice_ne_nil (Nat.lt_succ_of_le ordered) inside
  cases top with
  | true => exact returns_smallest nonempty
  | false => exact returns_largest nonempty

/-- How far a price is from the neckline, as a share. -/
def reach (top : Bool) (price neckline : ℚ) : ℚ :=
  if top then (price - neckline) / price else (neckline - price) / neckline

/-- Two prices are level, up to a tolerance. -/
def level (tolerance price other : ℚ) : Bool := |price - other| / max price other < tolerance

/-- The head of three extrema is not below its shoulders, or not above them, by its index. -/
def isHead (top : Bool) (left head right : ℕ) : Bool :=
  if top then left ≤ head && right ≤ head else head ≤ left && head ≤ right

/-- One step of the loops of `detect_head_shoulders`. -/
def headShouldersAt (top : Bool) (prices : List ℚ) (tolerance : ℚ) (extrema : List ℕ) (i : ℕ) :
    Except ArrayError (List Pattern) := do
  let leftShoulder ← readAt extrema (i - 2)
  let head ← readAt extrema (i - 1)
  let rightShoulder ← readAt extrema i
  if isHead top leftShoulder head rightShoulder then do
    let lsPrice ← readAt prices leftShoulder
    let hPrice ← readAt prices head
    let rsPrice ← readAt prices rightShoulder
    if level tolerance lsPrice rsPrice then do
      let neckline ← necklineBetween top prices leftShoulder rightShoulder
      return [{
        name := if top then "head_and_shoulders_top" else "head_and_shoulders_bottom"
        direction := if top then .bearish else .bullish
        confidence := min (9 / 10) (1 / 2 + reach top hPrice neckline)
        startIdx := leftShoulder
        endIdx := rightShoulder
        neckline := some neckline }]
    else return []
  else return []

/-- `detect_head_shoulders`. -/
def detectHeadShouldersWith (tolerance : ℚ) (prices : List ℚ) (window : ℕ) :
    Except ArrayError (List Pattern) := do
  let (highs, lows) ← findLocalExtrema prices window
  let tops ← collect (headShouldersAt true prices tolerance highs)
    (List.range' 2 (highs.length - 2))
  let bottoms ← collect (headShouldersAt false prices tolerance lows)
    (List.range' 2 (lows.length - 2))
  return tops ++ bottoms

/-- `detect_head_shoulders`, with its default tolerance. -/
def detectHeadShoulders (prices : List ℚ) (window : ℕ) : Except ArrayError (List Pattern) :=
  detectHeadShouldersWith (3 / 100) prices window

/-- Of three ascending indices, the one in the middle is below the last and above the first. -/
theorem isHead_eq_false {top : Bool} {left head right : ℕ} (first : left < head)
    (second : head < right) : isHead top left head right = false := by
  cases top with
  | true => simp [isHead, second]
  | false => simp [isHead, first]

theorem returns_headShouldersAt {top : Bool} {prices : List ℚ} {tolerance : ℚ} {size i : ℕ}
    {extrema : List ℕ} (ascending : Ascending size extrema) (after : 2 ≤ i)
    (inside : i < extrema.length) :
    Returns (headShouldersAt top prices tolerance extrema i) fun patterns => patterns = [] := by
  refine returns_readAt_bind (by omega) ?_
  refine returns_readAt_bind (by omega) ?_
  refine returns_readAt_bind inside ?_
  have first : extrema[i - 2] < extrema[i - 1] :=
    List.pairwise_iff_getElem.mp ascending.increasing _ _ _ _ (by omega)
  have second : extrema[i - 1] < extrema[i] :=
    List.pairwise_iff_getElem.mp ascending.increasing _ _ _ _ (by omega)
  simp [isHead_eq_false first second]

/-- No head with shoulders is found, in any price series. -/
theorem returns_detectHeadShouldersWith (tolerance : ℚ) (prices : List ℚ) (window : ℕ) :
    Returns (detectHeadShouldersWith tolerance prices window) fun patterns => patterns = [] := by
  refine (returns_findLocalExtrema prices window).bind fun found ascending => ?_
  refine (returns_collect_nil fun i member => ?_).bind fun tops noTop => ?_
  · obtain ⟨after, inside⟩ := List.mem_range'_1.mp member
    exact returns_headShouldersAt ascending.1 after (by omega)
  refine (returns_collect_nil fun i member => ?_).bind fun bottoms noBottom => ?_
  · obtain ⟨after, inside⟩ := List.mem_range'_1.mp member
    exact returns_headShouldersAt ascending.2 after (by omega)
  rw [noTop, noBottom]
  exact returns_pure_iff.mpr rfl

theorem returns_detectHeadShoulders (prices : List ℚ) (window : ℕ) :
    Returns (detectHeadShoulders prices window) fun patterns => patterns = [] :=
  returns_detectHeadShouldersWith (3 / 100) prices window

/-- One step of the loops of `detect_double_top_bottom`. -/
def doubleAt (top : Bool) (prices : List ℚ) (tolerance : ℚ) (extrema : List ℕ) (i : ℕ) :
    Except ArrayError (List Pattern) := do
  let first ← readAt extrema (i - 1)
  let second ← readAt extrema i
  let price ← readAt prices first
  let price' ← readAt prices second
  if level tolerance price price' then do
    let neckline ← necklineBetween top prices first second
    return [{
      name := if top then "double_top" else "double_bottom"
      direction := if top then .bearish else .bullish
      confidence := min (85 / 100) (1 / 2 + reach top price neckline * 2)
      startIdx := first
      endIdx := second
      neckline := some neckline }]
  else return []

/-- `detect_double_top_bottom`, with its default tolerance. -/
def detectDoubleTopBottom (prices : List ℚ) (window : ℕ) : Except ArrayError (List Pattern) := do
  let (highs, lows) ← findLocalExtrema prices window
  let tops ← collect (doubleAt true prices (2 / 100) highs) (List.range' 1 (highs.length - 1))
  let bottoms ← collect (doubleAt false prices (2 / 100) lows) (List.range' 1 (lows.length - 1))
  return tops ++ bottoms

theorem returns_doubleAt {top : Bool} {prices : List ℚ} {tolerance : ℚ} {extrema : List ℕ} {i : ℕ}
    (ascending : Ascending prices.length extrema) (after : 1 ≤ i) (inside : i < extrema.length) :
    Returns (doubleAt top prices tolerance extrema i) fun _ => True := by
  refine returns_readAt_bind (by omega) ?_
  refine returns_readAt_bind inside ?_
  have ordered : extrema[i - 1] < extrema[i] :=
    List.pairwise_iff_getElem.mp ascending.increasing _ _ _ _ (by omega)
  have reached : extrema[i] < prices.length := ascending.inside _ (List.getElem_mem inside)
  refine (returns_readAt_total (ordered.trans reached)).bind fun price _ => ?_
  refine (returns_readAt_total reached).bind fun price' _ => ?_
  rw [returns_ite_iff]
  split
  · exact (returns_necklineBetween ordered.le (ordered.trans reached)).bind fun _ _ => by simp
  · simp

theorem returns_detectDoubleTopBottom (prices : List ℚ) (window : ℕ) :
    Returns (detectDoubleTopBottom prices window) fun _ => True := by
  refine (returns_findLocalExtrema prices window).bind fun found ascending => ?_
  refine (returns_collect_total fun i member => ?_).bind fun tops _ => ?_
  · obtain ⟨after, inside⟩ := List.mem_range'_1.mp member
    exact returns_doubleAt ascending.1 after (by omega)
  refine (returns_collect_total fun i member => ?_).bind fun bottoms _ => ?_
  · obtain ⟨after, inside⟩ := List.mem_range'_1.mp member
    exact returns_doubleAt ascending.2 after (by omega)
  simp

/-! ## Triangles -/

/-- `np.polyfit` of degree one over the positions: the slope of the line of least squares. -/
def slope (ys : List ℚ) : ℚ :=
  let xs : List ℚ := (List.range ys.length).map fun k => (k : ℚ)
  (List.zipWith (fun x y => (x - average xs) * (y - average ys)) xs ys).sum /
    (xs.map fun x => (x - average xs) * (x - average xs)).sum

/-- The triangle that the prices of the last highs and lows form. -/
def triangleOf (highPrices lowPrices : List ℚ) : Option (String × PatternDirection × ℚ) :=
  let highTrend := slope highPrices
  let lowTrend := slope lowPrices
  if |highTrend| < 1 / 100 * average highPrices ∧ 0 < lowTrend then
    some ("ascending_triangle", .bullish, 7 / 10)
  else if |lowTrend| < 1 / 100 * average lowPrices ∧ highTrend < 0 then
    some ("descending_triangle", .bearish, 7 / 10)
  else if highTrend < 0 ∧ 0 < lowTrend then some ("symmetric_triangle", .neutral, 6 / 10)
  else none

/-- `detect_triangles`, with its default of four extrema. -/
def detectTriangles (prices : List ℚ) (window : ℕ) : Except ArrayError (List Pattern) := do
  let (highs, lows) ← findLocalExtrema prices window
  if highs.length < 2 ∨ lows.length < 2 then return []
  else
    let recentLen := min 10 highs.length
    let recentHighs := highs.rtake recentLen
    let recentLows := lows.rtake recentLen
    let highPrices ← recentHighs.mapM (readAt prices)
    let lowPrices ← recentLows.mapM (readAt prices)
    match triangleOf highPrices lowPrices with
    | none => return []
    | some (name, direction, confidence) =>
        let firstHigh ← readAt recentHighs 0
        let firstLow ← readAt recentLows 0
        let lastHigh ← readAt recentHighs (recentHighs.length - 1)
        let lastLow ← readAt recentLows (recentLows.length - 1)
        return [⟨name, direction, confidence, min firstHigh firstLow, max lastHigh lastLow, none⟩]

theorem returns_mapM_readAt {prices : List ℚ} {indices : List ℕ} (k : ℕ)
    (ascending : Ascending prices.length indices) :
    Returns ((indices.rtake k).mapM (readAt prices)) fun _ => True := by
  refine returns_mapM_total_iff.mpr fun i member => ?_
  exact returns_readAt_total (ascending.inside i (List.mem_of_mem_drop member))

theorem length_rtake_pos {indices : List ℕ} {k : ℕ} (some : 0 < k) (nonempty : 2 ≤ indices.length) :
    0 < (indices.rtake k).length := by
  rw [List.rtake, List.length_drop]
  omega

theorem returns_detectTriangles (prices : List ℚ) (window : ℕ) :
    Returns (detectTriangles prices window) fun _ => True := by
  refine (returns_findLocalExtrema prices window).bind fun found ascending => ?_
  rw [returns_ite_iff]
  split
  · simp
  · rename_i enough
    have manyHighs : 2 ≤ found.1.length := by omega
    have manyLows : 2 ≤ found.2.length := by omega
    have recent : 0 < min 10 found.1.length := by omega
    have highsLength := length_rtake_pos recent manyHighs
    have lowsLength := length_rtake_pos recent manyLows
    refine (returns_mapM_readAt _ ascending.1).bind fun highPrices _ => ?_
    refine (returns_mapM_readAt _ ascending.2).bind fun lowPrices _ => ?_
    split
    · simp
    · refine (returns_readAt_total highsLength).bind fun firstHigh _ => ?_
      refine (returns_readAt_total lowsLength).bind fun firstLow _ => ?_
      refine (returns_readAt_total (Nat.sub_lt highsLength Nat.one_pos)).bind fun lastHigh _ => ?_
      refine (returns_readAt_total (Nat.sub_lt lowsLength Nat.one_pos)).bind fun lastLow _ => ?_
      simp

/-! ## The scan -/

/-- `scan_patterns`: the patterns, the most confident first. -/
def scanPatterns (prices : List ℚ) (window : ℕ) : Except ArrayError (List Pattern) := do
  let headShoulders ← detectHeadShoulders prices window
  let doubles ← detectDoubleTopBottom prices window
  let triangles ← detectTriangles prices window
  return (headShoulders ++ doubles ++ triangles).insertionSort fun pattern other =>
    other.confidence ≤ pattern.confidence

theorem returns_scanPatterns (prices : List ℚ) (window : ℕ) :
    Returns (scanPatterns prices window) fun _ => True := by
  refine (returns_detectHeadShoulders prices window).bind fun headShoulders _ => ?_
  refine (returns_detectDoubleTopBottom prices window).bind fun doubles _ => ?_
  refine (returns_detectTriangles prices window).bind fun triangles _ => ?_
  simp

end TradeOS.Technical
