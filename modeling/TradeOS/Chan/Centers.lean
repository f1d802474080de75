import TradeOS.Chan.Strokes
import TradeOS.Numeric.Decimal

/-!
# Segments and centers

`build_segments` takes three strokes of one direction for a segment, if the last one ends
beyond the start of the first. `build_centers` takes three segments for a center, if their
price ranges overlap, and the segments after them as long as they lie in the overlap.

Both loops go on behind what they have taken, and by one where they have taken nothing. So
there is a center exactly if three consecutive segments overlap somewhere
(`buildCenters_eq_nil_iff`).
-/

set_option autoImplicit false

namespace TradeOS.Chan

open Numeric

/-! ## Segments -/

/-- The direction of a segment. -/
inductive SegmentDirection where
  | up
  | down
  deriving DecidableEq

/-- A segment. -/
structure Segment where
  direction : SegmentDirection
  startIdx : ℕ
  endIdx : ℕ
  startPrice : ℚ
  endPrice : ℚ
  height : ℚ
  strokeCount : ℕ
  deriving DecidableEq

/-- The direction of a segment of strokes of one direction. -/
def segmentDirection : StrokeDirection → SegmentDirection
  | .up => .up
  | .down => .down

/-- How far a segment goes in its direction. -/
def segmentHeight (direction : SegmentDirection) (startPrice endPrice : ℚ) : ℚ :=
  match direction with
  | .up => endPrice - startPrice
  | .down => startPrice - endPrice

/-- The segment of three strokes, the first of which has the given index. -/
def segmentAt (i : ℕ) (s1 s2 s3 : Stroke) : Option Segment :=
  let direction := segmentDirection s1.direction
  let height := segmentHeight direction s1.startPrice s3.endPrice
  if (s1.direction = s2.direction ∧ s2.direction = s3.direction) ∧ 0 < height then
    some ⟨direction, i, i + 2, s1.startPrice, s3.endPrice, height, 3⟩
  else none

/-- `_extend_segment`, on the strokes behind a segment. Its loop looks for the end of their
run, and nothing is returned on either path. -/
def extendSegment (strokes : List Stroke) (currentEndIdx : ℕ) (direction : SegmentDirection) :
    Option Segment :=
  let run := strokes.takeWhile fun stroke => segmentDirection stroke.direction = direction
  if currentEndIdx < currentEndIdx + run.length then none else none

/-- The loop of `build_segments` from an index on. As no segment is ever replaced by an
extended one, the loop goes on behind the third stroke. -/
def segmentsFrom (i : ℕ) : List Stroke → List Segment
  | s1 :: s2 :: s3 :: rest =>
      match segmentAt i s1 s2 s3 with
      | some segment =>
          (extendSegment rest (i + 2) segment.direction).getD segment :: segmentsFrom (i + 3) rest
      | none => segmentsFrom (i + 1) (s2 :: s3 :: rest)
  | _ => []

/-- `build_segments`. -/
def buildSegments (strokes : List Stroke) : List Segment := segmentsFrom 0 strokes

/-- The lower end of a segment. -/
def Segment.low (segment : Segment) : ℚ := min segment.startPrice segment.endPrice

/-- The upper end of a segment. -/
def Segment.high (segment : Segment) : ℚ := max segment.startPrice segment.endPrice

/-! ## Centers -/

/-- The direction of a center. -/
inductive CenterDirection where
  | up
  | down
  | neutral
  deriving DecidableEq

/-- The text of a direction. -/
def CenterDirection.value : CenterDirection → String
  | .up => "up"
  | .down => "down"
  | .neutral => "neutral"

/-- A center. -/
structure Center where
  index : ℕ
  startIdx : ℕ
  endIdx : ℕ
  gg : ℚ
  dd : ℚ
  zg : ℚ
  zd : ℚ
  height : ℚ
  direction : CenterDirection
  deriving DecidableEq

/-- The middle of a center. -/
def Center.mid (center : Center) : ℚ := (center.zg + center.zd) / 2

/-- The largest of the three lower ends. -/
def overlapLow (s1 s2 s3 : Segment) : ℚ := max (max s1.low s2.low) s3.low

/-- The smallest of the three upper ends. -/
def overlapHigh (s1 s2 s3 : Segment) : ℚ := min (min s1.high s2.high) s3.high

/-- Three segments overlap. -/
def Overlap (s1 s2 s3 : Segment) : Prop := overlapLow s1 s2 s3 < overlapHigh s1 s2 s3

instance (s1 s2 s3 : Segment) : Decidable (Overlap s1 s2 s3) :=
  inferInstanceAs (Decidable (_ < _))

/-- The direction of a center: that of its first and its third segment, if they agree. -/
def centerDirection (first third : Segment) : CenterDirection :=
  if first.direction = third.direction then
    match first.direction with
    | .up => .up
    | .down => .down
  else .neutral

/-- `_extend_center`: how many of the segments that follow lie in the overlap. -/
def extendCenter (zd zg : ℚ) : List Segment → ℕ
  | [] => 0
  | segment :: rest =>
      if zd ≤ segment.low ∧ segment.high ≤ zg then extendCenter zd zg rest + 1 else 0

/-- The center of three segments, with its number and the number of segments after them by
which it is extended. -/
def centerAt (i index extension : ℕ) (s1 s2 s3 : Segment) : Center where
  index := index
  startIdx := i
  endIdx := i + 2 + extension
  gg := overlapHigh s1 s2 s3
  dd := overlapLow s1 s2 s3
  zg := overlapHigh s1 s2 s3
  zd := overlapLow s1 s2 s3
  height := overlapHigh s1 s2 s3 - overlapLow s1 s2 s3
  direction := centerDirection s1 s3

/-- The loop of `build_centers`, at an index, with the number of the next center. The first
`skip` of the segments belong to the center before. -/
def centersFrom (skip i index : ℕ) : List Segment → List Center
  | [] => []
  | s1 :: rest =>
      match skip with
      | skip + 1 => centersFrom skip (i + 1) index rest
      | 0 =>
          match rest with
          | s2 :: s3 :: later =>
              if Overlap s1 s2 s3 then
                let extension := extendCenter (overlapLow s1 s2 s3) (overlapHigh s1 s2 s3) later
                centerAt i index extension s1 s2 s3 ::
                  centersFrom (extension + 2) (i + 1) (index + 1) rest
              else centersFrom 0 (i + 1) index rest
          | _ => []

/-- `build_centers`, with its default of three segments. -/
def buildCenters (segments : List Segment) : List Center := centersFrom 0 0 0 segments

/-- `is_price_in_center`. -/
def isPriceInCenter (price : ℚ) (center : Center) : Bool :=
  decide (center.zd ≤ price ∧ price ≤ center.zg)

/-- The price range of a center, as a text. -/
def Center.rangeText (center : Center) : String :=
  "[" ++ formatFixed 2 center.zd ++ ", " ++ formatFixed 2 center.zg ++ "]"

/-- A value in the summary of the centers. -/
inductive SummaryValue where
  | count (n : ℕ)
  | text (s : String)
  | latest (index : ℕ) (range direction : String) (height : ℚ)
  | ranges (texts : List String)
  deriving DecidableEq

/-- The summary of the centers, a dictionary. -/
abbrev Summary := List (String × SummaryValue)

/-- `summarize_centers`. -/
def summarizeCenters (centers : List Center) : Summary :=
  match centers.getLast? with
  | none => [("count", .count 0), ("summary", .text "no_center")]
  | some latest =>
      [("count", .count centers.length),
        ("latest", .latest latest.index latest.rangeText latest.direction.value latest.height),
        ("all_ranges", .ranges (centers.map Center.rangeText))]

/-! ## Where there are centers -/

/-- No three consecutive segments overlap. -/
def OverlapFree (segments : List Segment) : Prop :=
  ∀ s1 s2 s3, [s1, s2, s3] <:+: segments → ¬ Overlap s1 s2 s3

theorem overlapFree_of_length {segments : List Segment} (short : segments.length < 3) :
    OverlapFree segments := by
  intro s1 s2 s3 infixed
  exact absurd infixed.length_le (by simpa using short)

theorem overlapFree_cons_iff {s1 s2 s3 : Segment} {rest : List Segment} :
    OverlapFree (s1 :: s2 :: s3 :: rest) ↔
      ¬ Overlap s1 s2 s3 ∧ OverlapFree (s2 :: s3 :: rest) := by
  constructor
  · intro free
    refine ⟨free s1 s2 s3 ⟨[], rest, rfl⟩, fun a b c infixed => ?_⟩
    exact free a b c (infixed.trans (List.suffix_cons s1 _).isInfix)
  · rintro ⟨apart, free⟩ a b c infixed
    rcases List.infix_cons_iff.mp infixed with first | later
    · obtain ⟨rfl, rfl, rfl, -⟩ : a = s1 ∧ b = s2 ∧ c = s3 ∧ [] <+: rest := by
        simpa using first
      exact apart
    · exact free a b c later

/-- As long as nothing is taken the loop goes on by one, so that it comes to the first three
segments that overlap. -/
theorem centersFrom_eq_nil_iff (i index : ℕ) (segments : List Segment) :
    centersFrom 0 i index segments = [] ↔ OverlapFree segments := by
  induction segments generalizing i with
  | nil => exact iff_of_true rfl (overlapFree_of_length (by simp))
  | cons s1 rest ih =>
      match rest with
      | [] => exact iff_of_true rfl (overlapFree_of_length (by simp))
      | [s2] => exact iff_of_true rfl (overlapFree_of_length (by simp))
      | s2 :: s3 :: later =>
          rw [overlapFree_cons_iff, ← ih (i + 1), centersFrom]
          split
          · rename_i overlapping
            simp [overlapping]
          · rename_i apart
            simp [apart]

/-- There is a center if and only if three consecutive segments overlap. -/
theorem buildCenters_eq_nil_iff (segments : List Segment) :
    buildCenters segments = [] ↔ OverlapFree segments :=
  centersFrom_eq_nil_iff 0 0 segments

end TradeOS.Chan
