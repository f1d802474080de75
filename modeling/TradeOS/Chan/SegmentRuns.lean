import TradeOS.Chan.Centers
import TradeOS.Data.GreedyScan

/-!
# Segments as runs of strokes

The loop of `build_segments` is a greedy scan for three strokes of one direction of which the
last one ends beyond the start of the first. What it takes is handed to `_extend_segment`,
which looks for the end of the run and returns nothing, so that every segment is three
strokes long.

A segment is the whole run exactly if its run ends there. The scan takes the first three
strokes of a run that go anywhere, so this is the case for all segments if and only if no
three strokes that go anywhere are followed by a fourth of their direction
(`segmentsMaximal_iff`).
-/

set_option autoImplicit false

namespace TradeOS.Chan

open GreedyScan

/-! ## The scan -/

/-- Three strokes are a segment: they have one direction, and go somewhere in it. -/
def Starts (s1 s2 s3 : Stroke) : Prop :=
  (s1.direction = s2.direction ∧ s2.direction = s3.direction) ∧
    0 < segmentHeight (segmentDirection s1.direction) s1.startPrice s3.endPrice

instance (s1 s2 s3 : Stroke) : Decidable (Starts s1 s2 s3) := inferInstanceAs (Decidable (_ ∧ _))

/-- What one turn of the loop finds: three strokes, of which two come after the first. -/
def segmentHit : List Stroke → Option ((Stroke × Stroke × Stroke) × ℕ)
  | s1 :: s2 :: s3 :: _ => if Starts s1 s2 s3 then some ((s1, s2, s3), 2) else none
  | _ => none

/-- The segment of three strokes that were found. -/
def segmentOf (block : Block (Stroke × Stroke × Stroke)) : Segment where
  direction := segmentDirection block.found.1.direction
  startIdx := block.start
  endIdx := block.start + 2
  startPrice := block.found.1.startPrice
  endPrice := block.found.2.2.endPrice
  height := segmentHeight (segmentDirection block.found.1.direction) block.found.1.startPrice
    block.found.2.2.endPrice
  strokeCount := 3

theorem segmentAt_eq (i : ℕ) (s1 s2 s3 : Stroke) :
    segmentAt i s1 s2 s3 =
      if Starts s1 s2 s3 then some (segmentOf ⟨i, 2, s1, s2, s3⟩) else none :=
  rfl

theorem segmentHit_eq_some_iff {strokes : List Stroke} {found : Stroke × Stroke × Stroke}
    {further : ℕ} :
    segmentHit strokes = some (found, further) ↔ further = 2 ∧
      ∃ rest, strokes = found.1 :: found.2.1 :: found.2.2 :: rest ∧
        Starts found.1 found.2.1 found.2.2 := by
  match strokes with
  | [] => simp [segmentHit]
  | [_] => simp [segmentHit]
  | [_, _] => simp [segmentHit]
  | s1 :: s2 :: s3 :: rest =>
      rw [segmentHit, Option.ite_none_right_eq_some]
      constructor
      · rintro ⟨starts, same⟩
        cases same
        exact ⟨rfl, rest, rfl, starts⟩
      · rintro ⟨rfl, rest, same, starts⟩
        cases same
        exact ⟨starts, rfl⟩

theorem bounded_segmentHit : Bounded segmentHit := by
  intro strokes found further hits
  obtain ⟨rfl, rest, rfl, -⟩ := segmentHit_eq_some_iff.mp hits
  simp only [List.length_cons]
  omega

theorem extendSegment_eq_none (strokes : List Stroke) (currentEndIdx : ℕ)
    (direction : SegmentDirection) : extendSegment strokes currentEndIdx direction = none :=
  ite_self none

/-- The loop is a scan for segments. -/
theorem segmentsFrom_eq (i : ℕ) (strokes : List Stroke) :
    segmentsFrom i strokes = (scanFrom segmentHit 0 i strokes).map segmentOf := by
  induction i, strokes using segmentsFrom.induct with
  | case1 i s1 s2 s3 rest segment found ih =>
      rw [segmentsFrom, found]
      rw [segmentAt_eq] at found
      obtain ⟨starts, same⟩ := Option.ite_none_right_eq_some.mp found
      have hits : segmentHit (s1 :: s2 :: s3 :: rest) = some ((s1, s2, s3), 2) := if_pos starts
      simp only [extendSegment_eq_none, Option.getD_none]
      rw [scanFrom_take i hits, scanFrom_skip, scanFrom_skip, ih, List.map_cons,
        Option.some.inj same]
  | case2 i s1 s2 s3 rest nothing ih =>
      have passes : ¬ Starts s1 s2 s3 := by
        intro starts
        rw [segmentAt_eq, if_pos starts] at nothing
        cases nothing
      have hits : segmentHit (s1 :: s2 :: s3 :: rest) = none := if_neg passes
      rw [segmentsFrom, nothing, scanFrom_pass i hits]
      exact ih
  | case3 strokes i short =>
      match strokes with
      | [] => rfl
      | [_] => rfl
      | [_, _] => rfl
      | s1 :: s2 :: s3 :: rest => exact absurd rfl (short s1 s2 s3 rest)

theorem buildSegments_eq (strokes : List Stroke) :
    buildSegments strokes = (scan segmentHit strokes).map segmentOf :=
  segmentsFrom_eq 0 strokes

theorem covers_segments (strokes : List Stroke) :
    Covers segmentHit strokes 0 (scan segmentHit strokes) :=
  covers_scan bounded_segmentHit strokes

/-! ## Whole runs -/

/-- A segment is a whole run of strokes: three or more of its direction, with the price at
their end and their number, and the stroke after them, if there is one, has the other
direction. -/
structure WholeRun (strokes : List Stroke) (segment : Segment) : Prop where
  long : segment.startIdx + 2 ≤ segment.endIdx
  within : segment.endIdx < strokes.length
  run : ∀ k stroke, segment.startIdx ≤ k → k ≤ segment.endIdx → strokes[k]? = some stroke →
    segmentDirection stroke.direction = segment.direction
  endPrice : strokes[segment.endIdx]?.map Stroke.endPrice = some segment.endPrice
  strokeCount : segment.startIdx + segment.strokeCount = segment.endIdx + 1
  maximal : ∀ next, strokes[segment.endIdx + 1]? = some next →
    segmentDirection next.direction ≠ segment.direction

/-- The segments of a list of strokes are whole runs, and apart. -/
structure SegmentsMaximal (strokes : List Stroke) : Prop where
  whole : ∀ segment ∈ buildSegments strokes, WholeRun strokes segment
  apart : (buildSegments strokes).Pairwise fun first second => first.endIdx < second.startIdx

/-- No three strokes that go somewhere are followed by a fourth of their direction. -/
def NoFourth (strokes : List Stroke) : Prop :=
  ∀ s1 s2 s3 s4, [s1, s2, s3, s4] <:+: strokes → Starts s1 s2 s3 → s4.direction ≠ s3.direction

theorem segmentDirection_inj {first second : StrokeDirection} :
    segmentDirection first = segmentDirection second ↔ first = second := by
  cases first <;> cases second <;> simp [segmentDirection]

/-- The strokes of a block, read from its start. -/
theorem strokes_of_block {strokes : List Stroke} {block : Block (Stroke × Stroke × Stroke)}
    (member : block ∈ scan segmentHit strokes) :
    block.stop = block.start + 2 ∧ ∃ rest, strokes.drop block.start =
      block.found.1 :: block.found.2.1 :: block.found.2.2 :: rest ∧
        Starts block.found.1 block.found.2.1 block.found.2.2 := by
  obtain ⟨two, found⟩ := segmentHit_eq_some_iff.mp ((covers_segments strokes).taken block member)
  exact ⟨by rw [Block.stop, two], found⟩

theorem segments_apart (strokes : List Stroke) :
    (buildSegments strokes).Pairwise fun first second => first.endIdx < second.startIdx := by
  have covers := covers_segments strokes
  rw [buildSegments_eq, List.pairwise_map]
  refine covers.ordered.imp_of_mem ?_
  intro first second listed _ apart
  rw [(strokes_of_block listed).1] at apart
  exact apart

/-- A segment spans three strokes of the list. -/
theorem span_of_mem_buildSegments {strokes : List Stroke} {segment : Segment}
    (member : segment ∈ buildSegments strokes) :
    segment.endIdx = segment.startIdx + 2 ∧ segment.endIdx < strokes.length := by
  rw [buildSegments_eq] at member
  obtain ⟨block, listed, rfl⟩ := List.mem_map.mp member
  have inside := ((covers_segments strokes).within block listed).2
  rw [(strokes_of_block listed).1] at inside
  exact ⟨rfl, inside⟩

/-- A block is a whole run if no stroke of its direction comes after it. -/
theorem wholeRun_of_block {strokes : List Stroke} (noFourth : NoFourth strokes)
    {block : Block (Stroke × Stroke × Stroke)} (member : block ∈ scan segmentHit strokes) :
    WholeRun strokes (segmentOf block) := by
  obtain ⟨stop, rest, split, starts⟩ := strokes_of_block member
  obtain ⟨⟨same, same'⟩, -⟩ := id starts
  have read : ∀ j, strokes[block.start + j]? =
      (block.found.1 :: block.found.2.1 :: block.found.2.2 :: rest)[j]? := by
    intro j
    rw [← split, List.getElem?_drop]
  refine ⟨le_refl _, ?_, ?_, ?_, rfl, ?_⟩
  · have listed : segmentOf block ∈ buildSegments strokes := by
      rw [buildSegments_eq]
      exact List.mem_map_of_mem member
    exact (span_of_mem_buildSegments listed).2
  · intro k stroke late early found
    obtain ⟨j, rfl⟩ := Nat.exists_eq_add_of_le late
    replace found : strokes[block.start + j]? = some stroke := found
    rw [read] at found
    have few : j ≤ 2 := Nat.le_of_add_le_add_left early
    obtain rfl | rfl | rfl : j = 0 ∨ j = 1 ∨ j = 2 := by omega
    · cases found
      rfl
    · cases found
      exact congrArg segmentDirection same.symm
    · cases found
      exact congrArg segmentDirection (same.trans same').symm
  · show strokes[block.start + 2]?.map Stroke.endPrice = _
    rw [read]
    rfl
  · intro next found
    replace found : strokes[block.start + 3]? = some next := found
    rw [read] at found
    cases rest with
    | nil => cases found
    | cons fourth later =>
        cases found
        have infixed : [block.found.1, block.found.2.1, block.found.2.2, next] <:+: strokes := by
          refine ⟨strokes.take block.start, later, ?_⟩
          rw [List.append_assoc]
          exact (congrArg (strokes.take block.start ++ ·) split.symm).trans
            (List.take_append_drop block.start strokes)
        intro sameDirection
        refine noFourth _ _ _ _ infixed starts (segmentDirection_inj.mp (sameDirection.trans ?_))
        exact congrArg segmentDirection (same.trans same')

/-- A place at which three strokes go somewhere is in a block, so a fourth stroke of their
direction lies in the run of that block or directly after it. -/
theorem noFourth_of_whole {strokes : List Stroke}
    (whole : ∀ segment ∈ buildSegments strokes, WholeRun strokes segment) : NoFourth strokes := by
  rintro s1 s2 s3 s4 ⟨before, after, split⟩ starts same
  have read : ∀ j, strokes[before.length + j]? = (s1 :: s2 :: s3 :: s4 :: after)[j]? := by
    intro j
    rw [← split, List.append_assoc, List.getElem?_append_right (Nat.le_add_right _ _),
      Nat.add_sub_cancel_left]
    rfl
  have long : before.length + 3 < strokes.length := by
    rw [← split]
    simp only [List.length_append, List.length_cons]
    omega
  have hits : segmentHit (strokes.drop before.length) = some ((s1, s2, s3), 2) := by
    rw [← split, List.append_assoc, List.drop_left]
    exact if_pos starts
  obtain ⟨block, member, early, late⟩ := (covers_segments strokes).exists_has (Nat.zero_le _)
    (Nat.lt_of_add_right_lt long) hits
  have run := whole (segmentOf block) (by
    rw [buildSegments_eq]
    exact List.mem_map_of_mem member)
  rw [(strokes_of_block member).1] at late
  -- The first stroke of the four is in the run, and the next stroke after the run is one of
  -- the other three.
  have direction := run.run before.length s1 early late (read 0)
  obtain ⟨j, next⟩ := Nat.exists_eq_add_of_le late
  have few : j ≤ 2 := by
    have start := early
    omega
  have fourth : strokes[(segmentOf block).endIdx + 1]? =
      (s1 :: s2 :: s3 :: s4 :: after)[j + 1]? := by
    have place : (segmentOf block).endIdx + 1 = before.length + (j + 1) := by
      show block.start + 2 + 1 = before.length + (j + 1)
      omega
    rw [place, read]
  obtain ⟨⟨first, second⟩, -⟩ := starts
  obtain rfl | rfl | rfl : j = 0 ∨ j = 1 ∨ j = 2 := by omega
  · exact run.maximal s2 fourth (by rw [← first, direction])
  · exact run.maximal s3 fourth (by rw [← second, ← first, direction])
  · exact run.maximal s4 fourth (by rw [same, ← second, ← first, direction])

/-- **The segments of a list of strokes are whole runs, and apart, if and only if no three
strokes that go somewhere are followed by a fourth of their direction.** -/
theorem segmentsMaximal_iff (strokes : List Stroke) :
    SegmentsMaximal strokes ↔ NoFourth strokes := by
  constructor
  · intro maximal
    exact noFourth_of_whole maximal.whole
  · intro noFourth
    refine ⟨?_, segments_apart strokes⟩
    intro segment member
    rw [buildSegments_eq] at member
    obtain ⟨block, listed, rfl⟩ := List.mem_map.mp member
    exact wholeRun_of_block noFourth listed

/-- Four strokes up, one after the other. -/
def fourUp : List Stroke :=
  [⟨.up, 0, 6, 10, 12, 2, 9⟩, ⟨.up, 6, 12, 12, 14, 2, 9⟩, ⟨.up, 12, 18, 14, 16, 2, 9⟩,
    ⟨.up, 18, 24, 16, 18, 2, 9⟩]

/-- Their segment leaves out the last one. -/
theorem fourUp_not_maximal :
    buildSegments fourUp = [⟨.up, 0, 2, 10, 16, 6, 3⟩] ∧ ¬ SegmentsMaximal fourUp := by
  have built : buildSegments fourUp = [⟨.up, 0, 2, 10, 16, 6, 3⟩] := by
    with_unfolding_all decide
  refine ⟨built, ?_⟩
  intro maximal
  have whole := maximal.whole ⟨.up, 0, 2, 10, 16, 6, 3⟩ (by rw [built]; exact List.mem_cons_self)
  exact whole.maximal ⟨.up, 18, 24, 16, 18, 2, 9⟩ rfl rfl

end TradeOS.Chan
