import TradeOS.Chan.Centers
import TradeOS.Data.GreedyScan

/-!
# Centers as a greedy decomposition

The loop of `build_centers` is a greedy scan for three overlapping segments, each taken with
the segments behind it that lie in the overlap. The extension returns the last index that it
has taken, and the loop goes on behind that.

What the centers are can be said without the loop (`OverlapDecomposition`): they are numbered
from zero and apart, each of them is three overlapping segments with all that lie in the
overlap behind them, and three segments that overlap always begin in a center. There is one
list of this kind, and it is the one that is built (`overlapDecomposition_iff`).
-/

set_option autoImplicit false

namespace TradeOS.Chan

open GreedyScan

/-! ## The scan -/

/-- What one turn of the loop finds: three segments that overlap, and how many come after the
first one, with those in the overlap. -/
def centerHit : List Segment → Option ((Segment × Segment × Segment) × ℕ)
  | s1 :: s2 :: s3 :: later =>
      if Overlap s1 s2 s3 then
        some ((s1, s2, s3), extendCenter (overlapLow s1 s2 s3) (overlapHigh s1 s2 s3) later + 2)
      else none
  | _ => none

/-- The center of a block. -/
def centerOf (index : ℕ) (block : Block (Segment × Segment × Segment)) : Center :=
  centerAt block.start index (block.further - 2) block.found.1 block.found.2.1 block.found.2.2

/-- The loop is a scan for centers. -/
theorem centersFrom_eq (skip i index : ℕ) (segments : List Segment) :
    centersFrom skip i index segments =
      (scanFrom centerHit skip i segments).mapIdx fun place block =>
        centerOf (index + place) block := by
  induction segments generalizing skip i index with
  | nil => rfl
  | cons s1 rest ih =>
      cases skip with
      | succ skip => rw [centersFrom, scanFrom_skip, ih]
      | zero =>
          cases rest with
          | nil => rfl
          | cons s2 rest =>
              cases rest with
              | nil => rfl
              | cons s3 later =>
                  rw [centersFrom]
                  by_cases overlapping : Overlap s1 s2 s3
                  · have hits : centerHit (s1 :: s2 :: s3 :: later) = some ((s1, s2, s3),
                        extendCenter (overlapLow s1 s2 s3) (overlapHigh s1 s2 s3) later + 2) :=
                      if_pos overlapping
                    rw [if_pos overlapping, scanFrom_take i hits, List.mapIdx_cons]
                    dsimp only
                    rw [ih]
                    have shifted : (fun place block => centerOf (index + 1 + place) block) =
                        fun place block => centerOf (index + (place + 1)) block := by
                      funext place block
                      rw [Nat.add_right_comm, Nat.add_assoc]
                    rw [shifted]
                    rfl
                  · have hits : centerHit (s1 :: s2 :: s3 :: later) = none :=
                      if_neg overlapping
                    rw [if_neg overlapping, scanFrom_pass i hits, ih]

theorem buildCenters_eq (segments : List Segment) :
    buildCenters segments = (scan centerHit segments).mapIdx centerOf := by
  have numbered : (fun place block => centerOf (0 + place) block) = centerOf := by
    funext place block
    rw [Nat.zero_add]
  rw [buildCenters, centersFrom_eq, numbered]
  rfl

/-! ## The extension -/

/-- A segment lies in the overlap. -/
def Inside (zd zg : ℚ) (segment : Segment) : Prop := zd ≤ segment.low ∧ segment.high ≤ zg

/-- The segments behind a center, up to the first one that does not lie in the overlap, and
those from there on. -/
structure Extends (zd zg : ℚ) (inside after : List Segment) : Prop where
  inside : ∀ segment ∈ inside, Inside zd zg segment
  stops : ∀ next ∈ after.head?, ¬ Inside zd zg next

/-- The extension takes all segments up to the first one that does not lie in the overlap. -/
theorem extendCenter_append {zd zg : ℚ} {inside after : List Segment}
    (extent : Extends zd zg inside after) :
    extendCenter zd zg (inside ++ after) = inside.length := by
  obtain ⟨within, stops⟩ := extent
  induction inside with
  | nil =>
      cases after with
      | nil => rfl
      | cons next rest => exact if_neg (stops next rfl)
  | cons segment rest ih =>
      have lies : zd ≤ segment.low ∧ segment.high ≤ zg := within segment List.mem_cons_self
      rw [List.cons_append, extendCenter, if_pos lies,
        ih fun s member => within s (List.mem_cons_of_mem segment member)]
      rfl

theorem exists_extends (zd zg : ℚ) (later : List Segment) :
    ∃ inside after, later = inside ++ after ∧ Extends zd zg inside after := by
  induction later with
  | nil => exact ⟨[], [], rfl, by simp, by simp⟩
  | cons segment rest ih =>
      by_cases lies : Inside zd zg segment
      · obtain ⟨inside, after, split, extent⟩ := ih
        refine ⟨segment :: inside, after, by rw [split, List.cons_append], ?_, extent.stops⟩
        exact List.forall_mem_cons.mpr ⟨lies, extent.inside⟩
      · refine ⟨[], segment :: rest, rfl, by simp, ?_⟩
        intro next first
        cases first
        exact lies

/-- What a turn finds: three segments that overlap, and the extent of their center. -/
theorem centerHit_eq_some_iff {segments : List Segment} {found : Segment × Segment × Segment}
    {further : ℕ} :
    centerHit segments = some (found, further) ↔ ∃ inside after,
      segments = found.1 :: found.2.1 :: found.2.2 :: (inside ++ after) ∧
        further = inside.length + 2 ∧ Overlap found.1 found.2.1 found.2.2 ∧
        Extends (overlapLow found.1 found.2.1 found.2.2) (overlapHigh found.1 found.2.1 found.2.2)
          inside after := by
  match segments with
  | [] => simp [centerHit]
  | [_] => simp [centerHit]
  | [_, _] => simp [centerHit]
  | s1 :: s2 :: s3 :: later =>
      rw [centerHit, Option.ite_none_right_eq_some]
      constructor
      · rintro ⟨overlapping, same⟩
        cases same
        obtain ⟨inside, after, rfl, extent⟩ :=
          exists_extends (overlapLow s1 s2 s3) (overlapHigh s1 s2 s3) later
        exact ⟨inside, after, rfl, by rw [extendCenter_append extent], overlapping, extent⟩
      · rintro ⟨inside, after, same, rfl, overlapping, extent⟩
        cases same
        exact ⟨overlapping, by rw [extendCenter_append extent]⟩

theorem bounded_centerHit : Bounded centerHit := by
  intro segments found further hits
  obtain ⟨inside, after, rfl, rfl, -⟩ := centerHit_eq_some_iff.mp hits
  simp only [List.length_cons, List.length_append]
  omega

theorem covers_centers (segments : List Segment) :
    Covers centerHit segments 0 (scan centerHit segments) :=
  covers_scan bounded_centerHit segments

/-! ## The decomposition -/

/-- A center of a list of segments: it begins with three segments that overlap, has their
overlap as its range, and goes on with the segments in that range up to the first one that is
not in it. -/
def IsCenter (segments : List Segment) (center : Center) : Prop :=
  ∃ before s1 s2 s3 inside after,
    segments = before ++ s1 :: s2 :: s3 :: (inside ++ after) ∧
      center = centerAt before.length center.index inside.length s1 s2 s3 ∧
      center.zd < center.zg ∧ (∀ segment ∈ inside, Inside center.zd center.zg segment) ∧
      ∀ next ∈ after.head?, ¬ Inside center.zd center.zg next

/-- The greedy decomposition: the centers are numbered, one lies behind the other, and three
segments of which the first is in no center do not overlap; so there is no overlap before the
first center, between two of them, or after the last. -/
structure OverlapDecomposition (segments : List Segment) (centers : List Center) : Prop where
  numbered : ∀ (n : ℕ) (center : Center), centers[n]? = some center → center.index = n
  ordered : centers.Pairwise fun first second => first.endIdx < second.startIdx
  sound : ∀ center ∈ centers, IsCenter segments center
  complete : ∀ before s1 s2 s3 after, segments = before ++ s1 :: s2 :: s3 :: after →
    (∀ center ∈ centers, ¬ (center.startIdx ≤ before.length ∧ before.length ≤ center.endIdx)) →
      ¬ Overlap s1 s2 s3

/-- A center is one if the scan finds its block. -/
theorem isCenter_iff {segments : List Segment} {center : Center} :
    IsCenter segments center ↔ ∃ block,
      centerHit (segments.drop block.start) = some (block.found, block.further) ∧
        center = centerOf center.index block := by
  constructor
  · rintro ⟨before, s1, s2, s3, inside, after, split, same, range, within, stops⟩
    refine ⟨⟨before.length, inside.length + 2, s1, s2, s3⟩, ?_, same⟩
    rw [split, List.drop_left]
    rw [same] at range within stops
    exact centerHit_eq_some_iff.mpr ⟨inside, after, rfl, rfl, range, within, stops⟩
  · rintro ⟨⟨start, further, s1, s2, s3⟩, hits, same⟩
    obtain ⟨inside, after, split, two, overlapping, extent⟩ := centerHit_eq_some_iff.mp hits
    dsimp only at split two
    have first : (segments.take start).length = start := by
      have size := congrArg List.length split
      simp only [List.length_drop, List.length_cons] at size
      rw [List.length_take]
      omega
    have placed : center = centerAt (segments.take start).length center.index inside.length
        s1 s2 s3 := by
      rw [first, same, two]
      rfl
    refine ⟨segments.take start, s1, s2, s3, inside, after, ?_, placed, ?_⟩
    · rw [← split, List.take_append_drop]
    · rw [placed]
      exact ⟨overlapping, extent.inside, extent.stops⟩

/-- The places of a center are those of its block. -/
theorem places_centerOf {segments : List Segment} {index : ℕ}
    {block : Block (Segment × Segment × Segment)}
    (hits : centerHit (segments.drop block.start) = some (block.found, block.further)) :
    (centerOf index block).startIdx = block.start ∧ (centerOf index block).endIdx = block.stop := by
  obtain ⟨inside, after, -, two, -⟩ := centerHit_eq_some_iff.mp hits
  refine ⟨rfl, ?_⟩
  show block.start + 2 + (block.further - 2) = block.start + block.further
  omega

/-- Three segments at a place overlap if the scan finds something there. -/
theorem overlap_iff_isSome {before after : List Segment} {s1 s2 s3 : Segment} :
    Overlap s1 s2 s3 ↔
      (centerHit ((before ++ s1 :: s2 :: s3 :: after).drop before.length)).isSome := by
  rw [List.drop_left, centerHit]
  split <;> simp_all

theorem overlapDecomposition_buildCenters (segments : List Segment) :
    OverlapDecomposition segments (buildCenters segments) := by
  have covers := covers_centers segments
  have built := buildCenters_eq segments
  have listed : ∀ center ∈ buildCenters segments, ∃ block ∈ scan centerHit segments,
      center = centerOf center.index block := by
    intro center member
    rw [built] at member
    obtain ⟨place, inside, rfl⟩ := List.mem_mapIdx.mp member
    exact ⟨_, List.getElem_mem inside, rfl⟩
  refine ⟨?_, ?_, ?_, ?_⟩
  · intro n center found
    rw [built, List.getElem?_mapIdx] at found
    obtain ⟨block, -, rfl⟩ := Option.map_eq_some_iff.mp found
    rfl
  · rw [built, List.pairwise_iff_getElem]
    intro m n first second before
    rw [List.getElem_mapIdx, List.getElem_mapIdx]
    have apart := List.pairwise_iff_getElem.mp covers.ordered m n (by simpa using first)
      (by simpa using second) before
    rw [(places_centerOf (covers.taken _ (List.getElem_mem _))).2,
      (places_centerOf (covers.taken _ (List.getElem_mem _))).1]
    exact apart
  · intro center member
    obtain ⟨block, found, same⟩ := listed center member
    exact isCenter_iff.mpr ⟨block, covers.taken block found, same⟩
  · rintro before s1 s2 s3 after rfl outside
    rw [overlap_iff_isSome, Bool.not_eq_true, Option.isSome_eq_false_iff, Option.isNone_iff_eq_none]
    refine covers.passed before.length (Nat.zero_le _) (by simp) ?_
    intro block member has
    obtain ⟨place, inside, rfl⟩ := List.getElem_of_mem member
    obtain ⟨start, stop⟩ := places_centerOf (covers.taken _ member)
    refine outside (centerOf place (scan centerHit _)[place]) ?_ ?_
    · rw [built]
      exact List.mem_mapIdx.mpr ⟨place, inside, rfl⟩
    · rw [start, stop]
      exact has

section Blocks

variable {segments : List Segment} {centers : List Center}
  {block : Center → Block (Segment × Segment × Segment)}

/-- The blocks of a decomposition cover the segments. -/
theorem covers_of_decomposition (decomposition : OverlapDecomposition segments centers)
    (hits : ∀ center ∈ centers, centerHit (segments.drop (block center).start) =
      some ((block center).found, (block center).further))
    (same : ∀ center ∈ centers, center = centerOf center.index (block center)) :
    Covers centerHit segments 0 (centers.map block) := by
  have places : ∀ center ∈ centers, center.startIdx = (block center).start ∧
      center.endIdx = (block center).stop := by
    intro center member
    obtain ⟨start, stop⟩ := places_centerOf (hits center member)
    rw [← same center member] at start stop
    exact ⟨start, stop⟩
  refine ⟨?_, ?_, ?_, ?_⟩
  · rw [List.pairwise_map]
    refine decomposition.ordered.imp_of_mem ?_
    intro first second listed listed' apart
    rwa [(places first listed).2, (places second listed').1] at apart
  · intro found member
    obtain ⟨center, listed, rfl⟩ := List.mem_map.mp member
    have ends := bounded_centerHit _ _ _ (hits center listed)
    rw [List.length_drop] at ends
    refine ⟨Nat.zero_le _, ?_⟩
    rw [Block.stop]
    omega
  · intro found member
    obtain ⟨center, listed, rfl⟩ := List.mem_map.mp member
    exact hits center listed
  · intro p _ inside outside
    by_contra something
    obtain ⟨⟨found, further⟩, begins⟩ := Option.ne_none_iff_exists'.mp something
    obtain ⟨more, after, split, -, overlapping, -⟩ := centerHit_eq_some_iff.mp begins
    have whole : segments = segments.take p ++ found.1 :: found.2.1 :: found.2.2 ::
        (more ++ after) := by
      rw [← split, List.take_append_drop]
    refine decomposition.complete _ _ _ _ _ whole ?_ overlapping
    rw [List.length_take, min_eq_left inside.le]
    intro center listed within
    refine outside _ (List.mem_map_of_mem listed) ?_
    rw [(places center listed).1, (places center listed).2] at within
    exact within

/-- Centers that are numbered are those of their blocks. -/
theorem mapIdx_blocks
    (numbered : ∀ (n : ℕ) (center : Center), centers[n]? = some center → center.index = n)
    (same : ∀ center ∈ centers, center = centerOf center.index (block center)) :
    (centers.map block).mapIdx centerOf = centers := by
  refine List.ext_getElem? ?_
  intro n
  rw [List.getElem?_mapIdx, List.getElem?_map]
  cases found : centers[n]? with
  | none => rfl
  | some center =>
      have own := same center (List.mem_of_getElem? found)
      rw [numbered n center found] at own
      exact congrArg some own.symm

end Blocks

/-- Nothing but the scan covers the segments. -/
theorem eq_buildCenters {segments : List Segment} {centers : List Center}
    (decomposition : OverlapDecomposition segments centers) : centers = buildCenters segments := by
  have : Nonempty (Block (Segment × Segment × Segment)) :=
    ⟨⟨0, 0, ⟨.up, 0, 0, 0, 0, 0, 0⟩, ⟨.up, 0, 0, 0, 0, 0, 0⟩, ⟨.up, 0, 0, 0, 0, 0, 0⟩⟩⟩
  choose! block hits same using fun center member =>
    isCenter_iff.mp (decomposition.sound center member)
  have covers := covers_of_decomposition decomposition hits same
  rw [buildCenters_eq, ← (covers_scan_iff bounded_centerHit).mp covers]
  exact (mapIdx_blocks decomposition.numbered same).symm

/-- **The centers of a list of segments are its greedy overlap decomposition, and no other
list of centers is.** -/
theorem overlapDecomposition_iff (segments : List Segment) (centers : List Center) :
    OverlapDecomposition segments centers ↔ centers = buildCenters segments := by
  constructor
  · exact eq_buildCenters
  · rintro rfl
    exact overlapDecomposition_buildCenters segments

end TradeOS.Chan
