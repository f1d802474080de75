import TradeOS.Chan.Fractals
import TradeOS.Data.GreedyScan

/-!
# Turns of inclusion handling, and where fractals lie

The loop of `_handle_inclusion` is a greedy scan in which every place begins a block. The
block of a turn is what the cursor passes: a bar that is left as it is, or all bars of a merge
but the last one, which the next turn begins with. A processed bar is recorded at the end of
its block, so that the recorded indices increase and stay in range.

A merge begins with the second bar, and every further bar raises its upper end or lowers its
lower end. A processed bar is therefore well formed if the raw bars are.

A fractal is three successive processed bars, on either path of its detection.
-/

set_option autoImplicit false

namespace TradeOS.Chan

open GreedyScan

/-! ## Turns -/

/-- What a turn of the loop leaves: the prices of the processed bar, and the raw bars from
the cursor on that it has read for them. -/
structure Turn where
  bar : Bar
  raw : List Bar

/-- One turn of the loop, on the bars from the cursor on, and how many bars the inner loop
has taken. -/
def turnAt : List Bar → Option (Turn × ℕ)
  | [] => none
  | first :: second :: third :: later =>
      match initialMerge first second with
      | some merged =>
          some (⟨(absorb merged (third :: later)).1,
            (first :: second :: third :: later).take ((absorb merged (third :: later)).2 + 2)⟩,
            (absorb merged (third :: later)).2)
      | none => some (⟨first, [first]⟩, 0)
  | first :: _ => some (⟨first, [first]⟩, 0)

/-- The turns of the loop. -/
def turns (bars : List Bar) : List (Block Turn) := scan turnAt bars

/-- The processed bar of a turn. -/
def processedOf (turn : Block Turn) : Processed :=
  ⟨turn.found.bar, turn.stop, List.range' turn.start turn.found.raw.length⟩

section Equations

variable {first second third merged : Bar} {later : List Bar}

theorem turnAt_merge (goesOn : initialMerge first second = some merged) :
    turnAt (first :: second :: third :: later) =
      some (⟨(absorb merged (third :: later)).1,
        (first :: second :: third :: later).take ((absorb merged (third :: later)).2 + 2)⟩,
        (absorb merged (third :: later)).2) := by
  simp only [turnAt, goesOn]

theorem turnAt_single (contained : initialMerge first second = none) :
    turnAt (first :: second :: later) = some (⟨first, [first]⟩, 0) := by
  cases later with
  | nil => rfl
  | cons third later => simp only [turnAt, contained]

theorem processedOf_merge (index : ℕ) :
    processedOf ⟨index, (absorb merged (third :: later)).2, (absorb merged (third :: later)).1,
      (first :: second :: third :: later).take ((absorb merged (third :: later)).2 + 2)⟩ =
      mergedBar index merged (third :: later) := by
  have bounded := absorb_le merged (third :: later)
  have whole : min ((absorb merged (third :: later)).2 + 2)
      (first :: second :: third :: later).length = (absorb merged (third :: later)).2 + 2 := by
    simp only [List.length_cons] at bounded ⊢
    omega
  rw [processedOf, mergedBar, List.length_take, whole]
  rfl

end Equations

/-- The loop is a scan of turns. -/
theorem process_eq (skip index : ℕ) (bars : List Bar) :
    process skip index bars = (scanFrom turnAt skip index bars).map processedOf := by
  induction bars generalizing skip index with
  | nil => rfl
  | cons bar rest ih =>
      cases skip with
      | succ skip => rw [process_skip, scanFrom_skip, ih]
      | zero =>
          match rest with
          | [] => rfl
          | [second] => rfl
          | second :: third :: later =>
              cases goesOn : initialMerge bar second with
              | some merged =>
                  rw [process_merge index goesOn, ih, scanFrom_take index (turnAt_merge goesOn),
                    List.map_cons, processedOf_merge]
              | none =>
                  rw [process_single index goesOn, ih, scanFrom_take index (turnAt_single goesOn)]
                  rfl

theorem handleInclusion_eq (bars : List Bar) :
    handleInclusion bars = (turns bars).map processedOf :=
  process_eq 0 0 bars

theorem isSome_turnAt (bar : Bar) (rest : List Bar) : (turnAt (bar :: rest)).isSome := by
  match rest with
  | [] => rfl
  | second :: later =>
      cases goesOn : initialMerge bar second with
      | none =>
          rw [turnAt_single goesOn]
          rfl
      | some merged =>
          cases later with
          | nil => rfl
          | cons third later =>
              rw [turnAt_merge goesOn]
              rfl

/-- A turn stays in the bars: of a merge the last bar is left to the next turn. -/
theorem bounded_turnAt : Bounded turnAt := by
  intro bars turn further found
  match bars with
  | [] => cases found
  | [bar] =>
      cases found
      exact Nat.one_pos
  | first :: second :: later =>
      cases goesOn : initialMerge first second with
      | none =>
          rw [turnAt_single goesOn] at found
          cases found
          exact Nat.succ_pos _
      | some merged =>
          cases later with
          | nil =>
              cases found
              exact Nat.succ_pos _
          | cons third later =>
              rw [turnAt_merge goesOn] at found
              cases found
              have bounded := absorb_le merged (third :: later)
              simp only [List.length_cons] at bounded ⊢
              omega

theorem covers_turns (bars : List Bar) : Covers turnAt bars 0 (turns bars) :=
  covers_scan bounded_turnAt bars

/-! ## Processed bars -/

/-- Bars whose indices increase, and stay below a bound. -/
structure Indexed (bound : ℕ) (processed : List Processed) : Prop where
  increasing : processed.Pairwise fun first second => first.index < second.index
  within : ∀ bar ∈ processed, bar.index < bound

theorem indexed_handleInclusion (bars : List Bar) :
    Indexed bars.length (handleInclusion bars) := by
  have covers := covers_turns bars
  rw [handleInclusion_eq]
  constructor
  · rw [List.pairwise_map]
    refine covers.ordered.imp ?_
    intro first second apart
    exact apart.trans_le second.start_le_stop
  · intro bar member
    obtain ⟨turn, listed, rfl⟩ := List.mem_map.mp member
    exact (covers.within turn listed).2

theorem indexed_singles (bars : List Bar) : Indexed bars.length (singles 0 bars) := by
  have indices : ∀ index, (singles index bars).map Processed.index =
      List.range' index bars.length := by
    induction bars with
    | nil => exact fun index => rfl
    | cons bar rest ih =>
        intro index
        rw [singles, List.map_cons, ih, List.length_cons, List.range'_succ]
        rfl
  constructor
  · have increasing : ((singles 0 bars).map Processed.index).Pairwise (· < ·) := by
      rw [indices]
      exact List.pairwise_lt_range'
    exact List.pairwise_map.mp increasing
  · intro bar member
    have listed := List.mem_map_of_mem (f := Processed.index) member
    rw [indices, List.mem_range'_1] at listed
    omega

/-- The prices of a bar are in order. -/
def Bar.Ordered (bar : Bar) : Prop := bar.low ≤ bar.high

/-- What is merged of two bars is the second one. -/
theorem eq_of_initialMerge {first second merged : Bar}
    (goesOn : initialMerge first second = some merged) : merged = second := by
  unfold initialMerge at goesOn
  split at goesOn
  · rename_i up
    cases goesOn
    rw [max_eq_right up.1.le, max_eq_right up.2]
  · split at goesOn
    · rename_i down
      cases goesOn
      rw [min_eq_right down.1, min_eq_right down.2.le]
    · cases goesOn

theorem ordered_absorb {merged : Bar} (later : List Bar) (ordered : merged.Ordered) :
    (absorb merged later).1.Ordered := by
  induction later generalizing merged with
  | nil => exact ordered
  | cons third rest ih =>
      rw [absorb]
      split
      · rename_i up
        exact ih (le_trans ordered up.1.le)
      · split
        · rename_i down
          exact ih (le_trans down.2.le ordered)
        · exact ordered

/-- A turn over bars in order leaves a bar in order. -/
theorem ordered_turnAt {bars : List Bar} (ordered : ∀ bar ∈ bars, bar.Ordered) {turn : Turn}
    {further : ℕ} (found : turnAt bars = some (turn, further)) : turn.bar.Ordered := by
  match bars with
  | [] => cases found
  | [bar] =>
      cases found
      exact ordered bar List.mem_cons_self
  | first :: second :: later =>
      cases goesOn : initialMerge first second with
      | none =>
          rw [turnAt_single goesOn] at found
          cases found
          exact ordered first List.mem_cons_self
      | some merged =>
          cases later with
          | nil =>
              cases found
              exact ordered first List.mem_cons_self
          | cons third later =>
              rw [turnAt_merge goesOn] at found
              cases found
              rw [eq_of_initialMerge goesOn]
              exact ordered_absorb _ (ordered second (List.mem_cons_of_mem _ List.mem_cons_self))

theorem ordered_handleInclusion {bars : List Bar} (ordered : ∀ bar ∈ bars, bar.Ordered) :
    ∀ bar ∈ handleInclusion bars, bar.Ordered := by
  intro bar member
  rw [handleInclusion_eq] at member
  obtain ⟨turn, listed, rfl⟩ := List.mem_map.mp member
  refine ordered_turnAt ?_ ((covers_turns bars).taken turn listed)
  intro raw later
  exact ordered raw (List.mem_of_mem_drop later)

/-! ## Fractals -/

/-- The fractals are those of three successive bars. -/
theorem mem_fractalsOf_iff {processed : List Processed} {fractal : Fractal} :
    fractal ∈ fractalsOf processed ↔ ∃ previous current next,
      [previous, current, next] <:+: processed ∧
        fractalAt previous current next = some fractal := by
  induction processed with
  | nil => simp [fractalsOf]
  | cons first rest ih =>
      match rest with
      | [] => simp [fractalsOf, List.infix_cons_iff]
      | [second] => simp [fractalsOf, List.infix_cons_iff]
      | second :: third :: later =>
          rw [fractalsOf, List.mem_append, Option.mem_toList, ih]
          constructor
          · rintro (here | ⟨previous, current, next, listed, found⟩)
            · exact ⟨first, second, third, ⟨[], later, rfl⟩, here⟩
            · exact ⟨previous, current, next, listed.trans (List.suffix_cons first _).isInfix,
                found⟩
          · rintro ⟨previous, current, next, listed, found⟩
            rcases List.infix_cons_iff.mp listed with here | listed
            · obtain ⟨rfl, rfl, rfl, -⟩ : previous = first ∧ current = second ∧ next = third ∧
                  [] <+: later := by simpa using here
              exact .inl found
            · exact .inr ⟨previous, current, next, listed, found⟩

/-- A fractal lies at its middle bar, from the bar before to the bar after. -/
theorem fractalAt_places {previous current next : Processed} {fractal : Fractal}
    (found : fractalAt previous current next = some fractal) :
    fractal.startIndex = previous.index ∧ fractal.index = current.index ∧
      fractal.endIndex = next.index := by
  unfold fractalAt at found
  split at found
  · cases found
    exact ⟨rfl, rfl, rfl⟩
  · split at found
    · cases found
      exact ⟨rfl, rfl, rfl⟩
    · cases found

/-- The indices of the fractals are among those of the bars, in their order. -/
theorem indices_fractalsOf (processed : List Processed) :
    ((fractalsOf processed).map Fractal.index).Sublist
      (processed.tail.map Processed.index) := by
  induction processed with
  | nil => exact List.Sublist.refl _
  | cons first rest ih =>
      match rest with
      | [] => exact List.Sublist.refl _
      | [second] => exact List.nil_sublist _
      | second :: third :: later =>
          rw [fractalsOf, List.map_append, List.tail_cons, List.map_cons]
          cases found : fractalAt first second third with
          | none => exact ih.cons _
          | some fractal =>
              have own : fractal.index = second.index := (fractalAt_places found).2.1
              rw [Option.toList_some, List.map_singleton, List.singleton_append, own]
              exact ih.cons_cons _

/-- Where a fractal lies: between its neighbours, below a bound. -/
structure Fractal.Placed (bound : ℕ) (fractal : Fractal) : Prop where
  before : fractal.startIndex < fractal.index
  after : fractal.index < fractal.endIndex
  within : fractal.endIndex < bound

/-- The fractals of indexed bars lie in order. -/
theorem Indexed.fractals {bound : ℕ} {processed : List Processed}
    (indexed : Indexed bound processed) :
    (∀ fractal ∈ fractalsOf processed, fractal.Placed bound) ∧
      (fractalsOf processed).Pairwise fun first second => first.index < second.index := by
  constructor
  · intro fractal member
    obtain ⟨previous, current, next, listed, found⟩ := mem_fractalsOf_iff.mp member
    obtain ⟨start, middle, finish⟩ := fractalAt_places found
    have three := indexed.increasing.sublist listed.sublist
    simp only [List.pairwise_cons, List.mem_cons, List.not_mem_nil, or_false, forall_eq_or_imp,
      forall_eq] at three
    obtain ⟨⟨first, -⟩, second, -⟩ := three
    have last : next ∈ processed := listed.subset (by simp)
    refine ⟨?_, ?_, ?_⟩
    · rwa [start, middle]
    · rwa [middle, finish]
    · rw [finish]
      exact indexed.within next last
  · have increasing : (processed.tail.map Processed.index).Pairwise (· < ·) :=
      List.pairwise_map.mpr (indexed.increasing.sublist (List.tail_sublist processed))
    exact List.pairwise_map.mp (increasing.sublist (indices_fractalsOf processed))

/-- Both paths of the detection go over indexed bars. -/
theorem fractals_placed (bars : List Bar) (withInclusion : Bool) (minBars : ℕ) :
    (∀ fractal ∈ detectFractals bars withInclusion minBars, fractal.Placed bars.length) ∧
      (detectFractals bars withInclusion minBars).Pairwise fun first second =>
        first.index < second.index := by
  unfold detectFractals
  split
  · exact (indexed_handleInclusion bars).fractals
  · unfold detectFractalsBasic
    split
    · exact ⟨fun fractal member => absurd member List.not_mem_nil, .nil⟩
    · exact (indexed_singles bars).fractals

/-- **Processed bars and fractals are well formed.** Over bars whose prices are in order, the
processed bars have increasing indices in range and prices in order. A fractal lies strictly
between its neighbours, in range, and the indices of the fractals increase. -/
theorem fractals_wellFormed (bars : List Bar) (ordered : ∀ bar ∈ bars, bar.low ≤ bar.high) :
    ((handleInclusion bars).Pairwise fun first second => first.index < second.index) ∧
      (∀ bar ∈ handleInclusion bars, bar.index < bars.length ∧ bar.low ≤ bar.high) ∧
      ∀ (withInclusion : Bool) (minBars : ℕ),
        (∀ fractal ∈ detectFractals bars withInclusion minBars,
          fractal.startIndex < fractal.index ∧ fractal.index < fractal.endIndex ∧
            fractal.endIndex < bars.length) ∧
          (detectFractals bars withInclusion minBars).Pairwise fun first second =>
            first.index < second.index := by
  have indexed := indexed_handleInclusion bars
  refine ⟨indexed.increasing, ?_, ?_⟩
  · intro bar member
    exact ⟨indexed.within bar member, ordered_handleInclusion ordered bar member⟩
  · intro withInclusion minBars
    obtain ⟨placed, increasing⟩ := fractals_placed bars withInclusion minBars
    refine ⟨?_, increasing⟩
    intro fractal member
    have own := placed fractal member
    exact ⟨own.before, own.after, own.within⟩

/-- A series that rises to its third bar and falls from there. -/
def lateTop : List Bar := [⟨1, 2⟩, ⟨1, 2⟩, ⟨2, 3⟩, ⟨1, 2⟩, ⟨0, 1⟩]

/-- The last four bars of the sample are merged, and a fractal lies on them. -/
theorem lateTop_wellFormed :
    (handleInclusion lateTop).map Processed.index = [0, 3, 4] ∧
      (detectFractals lateTop true 3).map Fractal.index = [3] ∧
      ∀ fractal ∈ detectFractals lateTop true 3,
        fractal.startIndex < fractal.index ∧ fractal.index < fractal.endIndex ∧
          fractal.endIndex < lateTop.length := by
  have ordered : ∀ bar ∈ lateTop, bar.low ≤ bar.high := by with_unfolding_all decide
  refine ⟨by with_unfolding_all decide, by with_unfolding_all decide, ?_⟩
  exact ((fractals_wellFormed lateTop ordered).2.2 true 3).1

end TradeOS.Chan
