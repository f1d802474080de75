import TradeOS.Data.Adjacent
import Mathlib.Data.Rat.Defs
import Mathlib.Algebra.Order.Ring.Rat
import Mathlib.Data.List.Range
import Mathlib.Tactic.Linarith

/-!
# Inclusion handling and fractals

`_handle_inclusion` goes through a price series with a cursor. Where the next bar goes
on in one direction the two bars are merged, an inner loop takes further bars into the
merged one, and the cursor moves to the last bar that was taken, which is then processed
again. Where one of two bars contains the other, nothing is merged.

Merging is thus the exception of what its name says: a series of three or more bars
either has two neighbours of which one contains the other, or a bar that is in two
processed bars (`inclusionHandled_iff`).

Opening and closing prices are passed along and never read, so a bar is its low and its
high. A processed bar carries the raw bars that were merged into it; nothing reads them.
-/

set_option autoImplicit false

namespace TradeOS.Chan

open Adjacent

/-! ## Inclusion handling -/

/-- A bar of the price series. -/
structure Bar where
  low : ℚ
  high : ℚ
  deriving DecidableEq

/-- A processed bar: its prices, its index in the series, and the raw bars in it. -/
structure Processed extends Bar where
  index : ℕ
  members : List ℕ
  deriving DecidableEq

/-- The two bars merged, if the second goes on from the first. -/
def initialMerge (first second : Bar) : Option Bar :=
  if first.high < second.high ∧ first.low ≤ second.low then
    some ⟨max first.low second.low, max first.high second.high⟩
  else if second.high ≤ first.high ∧ second.low < first.low then
    some ⟨min first.low second.low, min first.high second.high⟩
  else none

/-- The inner loop over the bars after the first two: the merged bar and the number of bars
that were taken. -/
def absorb (merged : Bar) : List Bar → Bar × ℕ
  | [] => (merged, 0)
  | third :: rest =>
      if merged.high < third.high ∧ merged.low ≤ third.low then
        let (final, taken) := absorb ⟨merged.low, third.high⟩ rest
        (final, taken + 1)
      else if third.high ≤ merged.high ∧ third.low < merged.low then
        let (final, taken) := absorb ⟨third.low, merged.high⟩ rest
        (final, taken + 1)
      else (merged, 0)

/-- A bar that is left as it is. -/
def single (index : ℕ) (bar : Bar) : Processed := ⟨bar, index, [index]⟩

/-- The bar that a merge at an index leaves: it has the first two bars and those that the
inner loop took, and the index of the last but one of them. -/
def mergedBar (index : ℕ) (merged : Bar) (later : List Bar) : Processed :=
  ⟨(absorb merged later).1, index + (absorb merged later).2,
    List.range' index ((absorb merged later).2 + 2)⟩

/-- The outer loop, at an index of the series, with the bars from there on. The first `skip`
of them were taken by an inner loop. -/
def process (skip index : ℕ) : List Bar → List Processed
  | [] => []
  | bar :: rest =>
      match skip with
      | skip + 1 => process skip (index + 1) rest
      | 0 =>
          match rest with
          | second :: third :: later =>
              match initialMerge bar second with
              | some merged =>
                  mergedBar index merged (third :: later) ::
                    process (absorb merged (third :: later)).2 (index + 1) rest
              | none => single index bar :: process 0 (index + 1) rest
          | _ => single index bar :: process 0 (index + 1) rest

/-- `_handle_inclusion`. -/
def handleInclusion (bars : List Bar) : List Processed := process 0 0 bars

/-! ## Fractals -/

/-- The type of a fractal. -/
inductive FractalType where
  | top
  | bottom
  deriving DecidableEq

/-- A fractal. -/
structure Fractal where
  fractalType : FractalType
  index : ℕ
  startIndex : ℕ
  endIndex : ℕ
  price : ℚ
  deriving DecidableEq

/-- The fractal of three bars, if the middle one is the highest or the lowest. -/
def fractalAt (previous current next : Processed) : Option Fractal :=
  if previous.high < current.high ∧ next.high < current.high then
    some ⟨.top, current.index, previous.index, next.index, current.high⟩
  else if current.low < previous.low ∧ current.low < next.low then
    some ⟨.bottom, current.index, previous.index, next.index, current.low⟩
  else none

/-- The fractals of a list of bars. -/
def fractalsOf : List Processed → List Fractal
  | previous :: current :: next :: rest =>
      (fractalAt previous current next).toList ++ fractalsOf (current :: next :: rest)
  | _ => []

/-- The bars of the series as they are, from an index on. -/
def singles (index : ℕ) : List Bar → List Processed
  | [] => []
  | bar :: rest => single index bar :: singles (index + 1) rest

/-- `detect_fractals_basic`. -/
def detectFractalsBasic (bars : List Bar) (minBars : ℕ) : List Fractal :=
  if bars.length < minBars then [] else fractalsOf (singles 0 bars)

/-- `detect_fractals`. -/
def detectFractals (bars : List Bar) (withInclusion : Bool) (minBars : ℕ) : List Fractal :=
  if withInclusion ∧ minBars ≤ (handleInclusion bars).length then
    fractalsOf (handleInclusion bars)
  else detectFractalsBasic bars minBars

/-! ## The job of inclusion handling -/

/-- One of two bars contains the other. -/
def Contains (first second : Bar) : Prop :=
  (first.low ≤ second.low ∧ second.high ≤ first.high) ∨
    (second.low ≤ first.low ∧ first.high ≤ second.high)

instance (first second : Bar) : Decidable (Contains first second) :=
  inferInstanceAs (Decidable (_ ∨ _))

/-- No two neighbours of a series contain one another. -/
def ContainmentFree (bars : List Bar) : Prop :=
  ∀ first second, [first, second] <:+: bars → ¬ Contains first second

/-- What inclusion handling is for: the processed bars are free of containment, every raw bar
is in exactly one of them, and a series that is free of containment is returned as it is. -/
structure InclusionHandled (bars : List Bar) (processed : List Processed) : Prop where
  free : ContainmentFree (processed.map Processed.toBar)
  once : ∀ i, i < bars.length → (processed.countP fun bar => i ∈ bar.members) = 1
  unchanged : ContainmentFree bars → processed = singles 0 bars

/-- Two neighbours that are not merged contain one another. -/
theorem contains_of_initialMerge_eq_none {first second : Bar}
    (unmerged : initialMerge first second = none) : Contains first second := by
  unfold initialMerge at unmerged
  split at unmerged
  · cases unmerged
  · split at unmerged
    · cases unmerged
    · rename_i up down
      rcases le_or_gt second.high first.high with lower | higher
      · left
        exact ⟨not_lt.mp fun below => down ⟨lower, below⟩, lower⟩
      · right
        exact ⟨(not_le.mp fun above => up ⟨higher, above⟩).le, higher.le⟩

theorem absorb_le (merged : Bar) (later : List Bar) : (absorb merged later).2 ≤ later.length := by
  induction later generalizing merged with
  | nil => exact le_refl 0
  | cons third rest ih =>
      rw [absorb]
      split
      · exact Nat.succ_le_succ (ih _)
      · split
        · exact Nat.succ_le_succ (ih _)
        · exact Nat.zero_le _

section Equations

variable (skip index : ℕ) {bar second third merged : Bar} {later : List Bar}

theorem process_skip (bar : Bar) (rest : List Bar) :
    process (skip + 1) index (bar :: rest) = process skip (index + 1) rest := by
  simp only [process]

theorem process_merge (goesOn : initialMerge bar second = some merged) :
    process 0 index (bar :: second :: third :: later) =
      mergedBar index merged (third :: later) ::
        process (absorb merged (third :: later)).2 (index + 1) (second :: third :: later) := by
  rw [process.eq_def]
  simp only [goesOn]

theorem process_single (contained : initialMerge bar second = none) :
    process 0 index (bar :: second :: third :: later) =
      single index bar :: process 0 (index + 1) (second :: third :: later) := by
  rw [process.eq_def]
  simp only [contained]

theorem process_one (bar : Bar) : process 0 index [bar] = [single index bar] := by
  simp only [process]

theorem process_two (bar second : Bar) :
    process 0 index [bar, second] = [single index bar, single (index + 1) second] := by
  simp only [process]

end Equations

/-- The cursor is in the members of the next processed bar. -/
theorem process_head (skip index : ℕ) (bars : List Bar) (more : skip < bars.length) :
    ∃ bar tail, process skip index bars = bar :: tail ∧ index + skip ∈ bar.members := by
  induction bars generalizing skip index with
  | nil => cases more
  | cons bar rest ih =>
      cases skip with
      | succ skip =>
          obtain ⟨next, tail, processed, member⟩ := ih skip (index + 1) (Nat.lt_of_succ_lt_succ more)
          rw [process_skip, processed]
          exact ⟨next, tail, rfl, by rwa [Nat.add_right_comm] at member⟩
      | zero =>
          match rest with
          | [] => exact ⟨single index bar, _, process_one index bar, List.mem_cons_self⟩
          | [second] => exact ⟨single index bar, _, process_two index bar second, List.mem_cons_self⟩
          | second :: third :: later =>
              cases found : initialMerge bar second with
              | none => exact ⟨single index bar, _, process_single index found, List.mem_cons_self⟩
              | some merged =>
                  exact ⟨mergedBar index merged (third :: later), _, process_merge index found,
                    List.mem_range'_1.mpr ⟨Nat.le_refl _, by omega⟩⟩

/-- A merge leaves a bar that is processed twice: the last one that was taken, to which the
cursor goes next. -/
theorem process_repeats (index : ℕ) {bar second merged : Bar} (third : Bar) (later : List Bar)
    (goesOn : initialMerge bar second = some merged) :
    ∃ i, i < index + (bar :: second :: third :: later).length ∧
      2 ≤ (process 0 index (bar :: second :: third :: later)).countP fun processed =>
        i ∈ processed.members := by
  set taken := (absorb merged (third :: later)).2 with counted
  have bounded : taken ≤ (third :: later).length := absorb_le merged (third :: later)
  obtain ⟨next, tail, processed, member⟩ :=
    process_head taken (index + 1) (second :: third :: later) (Nat.lt_succ_of_le bounded)
  refine ⟨index + 1 + taken, ?_, ?_⟩
  · simp only [List.length_cons] at bounded ⊢
    omega
  · have own : index + 1 + taken ∈ (mergedBar index merged (third :: later)).members :=
      List.mem_range'_1.mpr ⟨by omega, by omega⟩
    rw [process_merge index goesOn, processed, List.countP_cons, List.countP_cons,
      if_pos (decide_eq_true own), if_pos (decide_eq_true member)]
    omega

/-- Two containing bars at the start of what is processed are not free of containment. -/
theorem not_free_of_head {first second : Bar} (tail : List Processed)
    (contained : Contains first second) :
    ¬ ContainmentFree ((single 0 first :: single 1 second :: tail).map Processed.toBar) :=
  fun free => free first second ⟨[], tail.map Processed.toBar, rfl⟩ contained

/-- Three or more bars are never handled. -/
theorem not_inclusionHandled (first second third : Bar) (later : List Bar) :
    ¬ InclusionHandled (first :: second :: third :: later)
      (handleInclusion (first :: second :: third :: later)) := by
  intro handled
  have repeated : ∀ i, i < (first :: second :: third :: later).length →
      ¬ 2 ≤ (handleInclusion (first :: second :: third :: later)).countP
        fun processed => i ∈ processed.members := by
    intro i within twice
    rw [handled.once i within] at twice
    omega
  cases unmerged : initialMerge first second with
  | some merged =>
      obtain ⟨i, within, twice⟩ := process_repeats 0 third later unmerged
      exact repeated i (by omega) twice
  | none =>
      have contained := contains_of_initialMerge_eq_none unmerged
      have start : handleInclusion (first :: second :: third :: later) =
          single 0 first :: process 0 1 (second :: third :: later) := process_single 0 unmerged
      -- The first two bars contain one another, so the second must be gone: it is merged.
      cases later with
      | nil =>
          refine not_free_of_head [single 2 third] contained ?_
          have free := handled.free
          rwa [start, process_two] at free
      | cons fourth later =>
          cases next : initialMerge second third with
          | none =>
              refine not_free_of_head (process 0 2 (third :: fourth :: later)) contained ?_
              have free := handled.free
              rwa [start, process_single 1 next] at free
          | some merged =>
              obtain ⟨i, within, twice⟩ :=
                process_repeats 1 fourth later next
              refine repeated i (by simp only [List.length_cons] at within ⊢; omega) ?_
              rw [start, List.countP_cons]
              exact twice.trans (Nat.le_add_right _ _)

/-- At most one bar is handled. -/
theorem inclusionHandled_of_length {bars : List Bar} (short : bars.length ≤ 1) :
    InclusionHandled bars (handleInclusion bars) := by
  have alone : ∀ processed : List Processed, processed.length ≤ 1 →
      ContainmentFree (processed.map Processed.toBar) := by
    intro processed few first second adjacent
    have two := adjacent.length_le
    simp only [List.length_map, List.length_cons, List.length_nil] at two
    omega
  match bars with
  | [] =>
      refine ⟨alone [] (Nat.zero_le 1), ?_, fun _ => rfl⟩
      intro i within
      cases within
  | [bar] =>
      rw [handleInclusion, process_one]
      refine ⟨alone [single 0 bar] (le_refl 1), ?_, fun _ => rfl⟩
      intro i within
      obtain rfl : i = 0 := by simpa using within
      rfl

/-- Two bars are left as they are. -/
theorem inclusionHandled_two_iff (bar other : Bar) :
    InclusionHandled [bar, other] (handleInclusion [bar, other]) ↔ ¬ Contains bar other := by
  rw [handleInclusion, process_two]
  constructor
  · intro handled
    exact handled.free bar other ⟨[], [], rfl⟩
  · intro apart
    refine ⟨?_, ?_, fun _ => rfl⟩
    · intro first second adjacent
      obtain ⟨rfl, rfl⟩ : first = bar ∧ second = other := by
        simpa [single] using adjacent.sublist.eq_of_length rfl
      exact apart
    · intro i within
      obtain rfl | rfl : i = 0 ∨ i = 1 := by
        simp only [List.length_cons, List.length_nil] at within
        omega
      · rfl
      · rfl

/-- **Inclusion handling does its job on at most one bar, or on two bars of which neither
contains the other, and on no other series.** -/
theorem inclusionHandled_iff (bars : List Bar) :
    InclusionHandled bars (handleInclusion bars) ↔
      bars.length ≤ 1 ∨ ∃ first second, bars = [first, second] ∧ ¬ Contains first second := by
  match bars with
  | [] => exact iff_of_true (inclusionHandled_of_length (Nat.zero_le 1)) (.inl (Nat.zero_le 1))
  | [bar] => exact iff_of_true (inclusionHandled_of_length (le_refl 1)) (.inl (le_refl 1))
  | [bar, other] =>
      rw [inclusionHandled_two_iff]
      constructor
      · intro apart
        exact .inr ⟨bar, other, rfl, apart⟩
      · rintro (short | ⟨first, second, same, apart⟩)
        · simp at short
        · cases same
          exact apart
  | first :: second :: third :: later =>
      refine iff_of_false (not_inclusionHandled first second third later) ?_
      rintro (short | ⟨_, _, same, _⟩)
      · simp at short
      · simp at same

/-- Three rising bars: the second one and the third are merged into the first processed bar,
and the third is processed again. -/
theorem rising_bars_repeated :
    (handleInclusion [⟨1, 2⟩, ⟨2, 3⟩, ⟨3, 4⟩]).map Processed.members = [[0, 1, 2], [2]] ∧
      ContainmentFree [⟨1, 2⟩, ⟨2, 3⟩, ⟨3, 4⟩] ∧
      ¬ InclusionHandled [⟨1, 2⟩, ⟨2, 3⟩, ⟨3, 4⟩]
        (handleInclusion [⟨1, 2⟩, ⟨2, 3⟩, ⟨3, 4⟩]) := by
  refine ⟨by with_unfolding_all decide, ?_, not_inclusionHandled _ _ _ _⟩
  intro first second adjacent
  have member := mem_pairs_iff.mpr adjacent
  simp only [pairs, List.tail_cons, List.zip_cons_cons, List.zip_nil_right, List.mem_cons,
    Prod.mk.injEq, List.not_mem_nil, or_false] at member
  rcases member with ⟨rfl, rfl⟩ | ⟨rfl, rfl⟩
  · with_unfolding_all decide
  · with_unfolding_all decide

end TradeOS.Chan
