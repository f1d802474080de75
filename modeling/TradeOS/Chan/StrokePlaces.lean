import TradeOS.Chan.Strokes
import TradeOS.Chan.Turns

/-!
# Where strokes lie

The number of bars between two fractals is counted from the last bar of the first fractal to
the first bar of the second one, while a stroke goes from middle bar to middle bar. A fractal
lies strictly between its neighbours, so a stroke is longer than the number that was asked
for, also if the fractals overlap and nothing is left between them.
-/

set_option autoImplicit false

namespace TradeOS.Chan

open Adjacent

/-- Strokes that go from one bar to a later one, one behind the other, below a bound. -/
structure StrokesPlaced (bound : ℕ) (strokes : List Stroke) : Prop where
  ascending : ∀ stroke ∈ strokes, stroke.startIdx < stroke.endIdx
  ordered : strokes.Pairwise fun first second => first.endIdx ≤ second.startIdx
  within : ∀ stroke ∈ strokes, stroke.endIdx < bound

/-- Fractals that lie in order, below a bound. -/
structure FractalsPlaced (bound : ℕ) (fractals : List Fractal) : Prop where
  placed : ∀ fractal ∈ fractals, fractal.Placed bound
  increasing : fractals.Pairwise fun first second => first.index < second.index

theorem fractalsPlaced_detectFractals (bars : List Bar) (withInclusion : Bool) (minBars : ℕ) :
    FractalsPlaced bars.length (detectFractals bars withInclusion minBars) :=
  ⟨(fractals_placed bars withInclusion minBars).1, (fractals_placed bars withInclusion minBars).2⟩

section Placed

variable {bound : ℕ} {fractals : List Fractal}

/-- A pair of neighbours ascends. -/
theorem FractalsPlaced.lt_of_mem_pairs (placed : FractalsPlaced bound fractals)
    {pair : Fractal × Fractal} (listed : pair ∈ pairs fractals) :
    pair.1.index < pair.2.index := by
  have two := placed.increasing.sublist (mem_pairs_iff.mp listed).sublist
  exact (List.pairwise_cons.mp two).1 pair.2 List.mem_cons_self

/-- An accepted pair is farther apart than the number of bars that is asked for. -/
theorem FractalsPlaced.far (placed : FractalsPlaced bound fractals) {pair : Fractal × Fractal}
    (listed : pair ∈ pairs fractals) {minBars : ℤ} (taken : accepted minBars pair) :
    minBars < (pair.2.index : ℤ) - pair.1.index := by
  have infixed := mem_pairs_iff.mp listed
  have after := (placed.placed pair.1 (infixed.subset (by simp))).after
  have before := (placed.placed pair.2 (infixed.subset (by simp))).before
  have ascends := placed.lt_of_mem_pairs listed
  have enough : minBars ≤ middleBars pair.1 pair.2 :=
    of_decide_eq_true (Bool.and_eq_true_iff.mp taken).2
  simp only [middleBars] at enough
  omega

theorem strokesPlaced_buildStrokes (placed : FractalsPlaced bound fractals) (minBars : ℤ) :
    StrokesPlaced bound (buildStrokes fractals minBars) := by
  refine ⟨?_, ?_, ?_⟩
  · intro stroke member
    obtain ⟨pair, listed, -, rfl⟩ := mem_buildStrokes_iff.mp member
    exact placed.lt_of_mem_pairs listed
  · rw [buildStrokes, List.pairwise_filterMap]
    refine (pairwise_pairs placed.increasing).imp ?_
    intro first second apart stroke taken next taken'
    obtain ⟨-, rfl⟩ := strokeAt_eq_some_iff.mp taken
    obtain ⟨-, rfl⟩ := strokeAt_eq_some_iff.mp taken'
    rcases apart with same | behind
    · exact (congrArg Fractal.index same).le
    · exact behind.le
  · intro stroke member
    obtain ⟨pair, listed, -, rfl⟩ := mem_buildStrokes_iff.mp member
    have second := placed.placed pair.2 ((mem_pairs_iff.mp listed).subset (by simp))
    exact second.after.trans second.within

end Placed

/-- **The strokes of a price series are well formed.** Each one joins two neighbouring
fractals of different type, ascends, and is longer than the number of bars that is asked for;
and each one ends at the start of the next one or before it. -/
theorem strokes_wellFormed (bars : List Bar) (withInclusion : Bool) (fractalBars : ℕ)
    (minBars : ℤ) :
    let fractals := detectFractals bars withInclusion fractalBars
    (∀ stroke ∈ buildStrokes fractals minBars,
      stroke.startIdx < stroke.endIdx ∧ minBars < (stroke.endIdx : ℤ) - stroke.startIdx ∧
        ∃ first second, [first, second] <:+: fractals ∧
          first.fractalType ≠ second.fractalType ∧ stroke = strokeOf (first, second)) ∧
      (buildStrokes fractals minBars).Pairwise fun first second =>
        first.endIdx ≤ second.startIdx := by
  intro fractals
  have placed := fractalsPlaced_detectFractals bars withInclusion fractalBars
  have strokes := strokesPlaced_buildStrokes placed minBars
  refine ⟨?_, strokes.ordered⟩
  intro stroke member
  refine ⟨strokes.ascending stroke member, ?_⟩
  obtain ⟨⟨first, second⟩, listed, taken, rfl⟩ := mem_buildStrokes_iff.mp member
  refine ⟨placed.far listed taken, first, second, mem_pairs_iff.mp listed, ?_, rfl⟩
  have change := (Bool.and_eq_true_iff.mp taken).1
  simpa [changes] using change

end TradeOS.Chan
