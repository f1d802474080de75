import TradeOS.Chan.Fractals

/-!
# Strokes

`build_strokes` goes through the pairs of neighbouring fractals. A pair of one type is left
out, and so is a pair with too few bars in between; every other pair is a stroke from its
first fractal to its second.

`validate_stroke` asks for a positive height and for the direction opposite to that of the
stroke before. Nothing calls it, and nothing in the construction sees to it: the direction
says which fractal is the top and not which price is the higher one, and a pair that is left
out changes the type of the fractal at which the next stroke starts. The strokes pass
exactly if the bottom of every stroke lies below its top and, from one stroke to the next,
an even number of changes of type is left out (`strokesValid_iff`).
-/

set_option autoImplicit false

namespace TradeOS.Chan

open Adjacent

/-! ## The construction -/

/-- The direction of a stroke. -/
inductive StrokeDirection where
  | up
  | down
  deriving DecidableEq

/-- A stroke. -/
structure Stroke where
  direction : StrokeDirection
  startIdx : ℕ
  endIdx : ℕ
  startPrice : ℚ
  endPrice : ℚ
  height : ℚ
  barCount : ℤ
  deriving DecidableEq

/-- The number of bars between two fractals. -/
def middleBars (first second : Fractal) : ℤ :=
  let middleStart : ℤ := first.endIndex + 1
  let middleEnd : ℤ := second.startIndex - 1
  max 0 (middleEnd - middleStart + 1)

/-- The two fractals of a pair are of different type. -/
def changes (pair : Fractal × Fractal) : Bool := pair.1.fractalType != pair.2.fractalType

/-- A pair that is a stroke: its fractals are of different type and far enough apart. -/
def accepted (minBars : ℤ) (pair : Fractal × Fractal) : Bool :=
  changes pair && decide (minBars ≤ middleBars pair.1 pair.2)

/-- The direction from a fractal on: up from a bottom. -/
def directionFrom : FractalType → StrokeDirection
  | .bottom => .up
  | .top => .down

/-- The stroke of a pair. -/
def strokeOf (pair : Fractal × Fractal) : Stroke where
  direction := directionFrom pair.1.fractalType
  startIdx := pair.1.index
  endIdx := pair.2.index
  startPrice := pair.1.price
  endPrice := pair.2.price
  height := |pair.2.price - pair.1.price|
  barCount := pair.2.endIndex - pair.1.startIndex + 1

/-- One turn of the loop. -/
def strokeAt (minBars : ℤ) (pair : Fractal × Fractal) : Option Stroke :=
  if accepted minBars pair then some (strokeOf pair) else none

/-- `build_strokes`. The loop goes on by one fractal in each of its branches, and fewer than
two fractals have no pair. -/
def buildStrokes (fractals : List Fractal) (minBars : ℤ) : List Stroke :=
  (pairs fractals).filterMap (strokeAt minBars)

/-- `validate_stroke`. -/
def validateStroke (stroke : Stroke) (prevStroke : Option Stroke) : Bool :=
  if stroke.height ≤ 0 then false
  else
    match prevStroke with
    | some previous => decide (stroke.direction ≠ previous.direction)
    | none => true

/-! ## Valid strokes -/

/-- Every stroke passes the test against the stroke before it. -/
def validated (prevStroke : Option Stroke) : List Stroke → Bool
  | [] => true
  | stroke :: rest => validateStroke stroke prevStroke && validated (some stroke) rest

/-- A stroke ends where its direction says: above its start, or below. -/
def Stroke.Directed (stroke : Stroke) : Prop :=
  match stroke.direction with
  | .up => stroke.startPrice < stroke.endPrice
  | .down => stroke.endPrice < stroke.startPrice

/-- A valid list of strokes. -/
structure StrokesValid (strokes : List Stroke) : Prop where
  validated : validated none strokes = true
  directed : ∀ stroke ∈ strokes, stroke.Directed

/-- The bottom of a pair lies below its top. -/
def BottomBelowTop (pair : Fractal × Fractal) : Prop :=
  match pair.1.fractalType with
  | .bottom => pair.1.price < pair.2.price
  | .top => pair.2.price < pair.1.price

/-- From one accepted pair to the next, an even number of changes of type is left out. -/
def EvenlySkipped (minBars : ℤ) (fractals : List Fractal) : Prop :=
  ∀ before first gap second after, pairs fractals = before ++ first :: (gap ++ second :: after) →
    accepted minBars first → accepted minBars second → (∀ pair ∈ gap, ¬ accepted minBars pair) →
    Even (gap.countP changes)

theorem validateStroke_iff {stroke : Stroke} {prevStroke : Option Stroke} :
    validateStroke stroke prevStroke ↔
      0 < stroke.height ∧ ∀ previous ∈ prevStroke, previous.direction ≠ stroke.direction := by
  unfold validateStroke
  split
  · rename_i flat
    simp [not_lt.mpr flat]
  · rename_i high
    cases prevStroke with
    | none => simp [not_le.mp high]
    | some previous => simp [not_le.mp high, ne_comm]

/-- The tests in sequence: all heights are positive and the directions alternate. -/
theorem validated_iff (prevStroke : Option Stroke) (strokes : List Stroke) :
    validated prevStroke strokes ↔
      (∀ stroke ∈ strokes, 0 < stroke.height) ∧
        (prevStroke.toList ++ strokes).IsChain fun first second =>
          first.direction ≠ second.direction := by
  induction strokes generalizing prevStroke with
  | nil => cases prevStroke <;> simp [validated]
  | cons stroke rest ih =>
      rw [validated, Bool.and_eq_true, ih, validateStroke_iff, List.forall_mem_cons]
      cases prevStroke with
      | none => simp [and_assoc]
      | some previous =>
          simp only [Option.toList_some, List.singleton_append, List.isChain_cons_cons,
            Option.mem_some_iff, forall_eq']
          tauto

theorem strokeAt_eq_some_iff {minBars : ℤ} {pair : Fractal × Fractal} {stroke : Stroke} :
    strokeAt minBars pair = some stroke ↔ accepted minBars pair ∧ strokeOf pair = stroke := by
  simp [strokeAt]

theorem strokeAt_eq_none_iff {minBars : ℤ} {pair : Fractal × Fractal} :
    strokeAt minBars pair = none ↔ ¬ accepted minBars pair := by
  simp [strokeAt]

theorem mem_buildStrokes_iff {fractals : List Fractal} {minBars : ℤ} {stroke : Stroke} :
    stroke ∈ buildStrokes fractals minBars ↔
      ∃ pair ∈ pairs fractals, accepted minBars pair ∧ strokeOf pair = stroke := by
  simp only [buildStrokes, List.mem_filterMap, strokeAt_eq_some_iff]

theorem directed_strokeOf (pair : Fractal × Fractal) :
    (strokeOf pair).Directed ↔ BottomBelowTop pair := by
  unfold Stroke.Directed BottomBelowTop strokeOf
  cases pair.1.fractalType <;> rfl

theorem height_pos_of_directed {pair : Fractal × Fractal} (directed : (strokeOf pair).Directed) :
    0 < (strokeOf pair).height := by
  refine abs_pos.mpr (sub_ne_zero.mpr ?_)
  rw [directed_strokeOf] at directed
  unfold BottomBelowTop at directed
  cases start : pair.1.fractalType with
  | bottom => exact (by rwa [start] at directed : pair.1.price < pair.2.price).ne'
  | top => exact (by rwa [start] at directed : pair.2.price < pair.1.price).ne

/-- Two strokes are of opposite direction if the second starts at the type of fractal at
which the first ends. -/
theorem direction_ne_iff {first second : Fractal × Fractal} (change : changes first) :
    (strokeOf first).direction ≠ (strokeOf second).direction ↔
      first.2.fractalType = second.1.fractalType := by
  simp only [changes, bne_iff_ne, ne_eq] at change
  simp only [strokeOf]
  cases start : first.1.fractalType <;> cases finish : first.2.fractalType <;>
    cases next : second.1.fractalType <;> simp_all [directionFrom]

theorem even_changes_iff_type {first second : Fractal × Fractal} {gap : List (Fractal × Fractal)}
    (linked : (first :: (gap ++ [second])).IsChain fun p q => p.2 = q.1) :
    Even (gap.countP changes) ↔ first.2.fractalType = second.1.fractalType := by
  have parity := even_changes_iff (fun fractal => fractal.fractalType == .top) first second gap
    linked
  have same : ∀ a b : FractalType, (a == .top) = (b == .top) ↔ a = b := by
    intro a b
    cases a <;> cases b <;> decide
  have counted : changes = fun p : Fractal × Fractal =>
      (p.1.fractalType == .top) != (p.2.fractalType == .top) := by
    funext pair
    unfold changes
    cases pair.1.fractalType <;> cases pair.2.fractalType <;> rfl
  rw [counted, parity, same]

/-- The directions alternate if changes of type are left out by twos. -/
theorem isChain_direction_iff (fractals : List Fractal) (minBars : ℤ) :
    ((buildStrokes fractals minBars).IsChain fun first second =>
      first.direction ≠ second.direction) ↔ EvenlySkipped minBars fractals := by
  rw [buildStrokes, isChain_filterMap_iff]
  -- Both sides speak of the same places in the list of pairs.
  refine forall_congr' fun before => forall_congr' fun first => forall_congr' fun gap =>
    forall_congr' fun second => forall_congr' fun after => forall_congr' fun split => ?_
  have linked : (first :: (gap ++ [second])).IsChain fun p q => p.2 = q.1 := by
    have chain := isChain_pairs fractals
    rw [split, List.append_cons gap second after] at chain
    exact chain.right_of_append.left_of_append
  constructor
  · intro alternate start finish dropped
    have change : changes first := (Bool.and_eq_true_iff.mp start).1
    rw [even_changes_iff_type linked, ← direction_ne_iff change]
    refine alternate ?_ _ _ (strokeAt_eq_some_iff.mpr ⟨start, rfl⟩)
      (strokeAt_eq_some_iff.mpr ⟨finish, rfl⟩)
    exact fun pair member => strokeAt_eq_none_iff.mpr (dropped pair member)
  · intro even dropped stroke next taken taken'
    obtain ⟨start, rfl⟩ := strokeAt_eq_some_iff.mp taken
    obtain ⟨finish, rfl⟩ := strokeAt_eq_some_iff.mp taken'
    have change : changes first := (Bool.and_eq_true_iff.mp start).1
    rw [direction_ne_iff change, ← even_changes_iff_type linked]
    exact even start finish fun pair member => strokeAt_eq_none_iff.mp (dropped pair member)

theorem strokesValid_buildStrokes_iff (fractals : List Fractal) (minBars : ℤ) :
    StrokesValid (buildStrokes fractals minBars) ↔
      (∀ pair ∈ pairs fractals, accepted minBars pair → BottomBelowTop pair) ∧
        EvenlySkipped minBars fractals := by
  have below : (∀ stroke ∈ buildStrokes fractals minBars, stroke.Directed) ↔
      ∀ pair ∈ pairs fractals, accepted minBars pair → BottomBelowTop pair := by
    constructor
    · intro directed pair member taken
      exact (directed_strokeOf pair).mp
        (directed _ (mem_buildStrokes_iff.mpr ⟨pair, member, taken, rfl⟩))
    · intro ordered stroke member
      obtain ⟨pair, listed, taken, rfl⟩ := mem_buildStrokes_iff.mp member
      exact (directed_strokeOf pair).mpr (ordered pair listed taken)
  rw [← below, ← isChain_direction_iff]
  constructor
  · rintro ⟨passed, directed⟩
    exact ⟨directed, ((validated_iff none _).mp passed).2⟩
  · rintro ⟨directed, alternate⟩
    refine ⟨(validated_iff none _).mpr ⟨?_, alternate⟩, directed⟩
    intro stroke member
    obtain ⟨pair, -, -, rfl⟩ := mem_buildStrokes_iff.mp member
    exact height_pos_of_directed (directed _ member)

/-- **The strokes of a price series are valid if and only if, over its fractals, every pair
that is far enough apart has its bottom below its top, and from one such pair to the next an
even number of changes of type is left out.** -/
theorem strokesValid_iff (bars : List Bar) (withInclusion : Bool) (fractalBars : ℕ)
    (minBars : ℤ) :
    StrokesValid (buildStrokes (detectFractals bars withInclusion fractalBars) minBars) ↔
      (∀ pair ∈ pairs (detectFractals bars withInclusion fractalBars),
        accepted minBars pair → BottomBelowTop pair) ∧
        EvenlySkipped minBars (detectFractals bars withInclusion fractalBars) :=
  strokesValid_buildStrokes_iff _ minBars

/-- A top at 13, and far above it a bottom at 26. -/
def highBottom : List Bar :=
  [⟨4, 12⟩, ⟨2, 13⟩, ⟨8, 10⟩, ⟨8, 10⟩, ⟨28, 36⟩, ⟨29, 37⟩, ⟨28, 37⟩, ⟨28, 37⟩, ⟨27, 37⟩,
    ⟨26, 39⟩, ⟨28, 39⟩]

/-- Two strokes down, with one pair that is too short in between. -/
def twiceDown : List Bar :=
  [⟨3, 15⟩, ⟨1, 17⟩, ⟨3, 16⟩, ⟨3, 14⟩, ⟨5, 12⟩, ⟨4, 14⟩, ⟨4, 14⟩, ⟨4, 14⟩, ⟨4, 14⟩, ⟨2, 16⟩,
    ⟨9, 16⟩, ⟨16, 21⟩, ⟨12, 18⟩, ⟨12, 19⟩, ⟨10, 21⟩, ⟨9, 21⟩, ⟨11, 21⟩, ⟨9, 22⟩, ⟨7, 23⟩,
    ⟨5, 24⟩, ⟨6, 24⟩]

/-- A stroke down that ends above its start, and two strokes down in succession. -/
theorem strokes_not_valid :
    buildStrokes (detectFractals highBottom true 3) 5 = [⟨.down, 1, 9, 13, 26, 13, 11⟩] ∧
      ¬ StrokesValid (buildStrokes (detectFractals highBottom true 3) 5) ∧
      (buildStrokes (detectFractals twiceDown true 3) 5).map Stroke.direction = [.down, .down] ∧
      ¬ StrokesValid (buildStrokes (detectFractals twiceDown true 3) 5) := by
  have rises : buildStrokes (detectFractals highBottom true 3) 5 =
      [⟨.down, 1, 9, 13, 26, 13, 11⟩] := by
    with_unfolding_all decide
  refine ⟨rises, ?_, by with_unfolding_all decide, ?_⟩
  · intro valid
    rw [rises] at valid
    have falls : (26 : ℚ) < 13 := valid.directed _ List.mem_cons_self
    norm_num at falls
  · intro valid
    have failed : validated none (buildStrokes (detectFractals twiceDown true 3) 5) = false := by
      with_unfolding_all decide
    rw [valid.validated] at failed
    cases failed

end TradeOS.Chan
