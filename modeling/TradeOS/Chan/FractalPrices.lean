import TradeOS.Chan.Turns
import TradeOS.Data.Adjacent
import Mathlib.Order.Bounds.Basic

/-!
# The price of a fractal and the bar it names

A stroke takes its price and its index from a fractal, so both should speak of one bar. On
the path without inclusion handling they do. A merged bar has the largest upper end and the
smallest lower end of the raw bars that were merged (`Turn.Merged`), but it is recorded at
the last but one of them. A fractal on it speaks of one bar only if that raw bar has the
extreme.

A merge of two bars alone is never a fractal: what is left of it is its second bar, with which
the next turn begins and which that turn leaves as it is (`same_of_two`).
-/

set_option autoImplicit false

namespace TradeOS.Chan

open GreedyScan Adjacent

/-! ## What a merge leaves -/

/-- A bar has the extreme prices of a list of bars. -/
structure Extremes (bars : List Bar) (bar : Bar) : Prop where
  greatest : IsGreatest {price | ∃ raw ∈ bars, raw.high = price} bar.high
  least : IsLeast {price | ∃ raw ∈ bars, raw.low = price} bar.low

section Greatest

variable {α β : Type} [LinearOrder β] {key : α → β} {xs : List α} {best : β}

/-- One of the values is the largest if no other is larger. -/
theorem eq_iff_of_isGreatest (greatest : IsGreatest {k | ∃ x ∈ xs, key x = k} best) {x : α}
    (member : x ∈ xs) : best = key x ↔ ∀ y ∈ xs, key y ≤ key x := by
  constructor
  · rintro rfl y listed
    exact greatest.2 ⟨y, listed, rfl⟩
  · intro highest
    obtain ⟨y, listed, rfl⟩ := greatest.1
    exact le_antisymm (highest y listed) (greatest.2 ⟨x, member, rfl⟩)

theorem eq_iff_of_isLeast (least : IsLeast {k | ∃ x ∈ xs, key x = k} best) {x : α}
    (member : x ∈ xs) : best = key x ↔ ∀ y ∈ xs, key x ≤ key y :=
  eq_iff_of_isGreatest (β := βᵒᵈ) least member

/-- An element with the larger value of two may stand for both of them. -/
theorem isGreatest_join {joined first second : α}
    (larger : key joined = max (key first) (key second))
    (greatest : IsGreatest {k | ∃ x ∈ joined :: xs, key x = k} best) :
    IsGreatest {k | ∃ x ∈ first :: second :: xs, key x = k} best := by
  have highest := greatest.2 ⟨joined, List.mem_cons_self, rfl⟩
  rw [larger] at highest
  constructor
  · obtain ⟨x, member, same⟩ := greatest.1
    rcases List.mem_cons.mp member with rfl | member
    · rw [larger] at same
      rcases max_choice (key first) (key second) with left | right
      · exact ⟨first, by simp, left.symm.trans same⟩
      · exact ⟨second, by simp, right.symm.trans same⟩
    · exact ⟨x, by simp [member], same⟩
  · rintro k ⟨x, member, rfl⟩
    rcases List.mem_cons.mp member with rfl | member
    · exact (le_max_left _ _).trans highest
    · rcases List.mem_cons.mp member with rfl | member
      · exact (le_max_right _ _).trans highest
      · exact greatest.2 ⟨x, List.mem_cons_of_mem _ member, rfl⟩

theorem isLeast_join {joined first second : α}
    (smaller : key joined = min (key first) (key second))
    (least : IsLeast {k | ∃ x ∈ joined :: xs, key x = k} best) :
    IsLeast {k | ∃ x ∈ first :: second :: xs, key x = k} best :=
  isGreatest_join (β := βᵒᵈ) smaller least

end Greatest

theorem extremes_singleton (bar : Bar) : Extremes [bar] bar := by
  refine ⟨⟨⟨bar, List.mem_cons_self, rfl⟩, ?_⟩, ⟨⟨bar, List.mem_cons_self, rfl⟩, ?_⟩⟩
  · rintro price ⟨raw, member, rfl⟩
    rw [List.mem_singleton.mp member]
  · rintro price ⟨raw, member, rfl⟩
    rw [List.mem_singleton.mp member]

/-- Two bars may be replaced by one that spans them. -/
theorem Extremes.span {merged third final : Bar} {rest : List Bar}
    (extremes : Extremes (⟨min merged.low third.low, max merged.high third.high⟩ :: rest) final) :
    Extremes (merged :: third :: rest) final where
  greatest := isGreatest_join rfl extremes.greatest
  least := isLeast_join rfl extremes.least

/-- The inner loop leaves the extremes of the merged bar and of the bars it took. -/
theorem extremes_absorb (merged : Bar) (later : List Bar) :
    Extremes (merged :: later.take (absorb merged later).2) (absorb merged later).1 := by
  induction later generalizing merged with
  | nil => exact extremes_singleton merged
  | cons third rest ih =>
      rw [absorb]
      split
      · rename_i up
        have taken := ih ⟨merged.low, third.high⟩
        refine Extremes.span ?_
        rwa [min_eq_left up.2, max_eq_right up.1.le]
      · split
        · rename_i down
          have taken := ih ⟨third.low, merged.high⟩
          refine Extremes.span ?_
          rwa [min_eq_right down.2.le, max_eq_left down.1]
        · exact extremes_singleton merged

/-- A turn has merged the bars after the first one: its bar has their extremes, and the cursor
moves to the last of them. -/
def Turn.Merged (turn : Turn) (further : ℕ) : Prop :=
  ∃ first second rest, turn.raw = first :: second :: rest ∧ further = rest.length ∧
    Extremes (second :: rest) turn.bar

/-- A turn has left its bar as it is. -/
def Turn.Single (turn : Turn) (further : ℕ) : Prop := turn.raw = [turn.bar] ∧ further = 0

/-- A turn reads a prefix of the bars from the cursor on, and leaves the first bar as it is or
merges the bars after it. -/
theorem turnAt_cases {bars : List Bar} {turn : Turn} {further : ℕ}
    (found : turnAt bars = some (turn, further)) :
    turn.raw <+: bars ∧ (turn.Single further ∨ turn.Merged further) := by
  match bars with
  | [] => cases found
  | [bar] =>
      cases found
      exact ⟨List.prefix_refl _, .inl ⟨rfl, rfl⟩⟩
  | first :: second :: later =>
      cases goesOn : initialMerge first second with
      | none =>
          rw [turnAt_single goesOn] at found
          cases found
          exact ⟨⟨second :: later, rfl⟩, .inl ⟨rfl, rfl⟩⟩
      | some merged =>
          cases later with
          | nil =>
              cases found
              exact ⟨⟨[second], rfl⟩, .inl ⟨rfl, rfl⟩⟩
          | cons third later =>
              rw [turnAt_merge goesOn] at found
              cases found
              refine ⟨List.take_prefix _ _, .inr ?_⟩
              have taken := extremes_absorb merged (third :: later)
              rw [eq_of_initialMerge goesOn] at taken ⊢
              refine ⟨first, second, _, rfl, ?_, taken⟩
              rw [List.length_take, min_eq_left (absorb_le second (third :: later))]

/-! ## The bar that is named -/

/-- The raw bar under whose index a turn is recorded. -/
def Marks (turn : Block Turn) (bar : Bar) : Prop := turn.found.raw[turn.further]? = some bar

/-- The bar that a turn marks is as high as each of the bars it merged. -/
def TopMarked (turn : Block Turn) : Prop :=
  ∀ marked, Marks turn marked → ∀ bar ∈ turn.found.raw.tail, bar.high ≤ marked.high

/-- The bar that a turn marks is as low as each of the bars it merged. -/
def BottomMarked (turn : Block Turn) : Prop :=
  ∀ marked, Marks turn marked → ∀ bar ∈ turn.found.raw.tail, marked.low ≤ bar.low

/-- The middle one of three bars is the highest. -/
def IsTop (previous current next : Bar) : Prop :=
  previous.high < current.high ∧ next.high < current.high

/-- The middle one of three bars is the lowest. -/
def IsBottom (previous current next : Bar) : Prop :=
  current.low < previous.low ∧ current.low < next.low

instance (previous current next : Bar) : Decidable (IsTop previous current next) :=
  inferInstanceAs (Decidable (_ ∧ _))

instance (previous current next : Bar) : Decidable (IsBottom previous current next) :=
  inferInstanceAs (Decidable (_ ∧ _))

/-- Wherever a turn is a top or a bottom, the bar it marks is the highest or the lowest of
those it merged. -/
def ExtremesMarked (bars : List Bar) : Prop :=
  ∀ previous current next, [previous, current, next] <:+: turns bars →
    (IsTop previous.found.bar current.found.bar next.found.bar → TopMarked current) ∧
      (¬ IsTop previous.found.bar current.found.bar next.found.bar →
        IsBottom previous.found.bar current.found.bar next.found.bar → BottomMarked current)

/-- A fractal has the price of the raw bar at its index: the upper end for a top, the lower
end for a bottom. -/
def Fractal.AtBar (bars : List Bar) (fractal : Fractal) : Prop :=
  ∃ bar, bars[fractal.index]? = some bar ∧
    match fractal.fractalType with
    | .top => fractal.price = bar.high
    | .bottom => fractal.price = bar.low

/-- A turn marks the raw bar at its index. -/
theorem marks_iff {bars : List Bar} {turn : Block Turn} (member : turn ∈ turns bars) (bar : Bar) :
    Marks turn bar ↔ bars[turn.stop]? = some bar := by
  obtain ⟨⟨rest, raw⟩, shape⟩ := turnAt_cases ((covers_turns bars).taken turn member)
  have inside : turn.further < turn.found.raw.length := by
    rcases shape with ⟨one, alone⟩ | ⟨first, second, rest, many, last, -⟩
    · rw [one, alone]
      exact Nat.one_pos
    · rw [many, last, List.length_cons, List.length_cons]
      omega
  rw [Marks, Block.stop, ← List.getElem?_drop, ← raw, List.getElem?_append_left inside]

theorem exists_marks {bars : List Bar} {turn : Block Turn} (member : turn ∈ turns bars) :
    ∃ bar, Marks turn bar := by
  have inside := ((covers_turns bars).within turn member).2
  exact ⟨bars[turn.stop], (marks_iff member _).mpr (List.getElem?_eq_getElem inside)⟩

/-- The inner loop takes no bar only if the two bars are not merged at the next turn either:
both ask the same of them. -/
theorem initialMerge_of_absorb {merged third : Bar} {later : List Bar}
    (nothing : (absorb merged (third :: later)).2 = 0) :
    (absorb merged (third :: later)).1 = merged ∧ initialMerge merged third = none := by
  rw [absorb] at nothing ⊢
  split at nothing
  · cases nothing
  · rename_i up
    split at nothing
    · cases nothing
    · rename_i down
      rw [if_neg up, if_neg down, initialMerge, if_neg up, if_neg down]
      exact ⟨rfl, rfl⟩

theorem turnAt_tail_of_two {bars : List Bar} {turn : Turn} {further : ℕ}
    (found : turnAt bars = some (turn, further)) {first second : Bar}
    (two : turn.raw = [first, second]) :
    further = 0 ∧ turnAt bars.tail = some (⟨turn.bar, [turn.bar]⟩, 0) := by
  match bars with
  | [] => cases found
  | [bar] =>
      cases found
      cases two
  | bar :: other :: later =>
      cases goesOn : initialMerge bar other with
      | none =>
          rw [turnAt_single goesOn] at found
          cases found
          cases two
      | some merged =>
          cases later with
          | nil =>
              cases found
              cases two
          | cons third later =>
              rw [turnAt_merge goesOn] at found
              cases found
              have bounded := absorb_le merged (third :: later)
              have length := congrArg List.length two
              simp only [List.length_take, List.length_cons, List.length_nil] at length bounded
              have nothing : (absorb merged (third :: later)).2 = 0 := by omega
              obtain ⟨same, contained⟩ := initialMerge_of_absorb nothing
              refine ⟨nothing, ?_⟩
              rw [same]
              rw [eq_of_initialMerge goesOn] at contained ⊢
              exact turnAt_single contained

/-- A turn after a merge of two bars alone leaves the same bar. -/
theorem same_of_two {bars : List Bar} {current next : Block Turn}
    (adjacent : [current, next] <:+: turns bars) {first second : Bar}
    (two : current.found.raw = [first, second]) : next.found.bar = current.found.bar := by
  have covers := covers_turns bars
  have here := covers.taken current (adjacent.subset (by simp))
  have there := covers.taken next (adjacent.subset (by simp))
  have follows : next.start = current.stop + 1 :=
    rel_of_adjacent (isChain_scanFrom isSome_turnAt 0 0) adjacent
  obtain ⟨alone, tail⟩ := turnAt_tail_of_two here two
  have start : next.start = current.start + 1 := by rw [follows, Block.stop, alone, Nat.add_zero]
  rw [start, ← List.tail_drop, tail] at there
  exact congrArg (fun found => found.1.bar) (Option.some.inj there).symm

/-! ## Fractals over raw bars -/

section Marked

variable {turn : Block Turn} {marked : Bar}

/-- What holds of all marked bars is said of one of them: there is only one. -/
theorem forall_marks_iff (marks : Marks turn marked) {p : Bar → Prop} :
    (∀ other, Marks turn other → p other) ↔ p marked := by
  constructor
  · intro all
    exact all marked marks
  · intro holds other marks'
    obtain rfl : marked = other := Option.some.inj (marks.symm.trans marks')
    exact holds

/-- A bar that is left as it is marks itself. -/
theorem marks_of_single (single : turn.found.Single turn.further) (marks : Marks turn marked) :
    marked = turn.found.bar := by
  rw [Marks, single.1, single.2] at marks
  exact (Option.some.inj marks).symm

/-- A merge of three or more bars marks one of those it merged. -/
theorem mem_tail_of_marks (many : 2 < turn.found.raw.length)
    (merged : turn.found.Merged turn.further) (marks : Marks turn marked) :
    marked ∈ turn.found.raw.tail := by
  obtain ⟨first, second, rest, raw, last, -⟩ := merged
  rw [raw] at many
  obtain ⟨further, next⟩ : ∃ further, turn.further = further + 1 :=
    Nat.exists_eq_succ_of_ne_zero (by simp only [List.length_cons] at many; omega)
  rw [Marks, raw, next, List.getElem?_cons_succ] at marks
  rw [raw]
  exact List.mem_of_getElem? marks

end Marked

/-- A turn that is a fractal leaves its bar as it is, or has merged three or more. -/
theorem shape_of_fractal {bars : List Bar} {current next : Block Turn}
    (adjacent : [current, next] <:+: turns bars)
    (differs : next.found.bar.high < current.found.bar.high ∨
      current.found.bar.low < next.found.bar.low) :
    current.found.Single current.further ∨
      (current.found.Merged current.further ∧ 2 < current.found.raw.length) := by
  have here := (covers_turns bars).taken current (adjacent.subset (by simp))
  rcases (turnAt_cases here).2 with single | merged
  · exact .inl single
  · refine .inr ⟨merged, ?_⟩
    obtain ⟨first, second, rest, raw, -, -⟩ := merged
    cases rest with
    | nil =>
        have same := same_of_two adjacent raw
        rw [same] at differs
        exact absurd differs (by simp)
    | cons third rest =>
        rw [raw]
        simp only [List.length_cons]
        omega

/-- The bar that a fractal marks is the bar itself, or one of those of which the turn leaves
the extremes. -/
theorem marked_of_fractal {bars : List Bar} {current next : Block Turn}
    (adjacent : [current, next] <:+: turns bars)
    (differs : next.found.bar.high < current.found.bar.high ∨
      current.found.bar.low < next.found.bar.low) {marked : Bar} (marks : Marks current marked) :
    (current.found.raw.tail = [] ∧ marked = current.found.bar) ∨
      (marked ∈ current.found.raw.tail ∧
        Extremes current.found.raw.tail current.found.bar) := by
  rcases shape_of_fractal adjacent differs with single | ⟨merged, many⟩
  · left
    rw [single.1]
    exact ⟨rfl, marks_of_single single marks⟩
  · right
    refine ⟨mem_tail_of_marks many merged marks, ?_⟩
    obtain ⟨first, second, rest, raw, -, extremes⟩ := merged
    rw [raw, List.tail_cons]
    exact extremes

theorem high_eq_iff {bars : List Bar} {current next : Block Turn}
    (adjacent : [current, next] <:+: turns bars)
    (top : next.found.bar.high < current.found.bar.high) {marked : Bar}
    (marks : Marks current marked) :
    current.found.bar.high = marked.high ↔ TopMarked current := by
  refine Iff.trans ?_ (forall_marks_iff marks).symm
  rcases marked_of_fractal adjacent (.inl top) marks with ⟨alone, rfl⟩ | ⟨listed, extremes⟩
  · simp [alone]
  · exact eq_iff_of_isGreatest extremes.greatest listed

theorem low_eq_iff {bars : List Bar} {current next : Block Turn}
    (adjacent : [current, next] <:+: turns bars)
    (bottom : current.found.bar.low < next.found.bar.low) {marked : Bar}
    (marks : Marks current marked) :
    current.found.bar.low = marked.low ↔ BottomMarked current := by
  refine Iff.trans ?_ (forall_marks_iff marks).symm
  rcases marked_of_fractal adjacent (.inr bottom) marks with ⟨alone, rfl⟩ | ⟨listed, extremes⟩
  · simp [alone]
  · exact eq_iff_of_isLeast extremes.least listed

/-- The fractals of the processed bars are those of three successive turns. -/
theorem mem_fractalsOf_turns {bars : List Bar} {fractal : Fractal} :
    fractal ∈ fractalsOf (handleInclusion bars) ↔ ∃ previous current next,
      [previous, current, next] <:+: turns bars ∧
        fractalAt (processedOf previous) (processedOf current) (processedOf next) =
          some fractal := by
  rw [mem_fractalsOf_iff, handleInclusion_eq]
  constructor
  · rintro ⟨p, c, n, listed, found⟩
    obtain ⟨three, infixed, same⟩ := List.infix_map_iff.mp listed
    obtain ⟨previous, current, next, rfl⟩ : ∃ a b c, three = [a, b, c] :=
      List.length_eq_three.mp (by simpa using (congrArg List.length same).symm)
    cases same
    exact ⟨previous, current, next, infixed, found⟩
  · rintro ⟨previous, current, next, listed, found⟩
    exact ⟨_, _, _, listed.map processedOf, found⟩

/-- What the detection makes of three successive turns. -/
theorem fractalAt_turns {previous current next : Block Turn} {fractal : Fractal} :
    fractalAt (processedOf previous) (processedOf current) (processedOf next) = some fractal ↔
      (IsTop previous.found.bar current.found.bar next.found.bar ∧
        fractal = ⟨.top, current.stop, previous.stop, next.stop, current.found.bar.high⟩) ∨
      (¬ IsTop previous.found.bar current.found.bar next.found.bar ∧
        IsBottom previous.found.bar current.found.bar next.found.bar ∧
        fractal = ⟨.bottom, current.stop, previous.stop, next.stop, current.found.bar.low⟩) := by
  have unfolded : fractalAt (processedOf previous) (processedOf current) (processedOf next) =
      if IsTop previous.found.bar current.found.bar next.found.bar then
        some ⟨.top, current.stop, previous.stop, next.stop, current.found.bar.high⟩
      else if IsBottom previous.found.bar current.found.bar next.found.bar then
        some ⟨.bottom, current.stop, previous.stop, next.stop, current.found.bar.low⟩
      else none := rfl
  rw [unfolded]
  split
  · rename_i top
    simp [top, eq_comm]
  · rename_i flat
    split
    · rename_i bottom
      simp [flat, bottom, eq_comm]
    · rename_i level
      simp [flat, level]

theorem atBar_iff {bars : List Bar} {fractal : Fractal} {bar : Bar}
    (here : bars[fractal.index]? = some bar) :
    fractal.AtBar bars ↔
      match fractal.fractalType with
      | .top => fractal.price = bar.high
      | .bottom => fractal.price = bar.low := by
  constructor
  · rintro ⟨other, found, same⟩
    rw [here] at found
    cases found
    exact same
  · intro same
    exact ⟨bar, here, same⟩

section Turns

variable {bars : List Bar} {previous current next : Block Turn}

theorem infix_tail (listed : [previous, current, next] <:+: turns bars) :
    [current, next] <:+: turns bars :=
  (List.suffix_cons previous [current, next]).isInfix.trans listed

theorem atBar_iff_topMarked (listed : [previous, current, next] <:+: turns bars)
    (top : IsTop previous.found.bar current.found.bar next.found.bar) :
    Fractal.AtBar bars ⟨.top, current.stop, previous.stop, next.stop, current.found.bar.high⟩ ↔
      TopMarked current := by
  have member : current ∈ turns bars := listed.subset (by simp)
  obtain ⟨marked, marks⟩ := exists_marks member
  exact (atBar_iff ((marks_iff member marked).mp marks)).trans
    (high_eq_iff (infix_tail listed) top.2 marks)

theorem atBar_iff_bottomMarked (listed : [previous, current, next] <:+: turns bars)
    (bottom : IsBottom previous.found.bar current.found.bar next.found.bar) :
    Fractal.AtBar bars ⟨.bottom, current.stop, previous.stop, next.stop, current.found.bar.low⟩ ↔
      BottomMarked current := by
  have member : current ∈ turns bars := listed.subset (by simp)
  obtain ⟨marked, marks⟩ := exists_marks member
  exact (atBar_iff ((marks_iff member marked).mp marks)).trans
    (low_eq_iff (infix_tail listed) bottom.2 marks)

end Turns

/-- The fractals over processed bars. -/
theorem handled_atBar_iff (bars : List Bar) :
    (∀ fractal ∈ fractalsOf (handleInclusion bars), fractal.AtBar bars) ↔
      ExtremesMarked bars := by
  constructor
  · intro atBar previous current next listed
    constructor
    · intro top
      refine (atBar_iff_topMarked listed top).mp (atBar _ ?_)
      exact mem_fractalsOf_turns.mpr ⟨previous, current, next, listed,
        fractalAt_turns.mpr (.inl ⟨top, rfl⟩)⟩
    · intro flat bottom
      refine (atBar_iff_bottomMarked listed bottom).mp (atBar _ ?_)
      exact mem_fractalsOf_turns.mpr ⟨previous, current, next, listed,
        fractalAt_turns.mpr (.inr ⟨flat, bottom, rfl⟩)⟩
  · intro marked fractal member
    obtain ⟨previous, current, next, listed, found⟩ := mem_fractalsOf_turns.mp member
    obtain ⟨ofTop, ofBottom⟩ := marked previous current next listed
    rcases fractalAt_turns.mp found with ⟨top, rfl⟩ | ⟨flat, bottom, rfl⟩
    · exact (atBar_iff_topMarked listed top).mpr (ofTop top)
    · exact (atBar_iff_bottomMarked listed bottom).mpr (ofBottom flat bottom)

/-- Without inclusion handling a bar is recorded under its own index. -/
theorem getElem?_of_mem_singles {bars : List Bar} {index : ℕ} {processed : Processed}
    (member : processed ∈ singles index bars) :
    index ≤ processed.index ∧ bars[processed.index - index]? = some processed.toBar := by
  induction bars generalizing index with
  | nil => cases member
  | cons bar rest ih =>
      rcases List.mem_cons.mp member with rfl | member
      · refine ⟨le_refl index, ?_⟩
        rw [single, Nat.sub_self]
        rfl
      · obtain ⟨later, found⟩ := ih member
        refine ⟨by omega, ?_⟩
        have next : processed.index - index = (processed.index - (index + 1)) + 1 := by omega
        rw [next, List.getElem?_cons_succ]
        exact found

theorem basic_atBar (bars : List Bar) (minBars : ℕ) :
    ∀ fractal ∈ detectFractalsBasic bars minBars, fractal.AtBar bars := by
  intro fractal member
  unfold detectFractalsBasic at member
  split at member
  · cases member
  · obtain ⟨previous, current, next, listed, found⟩ := mem_fractalsOf_iff.mp member
    have here := (getElem?_of_mem_singles (listed.subset (by simp) : current ∈ singles 0 bars)).2
    unfold fractalAt at found
    split at found
    · cases found
      exact ⟨current.toBar, here, rfl⟩
    · split at found
      · cases found
        exact ⟨current.toBar, here, rfl⟩
      · cases found

/-- **The fractals over a price series have the prices of the bars they name if and only if
too few processed bars are left for them, or every merge on which a fractal lies has the
extreme in its last raw bar but one.** -/
theorem fractals_atBar_iff (bars : List Bar) (minBars : ℕ) :
    (∀ fractal ∈ detectFractals bars true minBars, fractal.AtBar bars) ↔
      (turns bars).length < minBars ∨ ExtremesMarked bars := by
  have counted : (handleInclusion bars).length = (turns bars).length := by
    rw [handleInclusion_eq, List.length_map]
  unfold detectFractals
  rw [counted]
  by_cases few : (turns bars).length < minBars
  · rw [if_neg fun both => absurd both.2 (not_le.mpr few)]
    exact iff_of_true (basic_atBar bars minBars) (.inl few)
  · rw [if_pos ⟨rfl, not_lt.mp few⟩, handled_atBar_iff]
    exact (or_iff_right few).symm

/-- The top of the sample has the price of its third bar and names the fourth. -/
theorem lateTop_not_atBar :
    (∀ bar ∈ lateTop, bar.low ≤ bar.high) ∧
      detectFractals lateTop true 3 = [⟨.top, 3, 0, 4, 3⟩] ∧ lateTop[3]? = some ⟨1, 2⟩ ∧
      ¬ ∀ fractal ∈ detectFractals lateTop true 3, fractal.AtBar lateTop := by
  have found : detectFractals lateTop true 3 = [⟨.top, 3, 0, 4, 3⟩] := by
    with_unfolding_all decide
  refine ⟨by with_unfolding_all decide, found, rfl, ?_⟩
  intro atBar
  rw [found] at atBar
  obtain ⟨bar, here, price⟩ := atBar _ List.mem_cons_self
  cases here
  have wrong : (3 : ℚ) = 2 := price
  norm_num at wrong

end TradeOS.Chan
