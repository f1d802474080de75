import TradeOS.Risk.LimitPrices

/-!
# The slices of a plan

A plan that slices makes twenty slices of 45 seconds. They fill the time of the plan
without a gap, since twenty divides its 900 seconds. The quantity of a slice is the
twentieth part of the order, rounded to two digits, and what the rounding takes or
adds is not made up for: the slices hold the whole order only if it is a multiple of
one fifth (`slices_whole_iff`).
-/

set_option autoImplicit false

namespace TradeOS.Risk

open TradeOS.Numeric

/-! ## Equal slices -/

/-- Slices of one quantity and one duration, one after the other. -/
structure EqualSlices (quantity : ℚ) (start duration : Timestamp) (count : ℕ)
    (slices : List ExecutionSlice) : Prop where
  length : slices.length = count
  quantity : ∀ s ∈ slices, s.quantity.val = quantity
  startTime : ∀ (i : ℕ) (here : i < slices.length), slices[i].startTime = start + i * duration
  endTime : ∀ (i : ℕ) (here : i < slices.length), slices[i].endTime = start + (i + 1) * duration

section Equal

variable {quantity : ℚ} {start duration : Timestamp} {count : ℕ} {slices : List ExecutionSlice}
  (equal : EqualSlices quantity start duration count slices)

include equal

theorem EqualSlices.total : (slices.map fun s => s.quantity.val).sum = count * quantity := by
  have constant : slices.map (fun s => s.quantity.val) = List.replicate count quantity := by
    rw [List.eq_replicate_iff, List.length_map]
    refine ⟨equal.length, ?_⟩
    intro q member
    obtain ⟨s, inside, rfl⟩ := List.mem_map.mp member
    exact equal.quantity s inside
  rw [constant, List.sum_replicate, nsmul_eq_mul]

theorem EqualSlices.contiguous : slices.IsChain fun s next => s.endTime = next.startTime := by
  rw [List.isChain_iff_getElem]
  intro i there
  rw [equal.endTime i (Nat.lt_of_succ_lt there), equal.startTime (i + 1) there]
  push_cast
  rfl

theorem EqualSlices.first (some : 0 < count) :
    slices.head?.map ExecutionSlice.startTime = .some start := by
  have here : 0 < slices.length := equal.length.symm ▸ some
  rw [List.head?_eq_getElem?, List.getElem?_eq_getElem here, Option.map_some,
    equal.startTime 0 here]
  simp

theorem EqualSlices.last (some : 0 < count) :
    slices.getLast?.map ExecutionSlice.endTime = .some (start + count * duration) := by
  have here : slices.length - 1 < slices.length := by
    have length := equal.length
    omega
  rw [List.getLast?_eq_getElem?, List.getElem?_eq_getElem here, Option.map_some,
    equal.endTime _ here, equal.length]
  have whole : ((count - 1 : ℕ) : ℤ) + 1 = count := by omega
  rw [whole]

end Equal

/-! ## What is built -/

theorem buildSlice_eq_ok {qty : ℚ} {limitPrice : Option ℚ} {startTime : Timestamp}
    {timeLimit count i : ℕ} {s : ExecutionSlice}
    (built : buildSlice qty limitPrice startTime timeLimit count i = .ok s) :
    s.quantity.val = roundTo 2 (qty / count) ∧
      s.startTime = startTime + i * ((timeLimit / count : ℕ) * second) ∧
      s.endTime = startTime + (i + 1) * ((timeLimit / count : ℕ) * second) := by
  obtain ⟨quantity, checked, rest⟩ := bind_eq_ok_iff.mp built
  obtain ⟨targetPrice, _, rest⟩ := bind_eq_ok_iff.mp rest
  cases rest
  refine ⟨check_eq_ok_iff.mp checked, rfl, ?_⟩
  dsimp only
  ring

/-- An algorithm that slices gets equal slices, and the others get none. -/
theorem buildSlices_eq_ok {qty : ℚ} {algorithm : OrderType} {params : Params}
    {limitPrice : Option ℚ} {startTime : Timestamp} {timeLimit : ℕ}
    {slices : List ExecutionSlice}
    (built : buildSlices qty algorithm params limitPrice startTime timeLimit = .ok slices) :
    slices = [] ∨
      EqualSlices (roundTo 2 (qty / sliceCount params)) startTime
        ((timeLimit / sliceCount params : ℕ) * second) (sliceCount params) slices := by
  unfold buildSlices at built
  split at built
  · cases built
    exact .inl rfl
  · right
    dsimp only at built
    have each := forall₂_of_mapM built
    have length := each.length_eq
    rw [List.length_range] at length
    have at_index (i : ℕ) (here : i < slices.length) :
        buildSlice qty limitPrice startTime timeLimit (sliceCount params) i = .ok slices[i] := by
      have inside : i < (List.range (sliceCount params)).length := by
        rw [List.length_range, length]
        exact here
      simpa using each.get inside here
    exact {
      length := length.symm
      quantity := by
        intro s member
        obtain ⟨i, here, rfl⟩ := List.getElem_of_mem member
        exact (buildSlice_eq_ok (at_index i here)).1
      startTime := fun i here => (buildSlice_eq_ok (at_index i here)).2.1
      endTime := fun i here => (buildSlice_eq_ok (at_index i here)).2.2 }

/-! ## The whole order -/

/-- The slices of a plan hold its target quantity and fill its time in order, without
a gap. -/
structure SlicesWhole (made : ExecutionPlan) : Prop where
  total : (made.slices.map fun s => s.quantity.val).sum = made.targetQuantity.val
  contiguous : made.slices.IsChain fun s next => s.endTime = next.startTime
  first : made.slices.head?.map ExecutionSlice.startTime = made.startTime
  last : made.slices.getLast?.map ExecutionSlice.endTime = made.endTime

/-- Twenty rounded twentieths of a quantity make it up if it is a multiple of one
fifth. -/
theorem twenty_rounded_iff (qty : ℚ) :
    (20 : ℕ) * roundTo 2 (qty / (20 : ℕ)) = qty ↔ ∃ k : ℤ, qty = k / 5 := by
  have part : (20 : ℕ) * roundTo 2 (qty / (20 : ℕ)) = qty ↔
      roundTo 2 (qty / (20 : ℕ)) = qty / (20 : ℕ) := by
    rw [eq_div_iff (by norm_num), mul_comm]
  rw [part, roundTo_eq_self_iff]
  refine exists_congr fun k => ?_
  rw [div_eq_iff (by norm_num)]
  have scale : (k : ℚ) / 10 ^ 2 * ((20 : ℕ) : ℚ) = k / 5 := by
    push_cast
    ring
  rw [scale]

section Plan

variable (env : PlanningEnv) (positionPlan : PositionPlan)
  (marketContext : Option MarketContext) (arrivalPrice : Option ℚ)
  (startTime : Option Timestamp) (urgency : String)

/-- The slices of a plan, if it has slices. -/
theorem plan_slices {env : PlanningEnv} {positionPlan : PositionPlan}
    {marketContext : Option MarketContext} {arrivalPrice : Option ℚ}
    {startTime : Option Timestamp} {urgency : String} {made : ExecutionPlan}
    (planned : plan env positionPlan marketContext arrivalPrice startTime urgency = .ok made)
    (sliced : made.slices ≠ []) :
    EqualSlices (roundTo 2 (positionPlan.finalQuantity.val / (20 : ℕ)))
      (startTime.getD env.utcnow) (45 * second) 20 made.slices := by
  have equal := (buildSlices_eq_ok (plan_eq_ok planned).slices).resolve_left sliced
  have count : sliceCount (planAlgorithm env positionPlan marketContext urgency).2 = 20 :=
    sliceCount_selected _ _ _ _ _
  rw [count] at equal
  exact equal

/-- **When the slices execute the whole order.** The slices of a plan always fill its
time. They hold its quantity exactly when that is a multiple of one fifth. -/
theorem slices_whole_iff (made : ExecutionPlan)
    (planned : plan env positionPlan marketContext arrivalPrice startTime urgency = .ok made)
    (sliced : made.slices ≠ []) :
    SlicesWhole made ↔ ∃ k : ℤ, positionPlan.finalQuantity.val = k / 5 := by
  have holds := plan_eq_ok planned
  have equal := plan_slices planned sliced
  have total : (made.slices.map fun s => s.quantity.val).sum = made.targetQuantity.val ↔
      ∃ k : ℤ, positionPlan.finalQuantity.val = k / 5 := by
    rw [equal.total, holds.targetQuantity, twenty_rounded_iff]
  constructor
  · intro whole
    exact total.mp whole.total
  · intro fifths
    refine ⟨total.mpr fifths, equal.contiguous, ?_, ?_⟩
    · rw [equal.first (by norm_num), holds.startTime]
    · rw [equal.last (by norm_num), holds.endTime]
      rfl

end Plan

/-! ## Samples -/

/-- A market with a volatility above thirty percent. -/
def volatileMarket : MarketContext := { quietMarket 100 with realizedVol20d := 2 / 5 }

/-- The plan of a long order in that market. -/
abbrev slicedPlan (qty : NonnegRational) : Except RunError ExecutionPlan :=
  plan sampleEnv.planning (sampleOrder .long qty) (some volatileMarket) none none "medium"

/-- An order of 100 shares has slices of 5 shares. -/
theorem slices_whole_sample :
    ∃ made, slicedPlan ⟨100, by decide⟩ = .ok made ∧ made.slices.length = 20 ∧
      SlicesWhole made := by
  obtain ⟨made, planned, length⟩ := exists_ok_of_read (slicedPlan ⟨100, by decide⟩)
    (fun made => made.slices.length) 20 (by with_unfolding_all decide)
  have sliced : made.slices ≠ [] := by
    intro none
    rw [none] at length
    cases length
  refine ⟨made, planned, length, ?_⟩
  exact (slices_whole_iff _ _ _ _ _ _ made planned sliced).mpr ⟨500, by norm_num [sampleOrder]⟩

/-- An order of 106.84 shares has slices of 5.34, which is 106.8 in all. -/
theorem slices_short :
    ∃ made, slicedPlan ⟨10684 / 100, by norm_num⟩ = .ok made ∧
      made.targetQuantity.val = 10684 / 100 ∧
      (made.slices.map fun s => s.quantity.val).sum = 1068 / 10 ∧ ¬ SlicesWhole made := by
  obtain ⟨made, planned, read⟩ := exists_ok_of_read (slicedPlan ⟨10684 / 100, by norm_num⟩)
    (fun made => (made.targetQuantity.val, (made.slices.map fun s => s.quantity.val).sum))
    (10684 / 100, 1068 / 10) (by with_unfolding_all decide)
  obtain ⟨target, total⟩ := Prod.mk.inj read
  refine ⟨made, planned, target, total, ?_⟩
  intro whole
  have same := whole.total
  rw [target, total] at same
  norm_num at same

end TradeOS.Risk
