import TradeOS.Data.Chain
import TradeOS.Execution.Simulation

/-!
# The average cost of a position

What the average cost should be, fill by fill: the price of the fill that opens a
position or turns it around, the weighted mean when a fill adds to it, and
unchanged when a fill takes from it (`CostBasis`).

The engine takes the weighted mean for every fill that does not end flat. For a
fill that unwinds a part of the position, or more than the whole of it, this is
right only when the fill is at the average cost (`cost_basis_iff`). Everything is
in exact arithmetic.
-/

set_option autoImplicit false

namespace TradeOS.Execution

open TradeOS.Chain TradeOS.Numeric

/-- A fill on its way into a position: a positive quantity, on the side of its
intent. -/
structure Booking where
  env : CallEnv
  intent : ExecutionIntent
  orderId : String
  fill : FillRecord
  side : fill.side = intent.side
  positive : 0 < fill.filledQty

/-- The signed quantity of a fill. -/
def Booking.signedQty (booking : Booking) : ℚ :=
  if booking.intent.side = .buy then booking.fill.filledQty else -booking.fill.filledQty

/-- The position after a fill. The update cannot fail without a quantisation. -/
def Booking.book (venue : String) (booking : Booking) (position : PositionState) : PositionState :=
  (updatePosition exactArithmetic venue booking.env booking.intent booking.orderId booking.fill
    (some position)).getD position

/-- The mean of the old cost and the fill price, weighted by the quantities. -/
def weightedCost (fill : FillRecord) (position : PositionState) : ℚ :=
  (position.avgCost * |position.netQty| + fill.fillPrice * fill.filledQty) /
    (|position.netQty| + fill.filledQty)

section Book

variable (venue : String) (booking : Booking) (position : PositionState)

theorem abs_signedQty : |booking.signedQty| = booking.fill.filledQty := by
  unfold Booking.signedQty
  split
  · exact abs_of_pos booking.positive
  · rw [abs_neg, abs_of_pos booking.positive]

/-- What exact booking computes. -/
theorem updatedCost_exact (fill : FillRecord) (newQty : ℚ) :
    updatedCost exactArithmetic fill position.avgCost position.netQty newQty =
      some (if newQty ≠ 0 then weightedCost fill position else position.avgCost) := by
  unfold updatedCost
  split
  · rfl
  · rfl

theorem book_netQty : (booking.book venue position).netQty =
    position.netQty + booking.signedQty := by
  simp only [Booking.book, updatePosition, Option.getD_some, updatedCost_exact]
  rfl

theorem book_avgCost : (booking.book venue position).avgCost =
    if position.netQty + booking.signedQty ≠ 0 then weightedCost booking.fill position
    else position.avgCost := by
  simp only [Booking.book, updatePosition, Option.getD_some, updatedCost_exact]
  rfl

end Book

/-! ## The cost basis -/

/-- The rules of a cost basis, for one fill. -/
structure CostBasis (s : Step Booking PositionState) : Prop where
  reduces : |s.after.netQty| < |s.before.netQty| → 0 ≤ s.before.netQty * s.after.netQty →
    s.after.avgCost = s.before.avgCost
  opens : s.before.netQty = 0 ∨ s.before.netQty * s.after.netQty < 0 →
    s.after.avgCost = s.stage.fill.fillPrice
  increases : 0 < s.before.netQty * s.after.netQty → |s.before.netQty| < |s.after.netQty| →
    s.after.avgCost = weightedCost s.stage.fill s.before

/-- The fill is against the position and does not end flat. -/
def Unwinds (s : Step Booking PositionState) : Prop :=
  s.before.netQty * s.stage.signedQty < 0 ∧ s.before.netQty + s.stage.signedQty ≠ 0

section Step

variable {n x a p q : ℚ}

/-- The weighted mean is the old cost exactly when the fill is at that cost. -/
theorem weighted_eq_old_iff (n : ℚ) (positive : 0 < q) :
    (a * |n| + p * q) / (|n| + q) = a ↔ p = a := by
  have total : 0 < |n| + q := add_pos_of_nonneg_of_pos (abs_nonneg n) positive
  rw [div_eq_iff total.ne']
  constructor
  · intro same
    have equal : p * q = a * q := by linarith
    exact mul_right_cancel₀ positive.ne' equal
  · rintro rfl
    ring

/-- The weighted mean is the fill price exactly when the fill is at the old cost,
for a position that is not flat. -/
theorem weighted_eq_new_iff (held : n ≠ 0) (positive : 0 < q) :
    (a * |n| + p * q) / (|n| + q) = p ↔ p = a := by
  have size : 0 < |n| := abs_pos.mpr held
  have total : 0 < |n| + q := add_pos size positive
  rw [div_eq_iff total.ne']
  constructor
  · intro same
    have equal : p * |n| = a * |n| := by linarith
    exact mul_right_cancel₀ size.ne' equal
  · rintro rfl
    ring

end Step

section Cases

variable (venue : String) (booking : Booking) (position : PositionState)

/-- The step that books a fill. -/
def bookStep : Step Booking PositionState := ⟨booking, position, booking.book venue position⟩

variable {booking position}

theorem signedQty_ne_zero : booking.signedQty ≠ 0 := by
  intro none
  have size := abs_signedQty booking
  rw [none, abs_zero] at size
  exact booking.positive.ne size

/-- A fill that closes the position keeps the cost. -/
theorem costBasis_of_closes (held : position.netQty ≠ 0)
    (closes : position.netQty + booking.signedQty = 0) :
    CostBasis (bookStep venue booking position) := by
  have quantity : (booking.book venue position).netQty = 0 := by rw [book_netQty, closes]
  have product : position.netQty * (booking.book venue position).netQty = 0 := by
    rw [quantity, mul_zero]
  refine ⟨fun _ _ => ?_, fun opens => ?_, fun grows => ?_⟩
  · exact (book_avgCost venue booking position).trans (if_neg (not_not.mpr closes))
  · rcases opens with none | crosses
    · exact absurd none held
    · exact absurd product crosses.ne
  · exact absurd product grows.ne'

/-- A fill on a flat position opens it at its price. -/
theorem costBasis_of_opens (flat : position.netQty = 0) :
    CostBasis (bookStep venue booking position) := by
  have cost : (booking.book venue position).avgCost = booking.fill.fillPrice := by
    rw [book_avgCost, flat, zero_add, if_pos signedQty_ne_zero, weightedCost, flat, abs_zero,
      mul_zero, zero_add, zero_add, mul_div_cancel_right₀ _ booking.positive.ne']
  refine ⟨fun shrinks => ?_, fun _ => cost, fun grows => ?_⟩
  · have negative : |(booking.book venue position).netQty| < 0 := by
      rw [← abs_zero, ← flat]
      exact shrinks
    exact absurd negative (not_lt.mpr (abs_nonneg _))
  · have zero : position.netQty * (booking.book venue position).netQty = 0 := by
      rw [flat, zero_mul]
    exact absurd zero grows.ne'

/-- A fill in the direction of the position takes the weighted mean. -/
theorem costBasis_of_adds (along : 0 < position.netQty * booking.signedQty) :
    CostBasis (bookStep venue booking position) := by
  have quantity := book_netQty venue booking position
  have stays : 0 < position.netQty * (position.netQty + booking.signedQty) := by
    nlinarith [sq_nonneg position.netQty]
  have longer : |position.netQty| < |position.netQty + booking.signedQty| := by
    rw [← sq_lt_sq]
    nlinarith [sq_nonneg booking.signedQty]
  refine ⟨fun shrinks => ?_, fun opens => ?_, fun _ _ => ?_⟩
  · have shorter : |position.netQty + booking.signedQty| < |position.netQty| := by
      rw [← quantity]
      exact shrinks
    exact absurd (shorter.trans longer) (lt_irrefl _)
  · rcases opens with none | crosses
    · have zero : position.netQty * booking.signedQty = 0 := by
        rw [show position.netQty = 0 from none, zero_mul]
      exact absurd zero along.ne'
    · have negative : position.netQty * (position.netQty + booking.signedQty) < 0 := by
        rw [← quantity]
        exact crosses
      exact absurd (negative.trans stays) (lt_irrefl _)
  · exact (book_avgCost venue booking position).trans (if_pos (right_ne_zero_of_mul stays.ne'))

/-- A fill that unwinds also takes the weighted mean, which is right only at the
average cost. -/
theorem costBasis_iff_of_unwinds (unwinds : Unwinds (bookStep venue booking position)) :
    CostBasis (bookStep venue booking position) ↔
      booking.fill.fillPrice = position.avgCost := by
  obtain ⟨against, remains⟩ := unwinds
  have held : position.netQty ≠ 0 := left_ne_zero_of_mul against.ne
  have quantity := book_netQty venue booking position
  have cost : (booking.book venue position).avgCost = weightedCost booking.fill position :=
    (book_avgCost venue booking position).trans (if_pos remains)
  constructor
  · intro basis
    rcases lt_or_gt_of_ne (mul_ne_zero held remains) with crosses | stays
    · have crossing : position.netQty * (booking.book venue position).netQty < 0 := by
        rw [quantity]
        exact crosses
      exact (weighted_eq_new_iff held booking.positive).mp (cost.symm.trans
        (basis.opens (.inr crossing)))
    · have shorter : |(booking.book venue position).netQty| < |position.netQty| := by
        rw [quantity, ← sq_lt_sq]
        have shrinks : position.netQty * booking.signedQty < 0 := against
        have remainder : 0 < position.netQty * (position.netQty + booking.signedQty) := stays
        nlinarith
      have staying : 0 ≤ position.netQty * (booking.book venue position).netQty := by
        rw [quantity]
        exact stays.le
      exact (weighted_eq_old_iff position.netQty booking.positive).mp (cost.symm.trans
        (basis.reduces shorter staying))
  · intro same
    refine ⟨fun _ _ => ?_, fun _ => ?_, fun _ _ => cost⟩
    · exact cost.trans ((weighted_eq_old_iff position.netQty booking.positive).mpr same)
    · exact cost.trans ((weighted_eq_new_iff held booking.positive).mpr same)

/-- **One fill keeps the cost basis exactly when it unwinds nothing, or unwinds at
the average cost.** -/
theorem book_costBasis_iff :
    CostBasis (bookStep venue booking position) ↔
      (Unwinds (bookStep venue booking position) →
        booking.fill.fillPrice = position.avgCost) := by
  rcases lt_trichotomy (position.netQty * booking.signedQty) 0 with against | flat | along
  · by_cases closes : position.netQty + booking.signedQty = 0
    · exact iff_of_true (costBasis_of_closes venue (left_ne_zero_of_mul against.ne) closes)
        fun unwinds => absurd closes unwinds.2
    · rw [costBasis_iff_of_unwinds venue ⟨against, closes⟩]
      exact ⟨fun same _ => same, fun same => same ⟨against, closes⟩⟩
  · have none : position.netQty = 0 := (mul_eq_zero.mp flat).resolve_right signedQty_ne_zero
    exact iff_of_true (costBasis_of_opens venue none) fun unwinds => absurd flat unwinds.1.ne
  · exact iff_of_true (costBasis_of_adds venue along)
      fun unwinds => absurd along (not_lt.mpr unwinds.1.le)

end Cases

/-- **The average cost is a cost basis along a run of fills exactly when every fill
that unwinds a part of the position, or turns it around, is at the average cost.** -/
theorem cost_basis_iff (venue : String) (bookings : List Booking) (position : PositionState) :
    (∀ s ∈ steps (Booking.book venue) bookings position, CostBasis s) ↔
      ∀ s ∈ steps (Booking.book venue) bookings position,
        Unwinds s → s.stage.fill.fillPrice = s.before.avgCost := by
  induction bookings generalizing position with
  | nil => simp
  | cons booking bookings ih =>
      rw [steps_cons, List.forall_mem_cons, List.forall_mem_cons, ih]
      exact and_congr_left fun _ => book_costBasis_iff venue

/-- A fill of a market order. -/
def sampleBooking (side : Side) (quantity : PositiveRational) (price : ℚ) : Booking where
  env := sampleCallEnv "1"
  intent := sampleIntent side quantity.val price
  orderId := "sim-ord-1"
  fill :=
    { recordId := "fill-1", orderId := "sim-ord-1", intentId := "intent", symbol := "AAPL",
      side := side, filledQty := quantity.val, fillPrice := price, filledAt := 0,
      arrivalPrice := price, simulatedSlippageBps := 0 }
  side := rfl
  positive := quantity.property

/-- A flat position. -/
def flatPosition : PositionState where
  positionId := "position-1"
  symbol := "AAPL"
  updatedAt := 0

theorem hundred_pos : (0 : ℚ) < 100 := by norm_num

theorem fifty_pos : (0 : ℚ) < 50 := by norm_num

/-- After 100 shares bought at 10, the sale of 50 at 20 lifts the average cost of the
rest to 40 / 3. -/
theorem reduction_moves_cost :
    let buy := sampleBooking .buy ⟨100, hundred_pos⟩ 10
    let sell := sampleBooking .sell ⟨50, fifty_pos⟩ 20
    let bought := buy.book "SIMULATED" flatPosition
    let sold := sell.book "SIMULATED" bought
    bought.netQty = 100 ∧ bought.avgCost = 10 ∧ sold.netQty = 50 ∧ sold.avgCost = 40 / 3 ∧
      ⟨sell, bought, sold⟩ ∈ steps (Booking.book "SIMULATED") [buy, sell] flatPosition ∧
      ¬ CostBasis ⟨sell, bought, sold⟩ := by
  intro buy sell bought sold
  have boughtQty : bought.netQty = 100 := by with_unfolding_all decide
  have boughtCost : bought.avgCost = 10 := by with_unfolding_all decide
  have soldQty : sold.netQty = 50 := by with_unfolding_all decide
  have soldCost : sold.avgCost = 40 / 3 := by with_unfolding_all decide
  refine ⟨boughtQty, boughtCost, soldQty, soldCost, ?_, fun basis => ?_⟩
  · exact List.mem_cons_of_mem _ List.mem_cons_self
  · have kept := basis.reduces (by simp only [boughtQty, soldQty]; norm_num)
      (by simp only [boughtQty, soldQty]; norm_num)
    simp only [boughtCost, soldCost] at kept
    norm_num at kept

end TradeOS.Execution
