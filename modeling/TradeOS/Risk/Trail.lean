import TradeOS.Data.Chain
import TradeOS.Risk.Engine

/-!
# The audit trail of the filter chain

A successful filter loop is a run of a chain whose stages are the filters
(`filterLoop_trail`): the limit checks and the adjustments are read off its
steps. Two invariants go along. The quantity stays non-negative, because a
negative adjustment cannot be recorded. A veto always has a reason
(`VetoReasoned`).

From these follow the agreement of the outputs of `calculate`
(`outputs_agree`) and the shape of its audit trail (`audit_trail`).
-/

set_option autoImplicit false

namespace TradeOS.Risk

open TradeOS.Chain TradeOS.Numeric

/-- The quantity that a filter produces. -/
def produced (context : FilterContext) (f : RiskFilter) (qty : ℚ) : ℚ :=
  (f.apply context qty).adjustedQty

/-- The result of the filter at a step. -/
def stepResult (context : FilterContext) (s : Step RiskFilter ℚ) : FilterResult :=
  s.stage.apply context s.before

/-- The limit check of a step. -/
def stepCheck (limits : RiskLimits) (context : FilterContext) (originalQty : ℚ)
    (s : Step RiskFilter ℚ) : LimitCheck :=
  limitCheckOf limits originalQty s.before s.stage (stepResult context s)

/-- An adjustment records a step. -/
structure RecordsStep (context : FilterContext) (a : RiskAdjustment) (s : Step RiskFilter ℚ) :
    Prop where
  filterName : a.filterName = s.stage.name
  adjustmentType : a.adjustmentType = adjustmentTypeOf s.before (stepResult context s)
  originalQuantity : a.originalQuantity.val = s.before
  adjustedQuantity : a.adjustedQuantity.val = s.after
  reason : a.reason = (stepResult context s).details

/-- A step changed the quantity. -/
def changed (s : Step RiskFilter ℚ) : Bool := s.after ≠ s.before

/-- A veto has a reason, and a reason is a veto. -/
def VetoReasoned (state : FilterState) : Prop :=
  (state.veto = false ∧ state.vetoReason = none) ∨
    (state.veto = true ∧ ∃ reason, state.vetoReason = some reason ∧ reason ≠ "")

/-- What a list of steps leads from one loop state to another. -/
structure Trail (limits : RiskLimits) (context : FilterContext) (originalQty : ℚ)
    (path : List (Step RiskFilter ℚ)) (first last : FilterState) : Prop where
  limitChecks : last.limitChecks =
    first.limitChecks ++ path.map (stepCheck limits context originalQty)
  riskAdjustments : ∃ recorded, last.riskAdjustments = first.riskAdjustments ++ recorded ∧
    List.Forall₂ (RecordsStep context) recorded (path.filter changed)
  nonneg : 0 ≤ first.currentQty → 0 ≤ last.currentQty
  veto : last.veto = (first.veto || path.any fun s => !(stepResult context s).passed)
  reasoned : VetoReasoned first → VetoReasoned last

section Loop

variable {limits : RiskLimits} {context : FilterContext} {originalQty : ℚ}

theorem Trail.nil (state : FilterState) : Trail limits context originalQty [] state state where
  limitChecks := by simp
  riskAdjustments := ⟨[], by simp, .nil⟩
  nonneg := id
  veto := by simp
  reasoned := id

theorem Trail.append {path path' : List (Step RiskFilter ℚ)} {first middle last : FilterState}
    (start : Trail limits context originalQty path first middle)
    (rest : Trail limits context originalQty path' middle last) :
    Trail limits context originalQty (path ++ path') first last where
  limitChecks := by
    rw [rest.limitChecks, start.limitChecks, List.map_append, List.append_assoc]
  riskAdjustments := by
    obtain ⟨recorded, written, records⟩ := start.riskAdjustments
    obtain ⟨recorded', written', records'⟩ := rest.riskAdjustments
    refine ⟨recorded ++ recorded', by rw [written', written, List.append_assoc], ?_⟩
    rw [List.filter_append]
    exact List.rel_append records records'
  nonneg := rest.nonneg ∘ start.nonneg
  veto := by rw [rest.veto, start.veto, List.any_append, Bool.or_assoc]
  reasoned := rest.reasoned ∘ start.reasoned

theorem adjustmentOf_eq_ok {currentQty : ℚ} {f : RiskFilter} {recorded : List RiskAdjustment}
    (written : adjustmentOf currentQty f (f.apply context currentQty) = .ok recorded) :
    List.Forall₂ (RecordsStep context) recorded
        ([⟨f, currentQty, produced context f currentQty⟩].filter changed) ∧
      (0 ≤ currentQty → 0 ≤ produced context f currentQty) := by
  unfold adjustmentOf at written
  by_cases changes : (f.apply context currentQty).adjustedQty ≠ currentQty
  · rw [if_pos changes] at written
    obtain ⟨original, first, written⟩ := bind_eq_ok_iff.mp written
    obtain ⟨adjusted, second, written⟩ := bind_eq_ok_iff.mp written
    cases written
    have adjustedValue : adjusted.val = produced context f currentQty := check_eq_ok_iff.mp second
    have differs : changed ⟨f, currentQty, produced context f currentQty⟩ = true :=
      decide_eq_true changes
    rw [List.filter_cons_of_pos differs, List.filter_nil]
    refine ⟨.cons ?_ .nil, fun _ => adjustedValue ▸ adjusted.property⟩
    exact ⟨rfl, rfl, check_eq_ok_iff.mp first, adjustedValue, rfl⟩
  · rw [if_neg changes] at written
    cases written
    have same : produced context f currentQty = currentQty := not_not.mp changes
    rw [List.filter_cons_of_neg (by simp [changed, same]), List.filter_nil, same]
    exact ⟨.nil, id⟩

theorem vetoText_ne_empty (f : RiskFilter) (result : FilterResult) : vetoText f result ≠ "" := by
  unfold vetoText
  split
  · intro empty
    have length := congrArg String.length empty
    rw [String.length_append] at length
    have some : " veto".length = 5 := rfl
    have none : "".length = 0 := rfl
    omega
  · assumption

/-- One round of the loop is one step. -/
theorem filterStep_trail {state next : FilterState} {f : RiskFilter}
    (ran : filterStep limits context originalQty state f = .ok next) :
    next.currentQty = produced context f state.currentQty ∧
      Trail limits context originalQty
        [⟨f, state.currentQty, produced context f state.currentQty⟩] state next := by
  obtain ⟨recorded, written, rest⟩ := bind_eq_ok_iff.mp ran
  cases rest
  obtain ⟨records, nonneg⟩ := adjustmentOf_eq_ok written
  refine ⟨rfl, ⟨rfl, ⟨recorded, rfl, records⟩, nonneg, by simp [stepResult], ?_⟩⟩
  intro reasoned
  cases passes : (f.apply context state.currentQty).passed with
  | true => simpa [VetoReasoned, passes] using reasoned
  | false =>
      right
      simpa [passes] using vetoText_ne_empty f (f.apply context state.currentQty)

/-- **A successful filter loop is a run of the chain of filters.** -/
theorem filterLoop_trail {filters : List RiskFilter} {state last : FilterState}
    (ran : filterLoop limits context originalQty filters state = .ok last) :
    last.currentQty = result (produced context) filters state.currentQty ∧
      Trail limits context originalQty (steps (produced context) filters state.currentQty)
        state last := by
  induction filters generalizing state with
  | nil =>
      cases ran
      exact ⟨rfl, Trail.nil _⟩
  | cons f filters ih =>
      obtain ⟨next, first, rest⟩ := bind_eq_ok_iff.mp ran
      obtain ⟨quantity, start⟩ := filterStep_trail first
      obtain ⟨final, trail⟩ := ih rest
      rw [quantity] at final trail
      exact ⟨final, start.append trail⟩

end Loop

/-! ## The chain without a veto -/

theorem closeLoop_reasoned {state : FilterState} (reasoned : VetoReasoned state) :
    VetoReasoned (closeLoop state) := by
  unfold closeLoop
  split
  · exact .inr ⟨rfl, _, rfl, by decide⟩
  · exact reasoned

/-- A veto has a reason, and without a veto the quantity is positive. -/
theorem runFilters_veto {engine : RiskEngine} {args : FilterArgs} {qty : ℚ} {fl : Rounding}
    {filtered : FilterState} (ran : runFilters engine args qty fl = .ok filtered) :
    VetoReasoned filtered ∧ (filtered.veto = false → 0 < filtered.currentQty) := by
  unfold runFilters at ran
  by_cases empty : qty ≤ 0
  · rw [if_pos empty] at ran
    cases ran
    exact ⟨.inr ⟨rfl, _, rfl, by decide⟩, by simp⟩
  · rw [if_neg empty] at ran
    obtain ⟨last, looped, rest⟩ := bind_eq_ok_iff.mp ran
    cases rest
    have reasoned := (filterLoop_trail looped).2.reasoned (.inl ⟨rfl, rfl⟩)
    refine ⟨closeLoop_reasoned reasoned, ?_⟩
    unfold closeLoop
    split
    · simp
    · rename_i open'
      intro passes
      rcases reasoned with ⟨_, none⟩ | ⟨veto, _⟩
      · by_contra zero
        exact open' ⟨not_lt.mp zero, none⟩
      · rw [veto] at passes
        cases passes

theorem collectVetoReasons_ne_nil (decisionReason : Option String) {reason : String}
    (nonempty : reason ≠ "") : collectVetoReasons decisionReason (some reason) ≠ [] := by
  unfold collectVetoReasons
  by_cases listed : reason ∈ ((decisionReason.getD "").splitOn ";").filter fun item => item ≠ ""
  · simp only [listed, not_true, and_false, if_false]
    exact List.ne_nil_of_mem listed
  · simp only [nonempty, listed, ne_eq, not_false_iff, and_self, if_true]
    simp

/-! ## Taking a call apart -/

section Call

variable {engine : RiskEngine} {env : RiskEnv} {decision : ArbitrationDecision}
  {portfolio : Portfolio} {marketContext : Option MarketContext} {args : CallArgs}

/-- A call that stops before the filters returns a zero plan. -/
theorem sizeOrder_zero {zero : PositionPlan}
    (stopped : sizeOrder env decision portfolio marketContext args = .ok (.inl zero)) :
    ∃ price reason, zero = zeroPlan env decision.decisionId decision.symbol
      (canonicalBias decision) portfolio.totalEquity price reason := by
  unfold sizeOrder at stopped
  dsimp only at stopped
  split at stopped
  · cases stopped
    exact ⟨_, _, rfl⟩
  · split at stopped
    · cases stopped
      exact ⟨_, _, rfl⟩
    · obtain ⟨sizing, _, rest⟩ := bind_eq_ok_iff.mp stopped
      split at rest
      · cases rest
        exact ⟨_, _, rfl⟩
      · cases rest

/-- What a call does with an order that reached the filters. -/
structure Finished (engine : RiskEngine) (env : RiskEnv) (decision : ArbitrationDecision)
    (portfolio : Portfolio) (marketContext : Option MarketContext) (args : CallArgs)
    (order : SizedOrder) (filtered : FilterState) (returned : PositionPlan) : Prop where
  filters : runFilters engine
    (filterArgs env decision portfolio marketContext args order.route.directionSign)
    order.sizing.qty = .ok filtered
  baseQuantity : returned.baseQuantity.val = order.sizing.qty
  finalQuantity : returned.finalQuantity.val = if filtered.veto then 0 else filtered.currentQty
  currentPrice : returned.currentPrice.val =
    (callContext env decision marketContext args).currentPrice
  limitChecks : returned.limitChecks = filtered.limitChecks
  riskAdjustments : returned.riskAdjustments = filtered.riskAdjustments
  vetoTriggered : returned.vetoTriggered = filtered.veto
  vetoReasons : returned.vetoReasons =
    collectVetoReasons decision.noTradeReason filtered.vetoReason
  executionPlan : ∃ positionPlan : PositionPlan,
    positionPlan.finalQuantity = returned.finalQuantity ∧
      executionPlanOf env decision marketContext args positionPlan = .ok returned.executionPlan

theorem finishOrder_eq_ok {order : SizedOrder} {returned : PositionPlan}
    (finished : finishOrder engine env decision portfolio marketContext args order =
      .ok returned) :
    ∃ filtered, Finished engine env decision portfolio marketContext args order filtered
      returned := by
  obtain ⟨filtered, ran, rest⟩ := bind_eq_ok_iff.mp finished
  obtain ⟨positionPlan, built, rest⟩ := bind_eq_ok_iff.mp rest
  obtain ⟨executionPlan, planned, rest⟩ := bind_eq_ok_iff.mp rest
  cases rest
  obtain ⟨confidence, _, built⟩ := bind_eq_ok_iff.mp built
  obtain ⟨baseQuantity, base, built⟩ := bind_eq_ok_iff.mp built
  obtain ⟨finalQuantity, final, built⟩ := bind_eq_ok_iff.mp built
  obtain ⟨notionalValue, _, built⟩ := bind_eq_ok_iff.mp built
  obtain ⟨currentPrice, price, built⟩ := bind_eq_ok_iff.mp built
  cases built
  exact ⟨filtered, ran, check_eq_ok_iff.mp base, check_eq_ok_iff.mp final,
    check_eq_ok_iff.mp price, rfl, rfl, rfl, rfl, _, rfl, planned⟩

/-- A call returns a zero plan or finishes an order. -/
theorem calculate_cases {returned : PositionPlan}
    (ran : calculate engine env decision portfolio marketContext args = .ok returned) :
    (∃ price reason, returned = zeroPlan env decision.decisionId decision.symbol
        (canonicalBias decision) portfolio.totalEquity price reason) ∨
      ∃ order filtered, sizeOrder env decision portfolio marketContext args = .ok (.inr order) ∧
        Finished engine env decision portfolio marketContext args order filtered returned := by
  obtain ⟨sized | order, stage, rest⟩ := bind_eq_ok_iff.mp ran
  · cases rest
    exact .inl (sizeOrder_zero stage)
  · obtain ⟨filtered, finished⟩ := finishOrder_eq_ok rest
    exact .inr ⟨order, filtered, stage, finished⟩

/-- A call that returns has finished the order that reached the filters. -/
theorem finished_of_reached {order : SizedOrder} {returned : PositionPlan}
    (reached : sizeOrder env decision portfolio marketContext args = .ok (.inr order))
    (ran : calculate engine env decision portfolio marketContext args = .ok returned) :
    ∃ filtered, Finished engine env decision portfolio marketContext args order filtered
      returned := by
  obtain ⟨stage, sized, rest⟩ := bind_eq_ok_iff.mp ran
  rw [reached] at sized
  cases sized
  exact finishOrder_eq_ok rest

theorem finished_of_filters {order : SizedOrder} {filtered : FilterState}
    {returned : PositionPlan}
    (reached : sizeOrder env decision portfolio marketContext args = .ok (.inr order))
    (filters : runFilters engine
      (filterArgs env decision portfolio marketContext args order.route.directionSign)
      order.sizing.qty = .ok filtered)
    (ran : calculate engine env decision portfolio marketContext args = .ok returned) :
    Finished engine env decision portfolio marketContext args order filtered returned := by
  obtain ⟨filtered', finished⟩ := finished_of_reached reached ran
  have same := finished.filters
  rw [filters] at same
  cases same
  exact finished

/-- An execution plan is made exactly for a positive quantity. -/
theorem executionPlanOf_eq_none_iff {positionPlan : PositionPlan}
    {executionPlan : Option ExecutionPlan}
    (planned : executionPlanOf env decision marketContext args positionPlan =
      .ok executionPlan) :
    executionPlan = none ↔ positionPlan.finalQuantity.val = 0 := by
  unfold executionPlanOf at planned
  dsimp only at planned
  have nonneg := positionPlan.finalQuantity.property
  split at planned
  · rename_i positive
    obtain ⟨made, _, rest⟩ := bind_eq_ok_iff.mp planned
    cases rest
    exact iff_of_false (by simp) positive.ne'
  · rename_i empty
    cases planned
    exact iff_of_true rfl (le_antisymm (not_lt.mp empty) nonneg)

end Call

/-! ## A sample call -/

/-- The largest number up to a bound whose square is at most `n`. -/
def rootUpTo : ℕ → ℕ → ℕ
  | 0, _ => 0
  | bound + 1, n => if (bound + 1) * (bound + 1) ≤ n then bound + 1 else rootUpTo bound n

/-- The square root of a quotient of small perfect squares. -/
def sampleSqrt (q : ℚ) : ℚ := (rootUpTo 100 q.num.toNat : ℚ) / rootUpTo 100 q.den

/-- An environment with fixed clocks and identifiers. -/
def sampleEnv : RiskEnv where
  start := 0
  contextTime := 0
  planTime := 0
  finish := 0
  planUuid := "00000000"
  planning := ⟨sampleSqrt, 0, "00000000", "00000000"⟩

/-- A square root to twelve digits, as a double. -/
def twelveDigitRoot (q : ℚ) : ℚ := binary64 ((q * 10 ^ 24).floor.toNat.sqrt / 10 ^ 12)

/-- The same environment with that square root. -/
def doubleEnv : RiskEnv :=
  { sampleEnv with planning := { sampleEnv.planning with sqrt := twelveDigitRoot } }

/-- A long decision. -/
def sampleDecision : ArbitrationDecision where
  decisionId := "arb-AAPL-0"
  timestamp := 0
  symbol := "AAPL"
  bias := .longBias
  confidence := 1 / 2

def samplePortfolio : Portfolio where
  totalEquity := ⟨100000, by norm_num⟩

/-- A liquid stock at a price of 100. -/
def sampleArgs : CallArgs where
  currentPrice := 100
  avgDailyVolume20d := 10000
  realizedVol20d := 1 / 4

/-- The plan of a call, when it returns. -/
abbrev sampleCall (args : CallArgs) : Except RunError PositionPlan :=
  calculate {} sampleEnv sampleDecision samplePortfolio none args

/-- The sample call reaches the filters. The first one cuts 600 shares to 100; no other changes
the quantity. -/
theorem sampleCall_reached :
    ∃ order filtered returned,
      sizeOrder sampleEnv sampleDecision samplePortfolio none sampleArgs = .ok (.inr order) ∧
      runFilters {}
        (filterArgs sampleEnv sampleDecision samplePortfolio none sampleArgs
          order.route.directionSign) order.sizing.qty = .ok filtered ∧
      sampleCall sampleArgs = .ok returned ∧
      returned.limitChecks.map LimitCheck.actualValue = [600, 100, 100, 100, 100, 100, 100] := by
  obtain ⟨returned, called, quantities⟩ :=
    exists_ok_of_read (sampleCall sampleArgs)
      (fun plan => plan.limitChecks.map LimitCheck.actualValue)
      [600, 100, 100, 100, 100, 100, 100] (by with_unfolding_all decide)
  rcases calculate_cases called with ⟨price, reason, rfl⟩ | ⟨order, filtered, reached, finished⟩
  · cases quantities
  · exact ⟨order, filtered, returned, reached, finished.filters, called, quantities⟩

/-! ## Agreement of the outputs -/

/-- **The outputs of `calculate` agree.** On every call that returns, the veto
flag, a final quantity of zero and a missing execution plan are equivalent, and a
veto has a reason. -/
theorem outputs_agree (engine : RiskEngine) (env : RiskEnv) (decision : ArbitrationDecision)
    (portfolio : Portfolio) (marketContext : Option MarketContext) (args : CallArgs)
    (returned : PositionPlan)
    (ran : calculate engine env decision portfolio marketContext args = .ok returned) :
    (returned.vetoTriggered = true ↔ returned.finalQuantity.val = 0) ∧
      (returned.finalQuantity.val = 0 ↔ returned.executionPlan = none) ∧
      (returned.vetoTriggered = true → returned.vetoReasons ≠ []) := by
  rcases calculate_cases ran with ⟨price, reason, rfl⟩ | ⟨order, filtered, _, finished⟩
  · exact ⟨iff_of_true rfl rfl, iff_of_true rfl rfl, fun _ => List.cons_ne_nil _ _⟩
  · obtain ⟨reasoned, positive⟩ := runFilters_veto finished.filters
    obtain ⟨positionPlan, sameQuantity, planned⟩ := finished.executionPlan
    refine ⟨?_, ?_, ?_⟩
    · rw [finished.vetoTriggered, finished.finalQuantity]
      cases veto : filtered.veto with
      | true => simp
      | false => simpa [veto] using (positive veto).ne'
    · rw [← sameQuantity]
      exact (executionPlanOf_eq_none_iff planned).symm
    · intro veto
      rw [finished.vetoTriggered] at veto
      rcases reasoned with ⟨passes, _⟩ | ⟨_, reason, given, nonempty⟩
      · rw [veto] at passes
        cases passes
      · rw [finished.vetoReasons, given]
        exact collectVetoReasons_ne_nil _ nonempty

/-- The sample call trades 100 shares. -/
theorem outputs_agree_sample :
    ∃ returned, sampleCall sampleArgs = .ok returned ∧ returned.finalQuantity.val = 100 ∧
      returned.executionPlan ≠ none := by
  obtain ⟨returned, called, quantity⟩ :=
    exists_ok_of_read (sampleCall sampleArgs) (fun plan => plan.finalQuantity.val) 100
      (by with_unfolding_all decide)
  have agree := outputs_agree {} sampleEnv sampleDecision samplePortfolio none sampleArgs
    returned called
  refine ⟨returned, called, quantity, fun missing => ?_⟩
  have zero := agree.2.1.mpr missing
  rw [quantity] at zero
  norm_num at zero

/-! ## The shape of the trail -/

/-- A filter fails exactly when it rejects. -/
def RejectsByVeto (f : RiskFilter) : Prop :=
  ∀ context qty, (f.apply context qty).passed = false ↔ (f.apply context qty).mode = .veto

theorem rejectsByVeto_of_filter {f : RiskFilter}
    (filter : ∀ context qty, (f.filter context qty).passed = false ↔
      (f.filter context qty).mode = .veto) : RejectsByVeto f := by
  intro context qty
  unfold RiskFilter.apply
  split
  · simp [FilterResult.kept]
  · exact filter context qty

theorem riskFilters_rejectByVeto : ∀ f ∈ riskFilters, RejectsByVeto f := by
  intro f member
  apply rejectsByVeto_of_filter
  intro context qty
  simp only [riskFilters, List.mem_cons, List.not_mem_nil, or_false] at member
  rcases member with rfl | rfl | rfl | rfl | rfl | rfl | rfl
  · simp only [positionLimitFilter]
    split
    · simp [FilterResult.kept]
    · split <;> simp [FilterResult.kept, FilterResult.cut]
  · simp only [lossLimitFilter]
    split
    · simp [FilterResult.kept]
    · split <;> simp [FilterResult.kept, FilterResult.rejected]
  · simp only [drawdownLimitFilter]
    split
    · simp [FilterResult.kept]
    · split <;> simp [FilterResult.kept, FilterResult.rejected]
  · simp only [correlationLimitFilter]
    repeat' split
    all_goals simp [FilterResult.kept, FilterResult.rejected]
  · simp only [liquidityCapFilter]
    repeat' split
    all_goals simp [FilterResult.kept, FilterResult.cut]
  · simp only [participationRateFilter]
    repeat' split
    all_goals simp [FilterResult.kept, FilterResult.cut]
  · simp only [slippageLimitFilter]
    split
    · simp [FilterResult.kept]
    · split <;> simp [FilterResult.kept, FilterResult.rejected]

/-- The loop of a successful filter run, for a positive quantity. -/
theorem runFilters_trail {engine : RiskEngine} {args : FilterArgs} {qty : ℚ} {fl : Rounding}
    (positive : 0 < qty) {filtered : FilterState}
    (ran : runFilters engine args qty fl = .ok filtered) :
    let context := args.context engine.riskLimits
    filtered.currentQty = result (produced context) (riskFilters fl) qty ∧
      0 ≤ filtered.currentQty ∧
      filtered.limitChecks = (steps (produced context) (riskFilters fl) qty).map
        (stepCheck engine.riskLimits context qty) ∧
      List.Forall₂ (RecordsStep context) filtered.riskAdjustments
        ((steps (produced context) (riskFilters fl) qty).filter changed) ∧
      (filtered.veto = true ↔ (∃ s ∈ steps (produced context) (riskFilters fl) qty,
        (stepResult context s).passed = false) ∨ filtered.currentQty = 0) := by
  intro context
  unfold runFilters at ran
  rw [if_neg (not_le.mpr positive)] at ran
  obtain ⟨last, looped, rest⟩ := bind_eq_ok_iff.mp ran
  cases rest
  obtain ⟨quantity, trail⟩ := filterLoop_trail looped
  obtain ⟨recorded, written, records⟩ := trail.riskAdjustments
  have nonneg := trail.nonneg positive.le
  have rejecting : last.veto = true ↔ ∃ s ∈ steps (produced context) (riskFilters fl) qty,
      (stepResult context s).passed = false := by
    rw [trail.veto]
    simp [context]
  have reasoned := trail.reasoned (.inl ⟨rfl, rfl⟩)
  unfold closeLoop
  split
  · rename_i closes
    have zero : last.currentQty = 0 := le_antisymm closes.1 nonneg
    exact ⟨quantity, nonneg, trail.limitChecks, written ▸ records,
      iff_of_true rfl (.inr zero)⟩
  · rename_i stays
    refine ⟨quantity, nonneg, trail.limitChecks, written ▸ records, ?_⟩
    rw [← rejecting]
    refine ⟨.inl, fun either => either.elim id fun zero => ?_⟩
    rcases reasoned with ⟨_, none⟩ | ⟨veto, _⟩
    · exact absurd ⟨zero.le, none⟩ stays
    · exact veto

theorem sizeOrder_positive {env : RiskEnv} {decision : ArbitrationDecision}
    {portfolio : Portfolio} {marketContext : Option MarketContext} {args : CallArgs}
    {fl : Rounding} {order : SizedOrder}
    (reached : sizeOrder env decision portfolio marketContext args fl = .ok (.inr order)) :
    0 < order.sizing.qty := by
  obtain ⟨taken, sizing, _, _, positive, rfl⟩ := sizeOrder_eq_inr reached
  unfold clampSizing
  split
  · rename_i clamped
    exact clamped.2.1
  · exact positive

/-- **The audit trail telescopes.** On every call that reaches the filters and
returns, there is one limit check per filter, in order, each with the base
quantity as its raw quantity. The checked quantities are the values of the run of
the filter chain from the base quantity, the last one apart. The adjustments
record exactly the steps that changed the quantity, with the value before and the
value after. The final quantity is the last value of the run, or zero when a
filter vetoed. -/
theorem audit_trail (engine : RiskEngine) (env : RiskEnv) (decision : ArbitrationDecision)
    (portfolio : Portfolio) (marketContext : Option MarketContext) (args : CallArgs)
    (order : SizedOrder) (returned : PositionPlan)
    (reached : sizeOrder env decision portfolio marketContext args = .ok (.inr order))
    (ran : calculate engine env decision portfolio marketContext args = .ok returned) :
    let context := (filterArgs env decision portfolio marketContext args
      order.route.directionSign).context engine.riskLimits
    let base := returned.baseQuantity.val
    returned.limitChecks.map LimitCheck.limitName = riskFilters.map RiskFilter.name ∧
      (∀ entry ∈ returned.limitChecks, entry.rawQty = base) ∧
      returned.limitChecks.map LimitCheck.actualValue =
        (values (produced context) riskFilters base).dropLast ∧
      List.Forall₂ (RecordsStep context) returned.riskAdjustments
        ((steps (produced context) riskFilters base).filter changed) ∧
      returned.finalQuantity.val =
        if ∃ entry ∈ returned.limitChecks, entry.mode = .veto then 0
        else result (produced context) riskFilters base := by
  intro context base
  obtain ⟨filtered, finished⟩ := finished_of_reached reached ran
  have baseEq : base = order.sizing.qty := finished.baseQuantity
  obtain ⟨quantity, nonneg, checks, records, veto⟩ :=
    runFilters_trail (sizeOrder_positive reached) finished.filters
  rw [← baseEq] at quantity checks records veto
  have vetoed : (∃ entry ∈ returned.limitChecks, entry.mode = .veto) ↔
      ∃ s ∈ steps (produced context) riskFilters base, (stepResult context s).passed = false := by
    rw [finished.limitChecks, checks]
    constructor
    · rintro ⟨entry, member, mode⟩
      obtain ⟨s, listed, rfl⟩ := List.mem_map.mp member
      exact ⟨s, listed,
        (riskFilters_rejectByVeto s.stage (step_eq listed).1 context s.before).mpr mode⟩
    · rintro ⟨s, listed, fails⟩
      exact ⟨_, List.mem_map_of_mem listed,
        (riskFilters_rejectByVeto s.stage (step_eq listed).1 context s.before).mp fails⟩
  refine ⟨?_, ?_, ?_, ?_, ?_⟩
  · rw [finished.limitChecks, checks, List.map_map,
      ← map_stage_steps (produced context) riskFilters base, List.map_map]
    rfl
  · intro entry member
    rw [finished.limitChecks, checks] at member
    obtain ⟨s, _, rfl⟩ := List.mem_map.mp member
    rfl
  · rw [finished.limitChecks, checks, List.map_map, ← map_before_steps]
    rfl
  · rw [finished.riskAdjustments]
    exact records
  · rw [finished.finalQuantity, ← quantity]
    by_cases rejected : ∃ entry ∈ returned.limitChecks, entry.mode = .veto
    · rw [if_pos rejected, if_pos (veto.mpr (.inl (vetoed.mp rejected)))]
    · rw [if_neg rejected]
      split
      · rename_i flagged
        exact ((veto.mp flagged).resolve_left (mt vetoed.mpr rejected)).symm
      · rfl

/-- The first filter of the sample call cuts 600 shares to 100; no other changes
the quantity. -/
theorem audit_trail_sample :
    ∃ returned, sampleCall sampleArgs = .ok returned ∧
      returned.limitChecks.map LimitCheck.limitName = riskFilters.map RiskFilter.name ∧
      returned.limitChecks.map LimitCheck.actualValue = [600, 100, 100, 100, 100, 100, 100] := by
  obtain ⟨order, filtered, returned, reached, _, called, quantities⟩ := sampleCall_reached
  exact ⟨returned, called,
    (audit_trail {} sampleEnv sampleDecision samplePortfolio none sampleArgs order returned
      reached called).1, quantities⟩

end TradeOS.Risk
