import TradeOS.Audit.Schemas
import TradeOS.Risk.Schemas

/-!
# The execution audit

`ExecutionAuditor.ingest` makes an execution record from the fills of an order and from what
the evaluator said before and after the trade. The fills are snapshots with checked fields,
the totals are computed from the snapshots, and the record checks its own fields.

A fill is a dictionary, so the keys of a fill may be missing, and the values that are present
have the types of their fields. Times are naive datetimes.

For fills of positive quantities, `ingest_right_iff` says when the record is made with the
right totals. Two of its conditions come from the totals themselves: the rate of an empty
list reads the first fill of it (`ingest_nil`), and the divisor of the rate is at least one,
so that it is wrong below one share (`cappedRate_eq_iff`). The others say that what is
recorded is within the bounds of the record.
-/

set_option autoImplicit false

namespace TradeOS.Audit

open Calendar Programs
open Risk (ExecutionQuality)

/-! ## Fills -/

/-- A fill event: the keys of its dictionary, and the attribute `quantity` of the object,
which a plain dictionary does not have. -/
structure FillEvent where
  sliceId : Option String := none
  id : Option String := none
  filledQty : Option ℚ := none
  quantity : Option ℚ := none
  fillPrice : Option ℚ := none
  price : Option ℚ := none
  fillTime : Option DateTime := none
  timestamp : Option DateTime := none
  slippageBps : Option ℚ := none
  isLeavingQty : Option Bool := none
  quantityAttribute : Option ℚ := none

namespace FillEvent

/-- The filled quantity that is read from a fill. -/
def qty (fill : FillEvent) : ℚ := fill.filledQty.getD (fill.quantity.getD 0)

/-- The price that is read from a fill. -/
def unitPrice (fill : FillEvent) : ℚ := fill.fillPrice.getD (fill.price.getD 0)

/-- The slippage that is read from a fill. -/
def slippage (fill : FillEvent) : ℚ := fill.slippageBps.getD 0

end FillEvent

/-- `FillSnapshot`. -/
structure FillSnapshot where
  sliceId : String
  filledQty : NonnegRational
  fillPrice : PositiveRational
  fillTime : DateTime
  slippageBps : ℚ := 0
  isLeavingQty : Bool := false

/-- `FillSnapshot.from_fill`, with the time of the call. -/
def fromFill (now : DateTime) (fill : FillEvent) : Except RunError FillSnapshot := do
  let filledQty ← check "FillSnapshot.filled_qty" fill.qty
  let fillPrice ← check "FillSnapshot.fill_price" fill.unitPrice
  return {
    sliceId := fill.sliceId.getD (fill.id.getD "")
    filledQty := filledQty
    fillPrice := fillPrice
    fillTime := fill.fillTime.getD (fill.timestamp.getD now)
    slippageBps := fill.slippage
    isLeavingQty := fill.isLeavingQty.getD false }

/-- The snapshots of the fills. Each of them reads the clock. -/
def fillSnapshots (clock : ℕ → DateTime) (fills : List FillEvent) :
    Except RunError (List FillSnapshot) :=
  fills.zipIdx.mapM fun numbered => fromFill (clock numbered.2) numbered.1

/-! ## What the evaluator said -/

/-- The result of the evaluator before the trade: the keys that the auditor reads, and the
others. -/
structure EvaluatorPreResult where
  arrivalPrice : Option ℚ := none
  estimatedSlippageBps : Option ℚ := none
  estimatedImpactBps : Option ℚ := none
  estimatedFillRate : Option ℚ := none
  otherKeys : List String := []
  deriving DecidableEq

/-- The result of the evaluator after the trade. -/
structure EvaluatorPostResult where
  executionQualityScore : Option ℚ := none
  qualityRating : Option String := none
  realizedImpactBps : Option ℚ := none
  otherKeys : List String := []
  deriving DecidableEq

/-- A result that is given: an empty dictionary counts as none. -/
def given {α : Type} [DecidableEq α] (empty : α) (result : Option α) : Option α :=
  result.filter fun entries => entries ≠ empty

/-- `ExecutionQuality(text)`, with `FAIR` for a text that is no value of it. -/
def qualityRatingOf (text : String) : ExecutionQuality :=
  if text = "excellent" then .excellent
  else if text = "good" then .good
  else if text = "fair" then .fair
  else if text = "poor" then .poor
  else if text = "failed" then .failed
  else .fair

/-! ## The record -/

/-- `ExecutionRecord`, with all its fields. -/
structure FullExecutionRecord extends ExecutionRecord where
  planId : String
  algorithm : String := ""
  estimatedImpactBps : ℚ := 0
  estimatedFillRate : UnitRational
  fills : List FillSnapshot := []
  totalRequestedQty : NonnegRational
  totalFilledQty : NonnegRational
  fillRate : UnitRational
  avgExecutionPrice : PositiveRational
  arrivalPrice : PositiveRational
  realizedImpactBps : ℚ := 0
  executionQualityScore : UnitRational
  qualityRating : ExecutionQuality := .fair
  executionStart : Option DateTime := none
  executionEnd : Option DateTime := none
  executionDurationSeconds : Option ℚ := none
  positionPlanId : Option String := none

/-- The keyword arguments of `ingest`. -/
structure IngestArgs where
  planId : String
  symbol : String
  decisionId : String
  orderType : String := "MARKET"
  algorithm : String := ""
  evaluatorPreResult : Option EvaluatorPreResult := none
  evaluatorPostResult : Option EvaluatorPostResult := none
  positionPlanId : Option String := none
  executionStart : Option DateTime := none
  executionEnd : Option DateTime := none

namespace IngestArgs

variable (args : IngestArgs)

/-- The evaluator's result before the trade, unless it is missing or empty. -/
def preResult : Option EvaluatorPreResult := given {} args.evaluatorPreResult

/-- The evaluator's result after the trade, unless it is missing or empty. -/
def postResult : Option EvaluatorPostResult := given {} args.evaluatorPostResult

def estimatedSlippage : ℚ := (args.preResult.bind (·.estimatedSlippageBps)).getD 0

def estimatedImpact : ℚ := (args.preResult.bind (·.estimatedImpactBps)).getD 0

def estimatedFillRate : ℚ := (args.preResult.bind (·.estimatedFillRate)).getD 1

def qualityScore : ℚ := (args.postResult.bind (·.executionQualityScore)).getD 0

def qualityRating : ExecutionQuality :=
  qualityRatingOf ((args.postResult.bind (·.qualityRating)).getD "FAIR")

def realizedImpact : ℚ := (args.postResult.bind (·.realizedImpactBps)).getD 0

/-- The duration of the execution in seconds. -/
def duration : Option ℚ :=
  match args.executionStart, args.executionEnd with
  | some start, some stop => some (((stop.micros : ℚ) - start.micros) / 10 ^ 6)
  | _, _ => none

end IngestArgs

/-- What `ingest` reads from its environment. -/
structure IngestEnv where
  uuid : String
  timestamp : DateTime
  fillClock : ℕ → DateTime

/-- What `ingest` can raise: a failed field or a division by zero, and the access to the
first element of an empty list. -/
inductive IngestError where
  | run (error : RunError)
  | emptyList
  deriving DecidableEq

section Totals

variable (snapshots : List FillSnapshot)

/-- `total_filled`. -/
def totalFilled : ℚ := (snapshots.map fun f => f.filledQty.val).sum

/-- `avg_price`. -/
def avgPrice : Except IngestError ℚ :=
  match snapshots with
  | [] => .ok 0
  | _ :: _ =>
      if totalFilled snapshots = 0 then .error (.run .zeroDivision)
      else .ok ((snapshots.map fun f => f.fillPrice.val * f.filledQty.val).sum /
        totalFilled snapshots)

/-- `arrival_price`: the evaluator's, else what the first fill says. -/
def arrivalPrice (preResult : Option EvaluatorPreResult) : ℚ :=
  match preResult, snapshots with
  | some result, _ => result.arrivalPrice.getD 0
  | none, first :: _ => first.fillPrice.val - first.slippageBps / 10000 * first.fillPrice.val
  | none, [] => 0

/-- `realized_slippage`. -/
def realizedSlippage (arrivalPrice avgPrice : ℚ) : ℚ :=
  if 0 < arrivalPrice ∧ 0 < avgPrice then (avgPrice - arrivalPrice) / arrivalPrice * 10000 else 0

/-- The rate of a filled and a requested quantity, as the auditor computes it. -/
def cappedRate (totalFilled requested : ℚ) : ℚ :=
  min (totalFilled / max (if requested = 0 then 1 else requested) 1) 1

/-- `total_requested_qty`: the attribute of the first fill, else the filled quantity. -/
def requestedQty (fills : List FillEvent) (totalFilled : ℚ) : ℚ :=
  match fills with
  | [] => totalFilled
  | first :: _ => first.quantityAttribute.getD totalFilled

/-- `fill_rate`. Unlike `total_requested_qty` it reads the first fill of every list. -/
def fillRate (fills : List FillEvent) (totalFilled : ℚ) : Except IngestError ℚ :=
  match fills with
  | [] => .error .emptyList
  | first :: _ => .ok (cappedRate totalFilled (first.quantityAttribute.getD totalFilled))

end Totals

/-- The record of the computed values, with the checks of its fields. -/
def executionRecord (env : IngestEnv) (args : IngestArgs) (snapshots : List FillSnapshot)
    (requested total rate average arrival : ℚ) : Except RunError FullExecutionRecord := do
  let estimatedFillRate ← check "ExecutionRecord.estimated_fill_rate" args.estimatedFillRate
  let totalRequestedQty ← check "ExecutionRecord.total_requested_qty" requested
  let totalFilledQty ← check "ExecutionRecord.total_filled_qty" total
  let fillRate ← check "ExecutionRecord.fill_rate" rate
  let avgExecutionPrice ← check "ExecutionRecord.avg_execution_price" average
  let arrivalPrice ← check "ExecutionRecord.arrival_price" arrival
  let qualityScore ← check "ExecutionRecord.execution_quality_score" args.qualityScore
  return {
    auditId := "er-" ++ env.uuid
    timestamp := env.timestamp
    symbol := args.symbol
    decisionId := args.decisionId
    planId := args.planId
    orderType := args.orderType
    algorithm := args.algorithm
    estimatedSlippageBps := args.estimatedSlippage
    estimatedImpactBps := args.estimatedImpact
    estimatedFillRate := estimatedFillRate
    fills := snapshots
    totalRequestedQty := totalRequestedQty
    totalFilledQty := totalFilledQty
    fillRate := fillRate
    avgExecutionPrice := avgExecutionPrice
    arrivalPrice := arrivalPrice
    realizedSlippageBps := realizedSlippage arrival average
    realizedImpactBps := args.realizedImpact
    executionQualityScore := qualityScore
    qualityRating := args.qualityRating
    executionStart := args.executionStart
    executionEnd := args.executionEnd
    executionDurationSeconds := args.duration
    positionPlanId := args.positionPlanId }

/-- `ExecutionAuditor.ingest`. -/
def ingest (env : IngestEnv) (fills : List FillEvent) (args : IngestArgs) :
    Except IngestError FullExecutionRecord := do
  let snapshots ← (fillSnapshots env.fillClock fills).mapError .run
  let total := totalFilled snapshots
  let average ← avgPrice snapshots
  let rate ← fillRate fills total
  (executionRecord env args snapshots (requestedQty fills total) total rate average
    (arrivalPrice snapshots args.preResult)).mapError .run

/-! ## The snapshots -/

/-- A snapshot keeps the quantity, the price and the slippage of a fill. -/
structure Keeps (fill : FillEvent) (snapshot : FillSnapshot) : Prop where
  filledQty : snapshot.filledQty.val = fill.qty
  fillPrice : snapshot.fillPrice.val = fill.unitPrice
  slippageBps : snapshot.slippageBps = fill.slippage

theorem fromFill_keeps {now : DateTime} {fill : FillEvent} {snapshot : FillSnapshot}
    (made : fromFill now fill = .ok snapshot) : Keeps fill snapshot := by
  obtain ⟨filledQty, quantity, made⟩ := bind_eq_ok_iff.mp made
  obtain ⟨fillPrice, price, made⟩ := bind_eq_ok_iff.mp made
  cases made
  exact ⟨check_eq_ok_iff.mp quantity, check_eq_ok_iff.mp price, rfl⟩

/-- A snapshot is made exactly if the quantity is not negative and the price is positive. -/
theorem returns_fromFill_iff {now : DateTime} {fill : FillEvent} :
    (Returns (fromFill now fill) fun _ => True) ↔ 0 ≤ fill.qty ∧ 0 < fill.unitPrice := by
  simp only [fromFill, returns_bind_iff, returns_check_iff, returns_pure_iff, exists_prop,
    and_true]

/-- The snapshots of fills of positive quantities are made exactly if the prices are
positive. -/
theorem returns_fillSnapshots_iff (clock : ℕ → DateTime) {fills : List FillEvent}
    (positive : ∀ fill ∈ fills, 0 < fill.qty) :
    (Returns (fillSnapshots clock fills) fun _ => True) ↔ ∀ fill ∈ fills, 0 < fill.unitPrice := by
  unfold fillSnapshots
  rw [returns_mapM_total_iff]
  simp only [returns_fromFill_iff]
  constructor
  · intro all fill member
    rw [← List.zipIdx_map_fst 0 fills] at member
    obtain ⟨numbered, listed, rfl⟩ := List.mem_map.mp member
    exact (all numbered listed).2
  · intro prices numbered listed
    have member := List.fst_mem_of_mem_zipIdx listed
    exact ⟨(positive _ member).le, prices _ member⟩

/-- The snapshots keep what the fills say, one by one. -/
theorem fillSnapshots_keep {clock : ℕ → DateTime} {fills : List FillEvent}
    {snapshots : List FillSnapshot} (made : fillSnapshots clock fills = .ok snapshots) :
    List.Forall₂ Keeps fills snapshots := by
  have taken := forall₂_of_mapM made
  rw [← List.zipIdx_map_fst 0 fills, List.forall₂_map_left_iff]
  exact taken.imp fun numbered snapshot => fromFill_keeps

section Kept

variable {fills : List FillEvent} {snapshots : List FillSnapshot}

/-- What is read from the snapshots is what is read from the fills. -/
theorem map_of_keeps {α : Type} (read : FillSnapshot → α) (ofFill : FillEvent → α)
    (same : ∀ fill snapshot, Keeps fill snapshot → read snapshot = ofFill fill)
    (kept : List.Forall₂ Keeps fills snapshots) : snapshots.map read = fills.map ofFill := by
  induction kept with
  | nil => rfl
  | cons head _ ih => rw [List.map_cons, List.map_cons, same _ _ head, ih]

/-- The sum of the quantities of the fills. -/
def quantitySum (fills : List FillEvent) : ℚ := (fills.map FillEvent.qty).sum

/-- The mean price of the fills, weighted by the quantities. For no fills it is zero. -/
def meanPrice (fills : List FillEvent) : ℚ :=
  (fills.map fun fill => fill.unitPrice * fill.qty).sum / quantitySum fills

theorem totalFilled_of_keeps (kept : List.Forall₂ Keeps fills snapshots) :
    totalFilled snapshots = quantitySum fills := by
  unfold totalFilled quantitySum
  rw [map_of_keeps (fun f => f.filledQty.val) FillEvent.qty (fun _ _ keeps => keeps.filledQty) kept]

theorem quantitySum_pos (nonempty : fills ≠ []) (positive : ∀ fill ∈ fills, 0 < fill.qty) :
    0 < quantitySum fills := by
  refine List.sum_pos _ ?_ (by simpa using nonempty)
  intro q member
  obtain ⟨fill, listed, rfl⟩ := List.mem_map.mp member
  exact positive fill listed

theorem meanPrice_pos (nonempty : fills ≠ []) (positive : ∀ fill ∈ fills, 0 < fill.qty)
    (prices : ∀ fill ∈ fills, 0 < fill.unitPrice) : 0 < meanPrice fills := by
  refine div_pos (List.sum_pos _ ?_ (by simpa using nonempty)) (quantitySum_pos nonempty positive)
  intro cost member
  obtain ⟨fill, listed, rfl⟩ := List.mem_map.mp member
  exact mul_pos (prices fill listed) (positive fill listed)

theorem avgPrice_of_keeps (nonempty : fills ≠ []) (positive : ∀ fill ∈ fills, 0 < fill.qty)
    (kept : List.Forall₂ Keeps fills snapshots) : avgPrice snapshots = .ok (meanPrice fills) := by
  have total := totalFilled_of_keeps kept
  have sum := quantitySum_pos nonempty positive
  have costs := map_of_keeps (fun f => f.fillPrice.val * f.filledQty.val)
    (fun fill => fill.unitPrice * fill.qty)
    (fun _ _ keeps => by rw [keeps.filledQty, keeps.fillPrice]) kept
  cases kept with
  | nil => exact absurd rfl nonempty
  | cons head rest =>
      unfold avgPrice
      dsimp only
      rw [total, if_neg sum.ne', costs]
      rfl

end Kept

/-! ## The rate -/

section Rate

variable {total requested : ℚ}

theorem cappedRate_mem_unit (nonneg : 0 ≤ total) :
    0 ≤ cappedRate total requested ∧ cappedRate total requested ≤ 1 := by
  have divisor : (0 : ℚ) ≤ max (if requested = 0 then 1 else requested) 1 :=
    zero_le_one.trans (le_max_right _ 1)
  exact ⟨le_min (div_nonneg nonneg divisor) zero_le_one, min_le_right _ 1⟩

/-- The rate is the capped quotient exactly if one of the quantities is at least one. -/
theorem cappedRate_eq_iff (filled : 0 < total) (asked : 0 < requested) :
    cappedRate total requested = min (total / requested) 1 ↔ 1 ≤ requested ∨ 1 ≤ total := by
  unfold cappedRate
  rw [if_neg asked.ne']
  constructor
  · intro same
    by_contra below
    obtain ⟨less, small⟩ := not_or.mp below
    have quotient : total < total / requested := by
      rw [lt_div_iff₀ asked]
      exact mul_lt_of_lt_one_right filled (not_le.mp less)
    rw [max_eq_right (not_le.mp less).le, div_one, min_eq_left (not_le.mp small).le] at same
    exact (lt_min quotient (not_le.mp small)).ne same
  · rintro (more | enough)
    · rw [max_eq_left more]
    · rcases le_total 1 requested with more | less
      · rw [max_eq_left more]
      · have quotient : 1 ≤ total / requested := by
          rw [le_div_iff₀ asked, one_mul]
          exact less.trans enough
        rw [max_eq_right less, div_one, min_eq_right enough, min_eq_right quotient]

end Rate

/-! ## The record of the totals -/

/-- The totals of a record are those of the fills, and its rate is the capped quotient of its
filled and its requested quantity. -/
@[mk_iff] structure RightTotals (fills : List FillEvent) (record : FullExecutionRecord) : Prop where
  totalFilledQty : record.totalFilledQty.val = quantitySum fills
  avgExecutionPrice : record.avgExecutionPrice.val = meanPrice fills
  fillRate : 0 < record.totalRequestedQty.val →
    record.fillRate.val = min (record.totalFilledQty.val / record.totalRequestedQty.val) 1

theorem returns_executionRecord_iff {env : IngestEnv} {args : IngestArgs}
    {fills : List FillEvent} {snapshots : List FillSnapshot}
    {requested rate arrival : ℚ} (filled : 0 ≤ quantitySum fills) (priced : 0 < meanPrice fills)
    (rated : 0 ≤ rate ∧ rate ≤ 1) :
    Returns (executionRecord env args snapshots requested (quantitySum fills) rate
        (meanPrice fills) arrival) (RightTotals fills) ↔
      (0 ≤ args.estimatedFillRate ∧ args.estimatedFillRate ≤ 1) ∧ 0 ≤ requested ∧ 0 < arrival ∧
        (0 ≤ args.qualityScore ∧ args.qualityScore ≤ 1) ∧
        (0 < requested → rate = min (quantitySum fills / requested) 1) := by
  simp only [executionRecord, returns_bind_iff, returns_check_iff, returns_pure_iff,
    rightTotals_iff, exists_prop, filled, priced, rated, true_and, and_self]

/-- What is recorded is within the bounds of the record and of its snapshots: the prices, the
values of the evaluator and the requested quantity. Without a result of the evaluator the
arrival price is the first price less its slippage, which is positive below 10000 bps. -/
structure InBounds (fills : List FillEvent) (args : IngestArgs) : Prop where
  prices : ∀ fill ∈ fills, 0 < fill.unitPrice
  arrival : match args.preResult with
    | some result => 0 < result.arrivalPrice.getD 0
    | none => ∀ first ∈ fills.head?, first.slippage < 10000
  estimatedFillRate : 0 ≤ args.estimatedFillRate ∧ args.estimatedFillRate ≤ 1
  qualityScore : 0 ≤ args.qualityScore ∧ args.qualityScore ≤ 1
  requested : ∀ first ∈ fills.head?, ∀ q ∈ first.quantityAttribute, 0 ≤ q

/-- The divisor of at least one does not change the rate: at least one share is filled, or
the first fill says that none or at least one was requested. -/
def WholeShare (fills : List FillEvent) : Prop :=
  ∀ first ∈ fills.head?, 1 ≤ quantitySum fills ∨ ∃ q ∈ first.quantityAttribute, q = 0 ∨ 1 ≤ q

/-- The rate of an empty list reads its first fill. -/
theorem ingest_nil (env : IngestEnv) (args : IngestArgs) :
    ingest env [] args = .error .emptyList := rfl

section Nonempty

variable {env : IngestEnv} {args : IngestArgs} {first : FillEvent} {rest : List FillEvent}
  {snapshots : List FillSnapshot}

/-- From the snapshots on, only the record can fail. -/
theorem ingest_of_snapshots (positive : ∀ fill ∈ first :: rest, 0 < fill.qty)
    (made : fillSnapshots env.fillClock (first :: rest) = .ok snapshots) :
    ingest env (first :: rest) args =
      (executionRecord env args snapshots
        (first.quantityAttribute.getD (quantitySum (first :: rest))) (quantitySum (first :: rest))
        (cappedRate (quantitySum (first :: rest))
          (first.quantityAttribute.getD (quantitySum (first :: rest))))
        (meanPrice (first :: rest)) (arrivalPrice snapshots args.preResult)).mapError .run := by
  have kept := fillSnapshots_keep made
  unfold ingest
  rw [made]
  show (avgPrice snapshots >>= _) = _
  rw [avgPrice_of_keeps (List.cons_ne_nil _ _) positive kept, totalFilled_of_keeps kept]
  rfl

/-- The arrival price is positive exactly if the evaluator's is, or without one the slippage of
the first fill is below the whole price. -/
theorem arrivalPrice_pos_iff (args : IngestArgs) (price : 0 < first.unitPrice)
    (kept : List.Forall₂ Keeps (first :: rest) snapshots) :
    0 < arrivalPrice snapshots args.preResult ↔
      match args.preResult with
      | some result => 0 < result.arrivalPrice.getD 0
      | none => ∀ head ∈ (first :: rest).head?, head.slippage < 10000 := by
  unfold arrivalPrice
  cases args.preResult with
  | some result => rfl
  | none =>
      cases kept with
      | cons head _ =>
          have factor : first.unitPrice - first.slippage / 10000 * first.unitPrice =
              first.unitPrice * ((10000 - first.slippage) / 10000) := by ring
          dsimp only
          rw [head.fillPrice, head.slippageBps, factor, mul_pos_iff_of_pos_left price,
            div_pos_iff_of_pos_right (by norm_num), sub_pos]
          simp

/-- The rate of the record is right exactly if its divisor does not matter. -/
theorem rate_right_iff (filled : 0 < quantitySum (first :: rest))
    (nonneg : ∀ q ∈ first.quantityAttribute, 0 ≤ q) :
    (0 < first.quantityAttribute.getD (quantitySum (first :: rest)) →
      cappedRate (quantitySum (first :: rest))
          (first.quantityAttribute.getD (quantitySum (first :: rest))) =
        min (quantitySum (first :: rest) /
          first.quantityAttribute.getD (quantitySum (first :: rest))) 1) ↔
      WholeShare (first :: rest) := by
  unfold WholeShare
  generalize quantitySum (first :: rest) = total at filled ⊢
  cases said : first.quantityAttribute with
  | none =>
      rw [Option.getD_none, cappedRate_eq_iff filled filled]
      simp [said, filled]
  | some q =>
      rw [Option.getD_some]
      rcases (nonneg q said).eq_or_lt with zero | asked
      · simp [said, ← zero]
      · rw [cappedRate_eq_iff filled asked]
        simp [said, asked, asked.ne', or_comm]

end Nonempty

/-- **The execution audit records the right totals exactly if** what is recorded is within its
bounds, there is a fill, and the divisor of the rate does not matter. -/
theorem ingest_right_iff (env : IngestEnv) (fills : List FillEvent) (args : IngestArgs)
    (positive : ∀ fill ∈ fills, 0 < fill.qty) :
    (∃ record, ingest env fills args = .ok record ∧ RightTotals fills record) ↔
      InBounds fills args ∧ fills ≠ [] ∧ WholeShare fills := by
  cases fills with
  | nil =>
      rw [ingest_nil]
      exact iff_of_false (by simp) fun holds => holds.2.1 rfl
  | cons first rest =>
      by_cases prices : ∀ fill ∈ first :: rest, 0 < fill.unitPrice
      · obtain ⟨snapshots, made, -⟩ :=
          (returns_fillSnapshots_iff env.fillClock positive).mpr prices
        have filled := quantitySum_pos (List.cons_ne_nil first rest) positive
        have priced := meanPrice_pos (List.cons_ne_nil first rest) positive prices
        have arrival := arrivalPrice_pos_iff args (prices first List.mem_cons_self)
          (fillSnapshots_keep made)
        rw [ingest_of_snapshots positive made]
        show Returns _ _ ↔ _
        rw [returns_mapError_iff,
          returns_executionRecord_iff filled.le priced (cappedRate_mem_unit filled.le), arrival]
        constructor
        · rintro ⟨estimated, requested, arrived, score, rated⟩
          have nonneg : ∀ q ∈ first.quantityAttribute, 0 ≤ q := by
            intro q said
            rw [Option.mem_def.mp said] at requested
            exact requested
          refine ⟨⟨prices, arrived, estimated, score, by simpa using nonneg⟩,
            List.cons_ne_nil _ _, ?_⟩
          exact (rate_right_iff filled nonneg).mp rated
        · rintro ⟨bounds, _, whole⟩
          have nonneg : ∀ q ∈ first.quantityAttribute, 0 ≤ q := bounds.requested first rfl
          refine ⟨bounds.estimatedFillRate, ?_, bounds.arrival, bounds.qualityScore,
            (rate_right_iff filled nonneg).mpr whole⟩
          cases said : first.quantityAttribute with
          | none => exact filled.le
          | some q => exact nonneg q said
      · refine iff_of_false ?_ fun holds => prices holds.1.prices
        rintro ⟨record, recorded, -⟩
        obtain ⟨snapshots, taken, -⟩ := bind_eq_ok_iff.mp recorded
        have made : Returns ((fillSnapshots env.fillClock (first :: rest)).mapError
            IngestError.run) fun _ => True := ⟨snapshots, taken, trivial⟩
        exact prices ((returns_fillSnapshots_iff _ positive).mp (returns_mapError_iff.mp made))

/-! ## Samples -/

/-- An environment with fixed clocks and an identifier. -/
def sampleIngestEnv : IngestEnv where
  uuid := "000000000000"
  timestamp := .ofDay 0 0
  fillClock := fun _ => .ofDay 0 0

def sampleIngestArgs : IngestArgs where
  planId := "pp-001"
  symbol := "AAPL"
  decisionId := "d-001"

/-- A fill at a price of 150. -/
def fillOf (quantity : ℚ) : FillEvent where
  sliceId := some "s1"
  filledQty := some quantity
  fillPrice := some 150

/-- Two fills of 60 and 40 shares at two prices. -/
def twoFills : List FillEvent := [fillOf 60, { fillOf 40 with fillPrice := some 151 }]

/-- Fills of 100 shares in all are audited. -/
theorem hundred_ingested :
    ∃ record, ingest sampleIngestEnv twoFills sampleIngestArgs = .ok record ∧
      RightTotals twoFills record := by
  have slippage : ∀ first ∈ twoFills.head?, first.slippage < 10000 := by decide +kernel
  have whole : ∀ first ∈ twoFills.head?, 1 ≤ quantitySum twoFills := by decide +kernel
  refine (ingest_right_iff sampleIngestEnv twoFills sampleIngestArgs (by decide +kernel)).mpr
    ⟨⟨by decide +kernel, slippage, by decide +kernel, by decide +kernel, ?_⟩,
      List.cons_ne_nil _ _, fun first member => .inl (whole first member)⟩
  intro first member q said
  cases member
  cases said

/-- No record is made of no fills. Half a share is recorded with a rate of one half, although
it is all that was requested. -/
theorem empty_half_not_right :
    ingest sampleIngestEnv [] sampleIngestArgs = .error .emptyList ∧
      ∃ record, ingest sampleIngestEnv [fillOf (1 / 2)] sampleIngestArgs = .ok record ∧
        record.totalRequestedQty.val = 1 / 2 ∧ record.totalFilledQty.val = 1 / 2 ∧
        record.fillRate.val = 1 / 2 ∧ ¬ RightTotals [fillOf (1 / 2)] record := by
  refine ⟨rfl, ?_⟩
  obtain ⟨record, made, values⟩ :=
    exists_ok_of_read (ingest sampleIngestEnv [fillOf (1 / 2)] sampleIngestArgs)
      (fun record => (record.totalRequestedQty.val, record.totalFilledQty.val,
        record.fillRate.val)) (1 / 2, 1 / 2, 1 / 2) (by with_unfolding_all decide)
  simp only [Prod.mk.injEq] at values
  obtain ⟨requested, filled, rate⟩ := values
  refine ⟨record, made, requested, filled, rate, ?_⟩
  intro right
  have stated := right.fillRate (by rw [requested]; norm_num)
  rw [requested, filled, rate] at stated
  norm_num at stated

end TradeOS.Audit
