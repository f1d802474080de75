import TradeOS.Audit.Schemas
import TradeOS.Risk.Trail

/-!
# Snapshots of the limit checks

The risk auditor keeps a snapshot of every limit check of a position plan.
`from_limit_check` takes a check in two forms, as an object and as a dictionary, and
reads an adjusted quantity from it. A `LimitCheck` has no such field. The dictionary form
then falls back to the value that was checked, and the object form to zero.

The value that was checked is the quantity that reached the filter, and the adjusted
quantity is the one that left it. So a snapshot is right in both forms exactly where
nothing reached the filter and nothing left it (`snapshotTrue_iff`). The first filter of a
chain receives a positive quantity, and no plan that reached the filters has snapshots that
are all right (`snapshots_not_true`).
-/

set_option autoImplicit false

namespace TradeOS.Audit

open TradeOS.Risk

/-! ## The snapshot of one check -/

/-- `FilterCheckSnapshot`, with all its fields. -/
structure FullFilterCheckSnapshot extends FilterCheckSnapshot where
  passed : Bool
  rawQty : NonnegRational := NonnegRational.zero
  adjustedQty : ℚ := 0
  limitValue : Option ℚ := none
  actualValue : Option ℚ := none
  details : String := ""
  deriving DecidableEq

/-- What a check has of the fields that the snapshot reads: the attributes of an object,
or the keys of a dictionary. -/
structure LimitCheckFields where
  limitName : Option String := none
  name : Option String := none
  mode : Option String := none
  passed : Option Bool := none
  rawQty : Option ℚ := none
  adjustedQty : Option ℚ := none
  limitValue : Option ℚ := none
  actualValue : Option ℚ := none
  details : Option String := none

/-- The two forms of a check. -/
inductive LimitCheckInput where
  | dict (entries : LimitCheckFields)
  | object (attributes : LimitCheckFields)

/-- `FilterCheckSnapshot.from_limit_check`. -/
def fromLimitCheck : LimitCheckInput → Except RunError FullFilterCheckSnapshot
  | .dict lc => do
      let rawQty ← check "FilterCheckSnapshot.raw_qty" (lc.rawQty.getD 0)
      return {
        filterName := lc.limitName.getD (lc.name.getD "unknown")
        mode := lc.mode.getD "pass"
        passed := lc.passed.getD true
        rawQty := rawQty
        -- without an adjusted quantity the dictionary falls back to the checked value
        adjustedQty := lc.adjustedQty.getD (lc.actualValue.getD 0)
        limitValue := lc.limitValue
        actualValue := lc.actualValue
        details := lc.details.getD "" }
  | .object lc => do
      let rawQty ← check "FilterCheckSnapshot.raw_qty" (lc.rawQty.getD 0)
      return {
        filterName := lc.limitName.getD "unknown"
        mode := lc.mode.getD "pass"
        passed := lc.passed.getD true
        rawQty := rawQty
        adjustedQty := lc.adjustedQty.getD 0
        limitValue := lc.limitValue
        actualValue := lc.actualValue
        details := lc.details.getD "" }

/-- The text of a filter mode. -/
def modeText : FilterMode → String
  | .pass => "pass"
  | .cap => "cap"
  | .veto => "veto"

end TradeOS.Audit

namespace TradeOS.Risk

open TradeOS.Audit

/-- The fields of a `LimitCheck`. There is no adjusted quantity among them. -/
def LimitCheck.fields (entry : LimitCheck) : LimitCheckFields where
  limitName := some entry.limitName
  mode := some (modeText entry.mode)
  passed := some entry.passed
  rawQty := some entry.rawQty
  limitValue := some entry.limitValue
  actualValue := some entry.actualValue
  details := some entry.details

/-- The snapshot of a check with a given adjusted quantity. -/
def LimitCheck.snapshot (entry : LimitCheck) (rawQty : NonnegRational) (adjustedQty : ℚ) :
    FullFilterCheckSnapshot where
  filterName := entry.limitName
  mode := modeText entry.mode
  passed := entry.passed
  rawQty := rawQty
  adjustedQty := adjustedQty
  limitValue := some entry.limitValue
  actualValue := some entry.actualValue
  details := entry.details

end TradeOS.Risk

namespace TradeOS.Audit

open TradeOS.Risk

/-- `RiskAuditor._snapshot_filter_results`: the checks of a plan are objects. -/
def snapshotFilterResults (positionPlan : PositionPlan) :
    Except RunError (List FullFilterCheckSnapshot) :=
  positionPlan.limitChecks.mapM fun entry => fromLimitCheck (.object entry.fields)

section OneCheck

variable {entry : LimitCheck}

/-- An object gives its snapshot without an adjusted quantity. -/
theorem fromLimitCheck_object (raw : 0 ≤ entry.rawQty) :
    fromLimitCheck (.object entry.fields) = .ok (entry.snapshot ⟨entry.rawQty, raw⟩ 0) := by
  show (check "FilterCheckSnapshot.raw_qty" entry.rawQty >>= _) = _
  rw [check_of raw]
  rfl

/-- A dictionary gives its snapshot with the checked value as the adjusted quantity. -/
theorem fromLimitCheck_dict (raw : 0 ≤ entry.rawQty) :
    fromLimitCheck (.dict entry.fields) =
      .ok (entry.snapshot ⟨entry.rawQty, raw⟩ entry.actualValue) := by
  show (check "FilterCheckSnapshot.raw_qty" entry.rawQty >>= _) = _
  rw [check_of raw]
  rfl

/-- The two forms of a check agree exactly if the checked value is zero. -/
theorem forms_agree_iff (raw : 0 ≤ entry.rawQty) :
    fromLimitCheck (.object entry.fields) = fromLimitCheck (.dict entry.fields) ↔
      entry.actualValue = 0 := by
  rw [fromLimitCheck_object raw, fromLimitCheck_dict raw]
  constructor
  · intro same
    have adjusted := congrArg FullFilterCheckSnapshot.adjustedQty (Except.ok.inj same)
    exact adjusted.symm
  · intro zero
    rw [zero]

end OneCheck

/-! ## The snapshots of a plan -/

/-- The quantity that left the filter at a position: what the next check was made with, and
after the last filter the result of the chain. -/
def leftQuantity (checks : List LimitCheck) (chainResult : ℚ) (i : ℕ) : ℚ :=
  match checks[i + 1]? with
  | some next => next.actualValue
  | none => chainResult

/-- The snapshots of a check tell the truth: the two forms agree, and the adjusted quantity
is the one that left the filter. -/
structure SnapshotTrue (left : ℚ) (entry : LimitCheck) : Prop where
  agree : fromLimitCheck (.object entry.fields) = fromLimitCheck (.dict entry.fields)
  adjusted : ∃ snapshot, fromLimitCheck (.object entry.fields) = .ok snapshot ∧
    snapshot.adjustedQty = left

/-- The snapshots of all checks of a chain tell the truth. -/
def SnapshotsTrue (checks : List LimitCheck) (chainResult : ℚ) : Prop :=
  ∀ i entry, checks[i]? = some entry → SnapshotTrue (leftQuantity checks chainResult i) entry

/-- **The snapshots of a check tell the truth exactly if nothing reached the filter and
nothing left it.** -/
theorem snapshotTrue_iff {left : ℚ} {entry : LimitCheck} (raw : 0 ≤ entry.rawQty) :
    SnapshotTrue left entry ↔ entry.actualValue = 0 ∧ left = 0 := by
  constructor
  · intro truth
    obtain ⟨snapshot, taken, adjusted⟩ := truth.adjusted
    rw [fromLimitCheck_object raw] at taken
    cases taken
    exact ⟨(forms_agree_iff raw).mp truth.agree, adjusted.symm⟩
  · rintro ⟨received, rfl⟩
    exact ⟨(forms_agree_iff raw).mpr received, _, fromLimitCheck_object raw, rfl⟩

/-- The checks of a filter run start with the quantity that entered the chain, and it is
the raw quantity of all of them. -/
theorem runFilters_checks {engine : RiskEngine} {args : FilterArgs} {qty : ℚ}
    (positive : 0 < qty) {filtered : FilterState}
    (ran : runFilters engine args qty = .ok filtered) :
    (∀ entry ∈ filtered.limitChecks, entry.rawQty = qty) ∧
      ∃ first later, filtered.limitChecks = first :: later ∧ first.actualValue = qty := by
  obtain ⟨_, _, checks, _, _⟩ := runFilters_trail positive ran
  rw [checks]
  constructor
  · intro entry member
    obtain ⟨s, _, rfl⟩ := List.mem_map.mp member
    rfl
  · exact ⟨_, _, rfl, rfl⟩

section Call

variable {engine : RiskEngine} {env : RiskEnv} {decision : ArbitrationDecision}
  {portfolio : Portfolio} {marketContext : Option MarketContext} {args : CallArgs}
  {order : SizedOrder} {returned : PositionPlan}

/-- The auditor snapshots every plan that reached the filters, and records that each filter
left nothing. -/
theorem snapshotFilterResults_adjusted
    (reached : sizeOrder env decision portfolio marketContext args = .ok (.inr order))
    (ran : calculate engine env decision portfolio marketContext args = .ok returned) :
    ∃ snapshots, snapshotFilterResults returned = .ok snapshots ∧
      ∀ snapshot ∈ snapshots, snapshot.adjustedQty = 0 := by
  obtain ⟨filtered, finished⟩ := finished_of_reached reached ran
  have positive := sizeOrder_positive reached
  obtain ⟨raw, -⟩ := runFilters_checks positive finished.filters
  refine exists_mapM_iff.mpr ?_
  intro entry member
  rw [finished.limitChecks] at member
  have nonneg : 0 ≤ entry.rawQty := (raw entry member).symm ▸ positive.le
  exact ⟨_, fromLimitCheck_object nonneg, rfl⟩

end Call

/-- **No plan that reached the filters has snapshots that tell the truth.** On every call
that reaches the filters and returns, the snapshots of a check tell the truth only if
nothing reached its filter and nothing left it, and the first filter receives the base
quantity, which is positive. -/
theorem snapshots_not_true (engine : RiskEngine) (env : RiskEnv) (decision : ArbitrationDecision)
    (portfolio : Portfolio) (marketContext : Option MarketContext) (args : CallArgs)
    (order : SizedOrder) (filtered : FilterState) (returned : PositionPlan)
    (reached : sizeOrder env decision portfolio marketContext args = .ok (.inr order))
    (filters : runFilters engine
      (filterArgs env decision portfolio marketContext args order.route.directionSign)
      order.sizing.qty = .ok filtered)
    (ran : calculate engine env decision portfolio marketContext args = .ok returned) :
    (∀ i entry, returned.limitChecks[i]? = some entry →
      (SnapshotTrue (leftQuantity returned.limitChecks filtered.currentQty i) entry ↔
        entry.actualValue = 0 ∧
          leftQuantity returned.limitChecks filtered.currentQty i = 0)) ∧
      ¬ SnapshotsTrue returned.limitChecks filtered.currentQty := by
  have finished := finished_of_filters reached filters ran
  have positive := sizeOrder_positive reached
  obtain ⟨raw, first, later, checks, received⟩ := runFilters_checks positive filters
  have truth : ∀ left, ∀ entry ∈ filtered.limitChecks,
      (SnapshotTrue left entry ↔ entry.actualValue = 0 ∧ left = 0) := by
    intro left entry member
    exact snapshotTrue_iff ((raw entry member).symm ▸ positive.le)
  rw [finished.limitChecks]
  constructor
  · intro i entry found
    exact truth _ entry (List.mem_of_getElem? found)
  · intro all
    have head : filtered.limitChecks[0]? = some first := by rw [checks]; rfl
    obtain ⟨zero, -⟩ := (truth _ first (List.mem_of_getElem? head)).mp (all 0 first head)
    rw [received] at zero
    exact positive.ne' zero

/-- The snapshots of the sample call do not tell the truth. -/
theorem sampleCall_not_true :
    ∃ (order : SizedOrder) (filtered : FilterState) (returned : PositionPlan),
      sizeOrder sampleEnv Risk.sampleDecision samplePortfolio none sampleArgs = .ok (.inr order) ∧
      sampleCall sampleArgs = .ok returned ∧
      ¬ SnapshotsTrue returned.limitChecks filtered.currentQty := by
  obtain ⟨order, filtered, returned, reached, filters, called, _⟩ := sampleCall_reached
  exact ⟨order, filtered, returned, reached, called,
    (snapshots_not_true {} sampleEnv Risk.sampleDecision samplePortfolio none sampleArgs order
      filtered returned reached filters called).2⟩

/-- The first filter of the sample call cuts 600 shares to 100. The object form of its check
records 0 and the dictionary form 600. -/
theorem sampleCall_first_snapshots :
    ∃ order filtered returned first,
      sizeOrder sampleEnv Risk.sampleDecision samplePortfolio none sampleArgs = .ok (.inr order) ∧
      runFilters {}
        (filterArgs sampleEnv Risk.sampleDecision samplePortfolio none sampleArgs
          order.route.directionSign) order.sizing.qty = .ok filtered ∧
      sampleCall sampleArgs = .ok returned ∧
      returned.limitChecks[0]? = some first ∧
      leftQuantity returned.limitChecks filtered.currentQty 0 = 100 ∧
      ((fromLimitCheck (.object first.fields)).map FullFilterCheckSnapshot.adjustedQty) = .ok 0 ∧
      ((fromLimitCheck (.dict first.fields)).map FullFilterCheckSnapshot.adjustedQty) =
        .ok 600 ∧
      ¬ SnapshotsTrue returned.limitChecks filtered.currentQty := by
  obtain ⟨order, filtered, returned, reached, filters, called, quantities⟩ := sampleCall_reached
  have finished := finished_of_filters reached filters called
  have positive := sizeOrder_positive reached
  obtain ⟨raw, -⟩ := runFilters_checks positive filters
  rw [← finished.limitChecks] at raw
  obtain ⟨first, later, checks, received, laterQuantities⟩ := List.map_eq_cons_iff.mp quantities
  obtain ⟨second, others, rest, passed, _⟩ := List.map_eq_cons_iff.mp laterQuantities
  have member : first ∈ returned.limitChecks := checks ▸ List.mem_cons_self
  have nonneg : 0 ≤ first.rawQty := (raw first member).symm ▸ positive.le
  have head : returned.limitChecks[0]? = some first := by rw [checks]; rfl
  refine ⟨order, filtered, returned, first, reached, filters, called, head, ?_, ?_, ?_, ?_⟩
  · rw [checks, rest]
    exact passed
  · rw [fromLimitCheck_object nonneg]
    rfl
  · rw [fromLimitCheck_dict nonneg, ← received]
    rfl
  · intro all
    have truth := (snapshotTrue_iff nonneg).mp (all 0 first head)
    rw [received] at truth
    norm_num at truth

end TradeOS.Audit
