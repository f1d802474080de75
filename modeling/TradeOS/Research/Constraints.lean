import TradeOS.Data.Dictionary
import TradeOS.Data.Validation
import TradeOS.Numeric.Extended
import Mathlib.Algebra.Order.BigOperators.Group.Finset
import Mathlib.LinearAlgebra.Matrix.Notation

/-!
# Portfolio constraints

Every type of constraint is written twice: as a relation for the solver, and as a check that
reports by how much a weight vector violates it. `build_constraint` reads the parameters of a
configuration and returns both.

The relation and the check say the same for eight of the nine types, up to the slack of the
checks of lower bounds. For the tracking error the relation takes the quadratic form at the
absolute differences from the benchmark, the check at the differences themselves
(`agreesAt_iff`).
-/

set_option autoImplicit false

namespace TradeOS.Research

open Dictionary Numeric

/-! ## Configurations -/

/-- The weights of `n` assets. -/
abbrev Weights (n : ℕ) := Fin n → ℚ

/-- The registered types of constraints, and any other name. -/
inductive ConstraintType where
  | sumToOne
  | longOnly
  | maxWeight
  | minWeight
  | sectorTargetExposure
  | sectorDeviationLimit
  | maxTurnover
  | maxLeverage
  | trackingError
  | other (name : String)
  deriving DecidableEq

/-- The entries of a `params` dict that the constraints read. -/
structure ConstraintParams where
  limit : Option ℚ := none
  sectorMap : Option (Dict String String) := none
  targets : Option (Dict String ℚ) := none
  benchmarkSectorWeights : Option (Dict String ℚ) := none
  maxDeviation : Option ℚ := none
  currentWeights : Option (Dict String ℚ) := none
  benchmarkWeights : Option (Dict String ℚ) := none
  covarianceMatrix : Option (List (List ℚ)) := none

/-- The configuration of a constraint. -/
structure ConstraintConfig where
  type : ConstraintType
  params : ConstraintParams := {}

/-- What building, stating or checking a constraint can raise. -/
inductive ConstraintError where
  | keyError (key : String)
  | unknownConstraint (name : String)
  | outOfRange (requirement : String) (got : ℚ)
  | missing (requirement : String)
  | shape
  deriving DecidableEq

/-- What `build_constraint` returns: the data that the relation and the check close over. -/
inductive Constraint (n : ℕ) where
  | sumToOne
  | longOnly
  | maxWeight (limit : ℚ)
  | minWeight (limit : ℚ)
  | sectorTargetExposure (sectorOf : Fin n → Option String) (targets : Dict String ℚ)
  | sectorDeviationLimit (sectorOf : Fin n → Option String) (benchmark : Dict String ℚ)
      (maxDev : ℚ)
  | maxTurnover (wPrev : Weights n) (limit : ℚ)
  | maxLeverage (limit : ℚ)
  | trackingError (b : Weights n) (cov : List (List ℚ)) (limit : ℚ)

/-- `params[key]`. -/
def requiredParam {α : Type} (key : String) : Option α → Except ConstraintError α
  | some value => .ok value
  | none => .error (.keyError key)

/-- A parameter that has to be there. -/
def givenParam {α : Type} (requirement : String) : Option α → Except ConstraintError α
  | some value => .ok value
  | none => .error (.missing requirement)

/-- A dict that has to be there and to have an entry. -/
def nonemptyParam {β : Type} (requirement : String) :
    Option (Dict String β) → Except ConstraintError (Dict String β)
  | some dict => if dict.entries = [] then .error (.missing requirement) else .ok dict
  | none => .error (.missing requirement)

/-- A limit in a range. -/
def limitWithin (range : ℚ → Prop) [DecidablePred range] (requirement : String)
    (params : ConstraintParams) : Except ConstraintError ℚ := do
  let limit ← requiredParam "limit" params.limit
  if range limit then return limit else .error (.outOfRange requirement limit)

variable {n : ℕ}

/-- The weights that a dict gives to some assets, zero where it has none. -/
def weightsOf (dict : Dict String ℚ) (assetIds : Fin n → String) : Weights n :=
  fun i => (dict.entries.lookup (assetIds i)).getD 0

/-- The sector of every asset that a dict knows. -/
def sectorsOf (sectorMap : Dict String String) (assetIds : Fin n → String) :
    Fin n → Option String :=
  fun i => sectorMap.entries.lookup (assetIds i)

/-- `build_constraint`. -/
def buildConstraint (config : ConstraintConfig) (assetIds : Fin n → String) :
    Except ConstraintError (Constraint n) :=
  match config.type with
  | .sumToOne => .ok .sumToOne
  | .longOnly => .ok .longOnly
  | .maxWeight => do
      let limit ← limitWithin (fun q => 0 < q ∧ q ≤ 1) "max_weight limit must be in (0, 1]"
        config.params
      return .maxWeight limit
  | .minWeight => do
      let limit ← limitWithin (fun q => 0 ≤ q ∧ q < 1) "min_weight limit must be in [0, 1)"
        config.params
      return .minWeight limit
  | .sectorTargetExposure => do
      let sectorMap ← nonemptyParam "sector_target_exposure requires sector_map"
        config.params.sectorMap
      let targets ← nonemptyParam "sector_target_exposure requires targets" config.params.targets
      return .sectorTargetExposure (sectorsOf sectorMap assetIds) targets
  | .sectorDeviationLimit => do
      let sectorMap ← nonemptyParam "sector_deviation_limit requires sector_map"
        config.params.sectorMap
      let benchmark ← nonemptyParam "sector_deviation_limit requires benchmark_sector_weights"
        config.params.benchmarkSectorWeights
      let maxDev ← givenParam "sector_deviation_limit requires max_deviation"
        config.params.maxDeviation
      return .sectorDeviationLimit (sectorsOf sectorMap assetIds) benchmark maxDev
  | .maxTurnover => do
      let current ← requiredParam "current_weights" config.params.currentWeights
      let limit ← requiredParam "limit" config.params.limit
      return .maxTurnover (weightsOf current assetIds) limit
  | .maxLeverage => do
      let limit ← limitWithin (fun q => 0 < q) "max_leverage limit must be positive"
        config.params
      return .maxLeverage limit
  | .trackingError => do
      let benchmark ← requiredParam "benchmark_weights" config.params.benchmarkWeights
      let cov ← requiredParam "covariance_matrix" config.params.covarianceMatrix
      let limit ← requiredParam "limit" config.params.limit
      return .trackingError (weightsOf benchmark assetIds) cov limit
  | .other name => .error (.unknownConstraint name)

/-! ## Relations and checks -/

/-- The slack of the checks of lower bounds. -/
def slack : ℚ := 1 / 10 ^ 9

/-- The assets of a sector, which has to have one. -/
def groupOf (sectorOf : Fin n → Option String) (sector : String) :
    Except ConstraintError (List (Fin n)) :=
  let indices := (List.finRange n).filter fun i => sectorOf i = some sector
  if indices = [] then .error (.keyError sector) else .ok indices

/-- The weight of a sector. -/
def sectorSum (sectorOf : Fin n → Option String) (w : Weights n) (sector : String) :
    Except ConstraintError ℚ :=
  (groupOf sectorOf sector).map fun indices => (indices.map w).sum

/-- A list of lists as a square matrix. -/
def covMatrix (n : ℕ) (rows : List (List ℚ)) : Except ConstraintError (Matrix (Fin n) (Fin n) ℚ) :=
  if rows.length = n ∧ ∀ row ∈ rows, row.length = n then
    .ok fun i j => (rows.getD i []).getD j 0
  else .error .shape

/-- `x @ cov @ x`. -/
def quadratic (cov : Matrix (Fin n) (Fin n) ℚ) (x : Weights n) : ℚ :=
  dotProduct x (Matrix.mulVec cov x)

/-- The sum of the absolute values. -/
def absSum (x : Weights n) : ℚ := ∑ i, |x i|

section Root

variable (root : ℚ → ℚ)

/-- The square root, not a number where there is none. -/
def squareRoot (q : ℚ) : Extended := if q < 0 then .nan else .fin (root q)

/-- `max(0, x - limit)`, which is zero where `x` is not a number. -/
def excess (x : Extended) (limit : ℚ) : ℚ :=
  match x with
  | .fin q => max 0 (q - limit)
  | _ => 0

namespace Constraint

/-- The relation that `build_cvxpy` adds, at a weight vector. -/
def buildCvxpy (constraint : Constraint n) (w : Weights n) : Except ConstraintError Bool :=
  match constraint with
  | sumToOne => .ok (∑ i, w i = 1)
  | longOnly => .ok (∀ i, 0 ≤ w i)
  | maxWeight limit => .ok (∀ i, w i ≤ limit)
  | minWeight limit => .ok (∀ i, limit ≤ w i)
  | sectorTargetExposure sectorOf targets => do
      let relations ← targets.entries.mapM fun entry => do
        let total ← sectorSum sectorOf w entry.1
        return decide (total = entry.2)
      return relations.all id
  | sectorDeviationLimit sectorOf benchmark maxDev => do
      let relations ← benchmark.entries.mapM fun entry => do
        let total ← sectorSum sectorOf w entry.1
        return decide (|total - entry.2| ≤ maxDev)
      return relations.all id
  | maxTurnover wPrev limit => .ok (absSum (fun i => w i - wPrev i) ≤ limit)
  | maxLeverage limit => .ok (absSum w ≤ limit)
  | trackingError b cov limit => do
      let cov ← covMatrix n cov
      let te := squareRoot root (quadratic cov fun i => |w i - b i|)
      return Extended.le te (.fin limit)

/-- The distance of the smallest value below a bound from a reference. -/
def shortfall (values : List ℚ) (bound reference : ℚ) : ℚ :=
  match (values.filter fun q => q < bound).min? with
  | some least => |least - reference|
  | none => 0

/-- `check`: the reported violations under their names. -/
def check (constraint : Constraint n) (w : Weights n) :
    Except ConstraintError (List (String × ℚ)) :=
  match constraint with
  | sumToOne => .ok [("sum_to_one", |∑ i, w i - 1|)]
  | longOnly => .ok [("long_only", shortfall (List.ofFn w) (-slack) 0)]
  | maxWeight limit =>
      match (List.ofFn w).max? with
      | none => .error .shape
      | some top => .ok [("max_weight", max 0 (top - limit))]
  | minWeight limit => .ok [("min_weight", shortfall (List.ofFn w) (limit - slack) limit)]
  | sectorTargetExposure sectorOf targets =>
      targets.entries.mapM fun entry => do
        let total ← sectorSum sectorOf w entry.1
        return ("sector_target_" ++ entry.1, |total - entry.2|)
  | sectorDeviationLimit sectorOf benchmark maxDev =>
      benchmark.entries.mapM fun entry => do
        let total ← sectorSum sectorOf w entry.1
        return ("sector_dev_" ++ entry.1, max 0 (|total - entry.2| - maxDev))
  | maxTurnover wPrev limit =>
      .ok [("max_turnover", max 0 (absSum (fun i => w i - wPrev i) - limit))]
  | maxLeverage limit => .ok [("max_leverage", max 0 (absSum w - limit))]
  | trackingError b cov limit => do
      let cov ← covMatrix n cov
      let te := squareRoot root (quadratic cov fun i => w i - b i)
      return [("tracking_error", excess te limit)]

end Constraint

/-! ## Agreement -/

/-- Every value that a check returns is zero. -/
def AllZero (report : Except ConstraintError (List (String × ℚ))) : Prop :=
  ∃ entries, report = .ok entries ∧ ∀ entry ∈ entries, entry.2 = 0

theorem allZero_singleton (name : String) (value : ℚ) :
    AllZero (.ok [(name, value)]) ↔ value = 0 := by
  constructor
  · rintro ⟨entries, same, zero⟩
    cases same
    exact zero _ (List.mem_singleton_self _)
  · intro zero
    refine ⟨_, rfl, fun entry member => ?_⟩
    rw [List.mem_singleton.mp member]
    exact zero

theorem excess_fin_eq_zero_iff (q limit : ℚ) : max 0 (q - limit) = 0 ↔ q ≤ limit := by
  rw [max_eq_left_iff, sub_nonpos]

namespace Constraint

/-- A check of a lower bound reports nothing exactly if every value reaches the bound. -/
theorem shortfall_eq_zero_iff {values : List ℚ} {bound reference : ℚ} (below : bound ≤ reference) :
    shortfall values bound reference = 0 ↔ ∀ q ∈ values, bound ≤ q := by
  unfold shortfall
  cases least : (values.filter fun q => q < bound).min? with
  | none =>
      rw [List.min?_eq_none_iff, List.filter_eq_nil_iff] at least
      refine iff_of_true rfl fun q member => ?_
      exact not_lt.mp fun short => least q member (decide_eq_true short)
  | some q =>
      have member := List.mem_filter.mp (List.min?_mem least)
      have short : q < bound := of_decide_eq_true member.2
      refine iff_of_false ?_ fun all => absurd (all q member.1) (not_le.mpr short)
      exact abs_ne_zero.mpr (sub_ne_zero.mpr (short.trans_le below).ne)

/-- The bound of a constraint from below, which is checked with a slack. -/
def lowerBound? : Constraint n → Option ℚ
  | longOnly => some 0
  | minWeight limit => some limit
  | _ => none

/-- The relation of a constraint holds at a weight vector exactly if its check reports nothing.
A bound from below is checked with a slack: where it holds the check reports nothing, and the
check reports nothing exactly where the weights are above the bound less the slack. -/
def AgreesAt (constraint : Constraint n) (w : Weights n) : Prop :=
  match constraint.lowerBound? with
  | some bound =>
      (constraint.buildCvxpy root w = .ok true → AllZero (constraint.check root w)) ∧
        (AllZero (constraint.check root w) ↔ ∀ i, bound - slack ≤ w i)
  | none => constraint.buildCvxpy root w = .ok true ↔ AllZero (constraint.check root w)

/-- The formula of the tracking error is on the same side of the limit at the absolute
differences from the benchmark and at the differences. A negative form has no root: the relation
fails there, and the check reports nothing. -/
def SameSide (cov : Matrix (Fin n) (Fin n) ℚ) (d : Weights n) (limit : ℚ) : Prop :=
  (0 ≤ quadratic cov (fun i => |d i|) ∧ root (quadratic cov fun i => |d i|) ≤ limit) ↔
    (quadratic cov d < 0 ∨ root (quadratic cov d) ≤ limit)

theorem ok_decide_iff (p : Prop) [Decidable p] :
    (.ok (decide p) : Except ConstraintError Bool) = .ok true ↔ p := by
  rw [Except.ok.injEq, decide_eq_true_iff]

theorem forall_mem_ofFn_iff {p : ℚ → Prop} {w : Weights n} :
    (∀ q ∈ List.ofFn w, p q) ↔ ∀ i, p (w i) := by
  simp [List.mem_ofFn]

/-- A lower bound implies its relaxation by the slack. -/
theorem lower_agrees (name : String) (bound : ℚ) (w : Weights n) :
    ((.ok (decide (∀ i, bound ≤ w i)) : Except ConstraintError Bool) = .ok true →
        AllZero (.ok [(name, shortfall (List.ofFn w) (bound - slack) bound)])) ∧
      (AllZero (.ok [(name, shortfall (List.ofFn w) (bound - slack) bound)]) ↔
        ∀ i, bound - slack ≤ w i) := by
  have nonneg : 0 ≤ slack := by norm_num [slack]
  have report : AllZero (.ok [(name, shortfall (List.ofFn w) (bound - slack) bound)]) ↔
      ∀ i, bound - slack ≤ w i := by
    rw [allZero_singleton, shortfall_eq_zero_iff (sub_le_self bound nonneg), forall_mem_ofFn_iff]
  refine ⟨fun holds => report.mpr fun i => ?_, report⟩
  exact (sub_le_self bound nonneg).trans ((ok_decide_iff _).mp holds i)

theorem maxWeight_agrees [NeZero n] (limit : ℚ) (w : Weights n) :
    (maxWeight limit : Constraint n).buildCvxpy root w = .ok true ↔
      AllZero ((maxWeight limit : Constraint n).check root w) := by
  unfold buildCvxpy check
  rw [ok_decide_iff]
  cases largest : (List.ofFn w).max? with
  | none =>
      have empty := congrArg List.length (List.max?_eq_none_iff.mp largest)
      rw [List.length_ofFn] at empty
      exact absurd empty (NeZero.ne n)
  | some top =>
      obtain ⟨member, greatest⟩ := List.max?_eq_some_iff.mp largest
      simp only
      rw [allZero_singleton, excess_fin_eq_zero_iff]
      constructor
      · intro all
        obtain ⟨i, same⟩ := List.mem_ofFn.mp member
        rw [← same]
        exact all i
      · intro below i
        exact (greatest (w i) (List.mem_ofFn.mpr ⟨i, rfl⟩)).trans below

/-- A family of relations and of checks over the sectors of a dict agree if each pair does. -/
theorem sectors_agree (entries : List (String × ℚ)) (total : String → Except ConstraintError ℚ)
    (relation : ℚ → ℚ → Bool) (name : String → String) (report : ℚ → ℚ → ℚ)
    (agree : ∀ sum target, relation sum target = true ↔ report sum target = 0) :
    (do
        let relations ← entries.mapM fun entry => do
          let sum ← total entry.1
          return relation sum entry.2
        return relations.all id) = (.ok true : Except ConstraintError Bool) ↔
      AllZero (entries.mapM fun entry => do
        let sum ← total entry.1
        return (name entry.1, report sum entry.2)) := by
  have left : (do
        let relations ← entries.mapM fun entry => do
          let sum ← total entry.1
          return relation sum entry.2
        return relations.all id) = (.ok true : Except ConstraintError Bool) ↔
      ∃ relations, (entries.mapM fun entry => do
          let sum ← total entry.1
          return relation sum entry.2) = .ok relations ∧ ∀ holds ∈ relations, holds = true := by
    rw [bind_eq_ok_iff]
    refine exists_congr fun relations => and_congr_right fun _ => ?_
    simp [pure, Except.pure]
  rw [left, AllZero, exists_mapM_iff, exists_mapM_iff]
  refine forall₂_congr fun entry _ => ?_
  cases total entry.1 with
  | error error => exact iff_of_false nofun nofun
  | ok sum =>
      constructor
      · rintro ⟨holds, same, fulfilled⟩
        cases same
        exact ⟨_, rfl, (agree sum entry.2).mp fulfilled⟩
      · rintro ⟨reported, same, zero⟩
        cases same
        exact ⟨_, rfl, (agree sum entry.2).mpr zero⟩

/-- The relation and the check of a tracking error. -/
theorem trackingError_agrees (b : Weights n) (rows : List (List ℚ)) (limit : ℚ) (w : Weights n) :
    ((trackingError b rows limit : Constraint n).buildCvxpy root w = .ok true ↔
        AllZero ((trackingError b rows limit : Constraint n).check root w)) ↔
      ∀ cov, covMatrix n rows = .ok cov → SameSide root cov (fun i => w i - b i) limit := by
  rw [buildCvxpy, check]
  cases square : covMatrix n rows with
  | error error =>
      refine iff_of_true (iff_of_false ?_ ?_) nofun
      · rintro ⟨⟩
      · rintro ⟨entries, ⟨⟩, -⟩
  | ok cov =>
      have relation : Extended.le (squareRoot root (quadratic cov fun i => |w i - b i|))
            (.fin limit) = true ↔
          0 ≤ quadratic cov (fun i => |w i - b i|) ∧
            root (quadratic cov fun i => |w i - b i|) ≤ limit := by
        unfold squareRoot
        split_ifs with negative
        · exact iff_of_false (by simp [Extended.le, Extended.lt])
            fun positive => absurd positive.1 (not_le.mpr negative)
        · rw [and_iff_right (not_lt.mp negative)]
          simp [Extended.le, Extended.lt, le_iff_lt_or_eq]
      have report : excess (squareRoot root (quadratic cov fun i => w i - b i)) limit = 0 ↔
          quadratic cov (fun i => w i - b i) < 0 ∨
            root (quadratic cov fun i => w i - b i) ≤ limit := by
        unfold squareRoot
        split_ifs with negative
        · exact iff_of_true rfl (.inl negative)
        · rw [or_iff_right negative]
          exact excess_fin_eq_zero_iff _ _
      simp only [bind, Except.bind, pure, Except.pure, Except.ok.injEq, forall_eq', relation,
        allZero_singleton, report, SameSide]

end Constraint

end Root

/-- The relation and the check agree for every constraint but a tracking error. -/
theorem agreesAt_of_untracked [NeZero n] (root : ℚ → ℚ) {constraint : Constraint n}
    (untracked : ∀ b rows limit, constraint ≠ .trackingError b rows limit) (w : Weights n) :
    constraint.AgreesAt root w := by
  cases constraint with
  | sumToOne =>
      change Except.ok (decide (∑ i, w i = 1)) = .ok true ↔ AllZero _
      rw [Constraint.ok_decide_iff, Constraint.check, allZero_singleton, abs_eq_zero, sub_eq_zero]
  | longOnly =>
      have lower := Constraint.lower_agrees "long_only" 0 w
      rw [zero_sub] at lower
      simp only [Constraint.AgreesAt, Constraint.lowerBound?, zero_sub]
      exact lower
  | maxWeight limit => exact Constraint.maxWeight_agrees root limit w
  | minWeight limit => exact Constraint.lower_agrees "min_weight" limit w
  | sectorTargetExposure sectorOf targets =>
      refine Constraint.sectors_agree targets.entries (sectorSum sectorOf w)
        (fun sum target => sum = target) (fun sector => "sector_target_" ++ sector)
        (fun sum target => |sum - target|) fun sum target => ?_
      rw [decide_eq_true_iff, abs_eq_zero, sub_eq_zero]
  | sectorDeviationLimit sectorOf benchmark maxDev =>
      refine Constraint.sectors_agree benchmark.entries (sectorSum sectorOf w)
        (fun sum target => |sum - target| ≤ maxDev) (fun sector => "sector_dev_" ++ sector)
        (fun sum target => max 0 (|sum - target| - maxDev)) fun sum target => ?_
      rw [decide_eq_true_iff, excess_fin_eq_zero_iff]
  | maxTurnover wPrev limit =>
      change Except.ok (decide (absSum (fun i => w i - wPrev i) ≤ limit)) = .ok true ↔ AllZero _
      rw [Constraint.ok_decide_iff, Constraint.check, allZero_singleton, excess_fin_eq_zero_iff]
  | maxLeverage limit =>
      change Except.ok (decide (absSum w ≤ limit)) = .ok true ↔ AllZero _
      rw [Constraint.ok_decide_iff, Constraint.check, allZero_singleton, excess_fin_eq_zero_iff]
  | trackingError b rows limit => exact absurd rfl (untracked b rows limit)

/-- Where the relation holds and agrees with the check, the check reports nothing. -/
theorem Constraint.AgreesAt.report {root : ℚ → ℚ} {constraint : Constraint n} {w : Weights n}
    (agrees : constraint.AgreesAt root w) (holds : constraint.buildCvxpy root w = .ok true) :
    AllZero (constraint.check root w) := by
  unfold AgreesAt at agrees
  split at agrees
  · exact agrees.1 holds
  · exact agrees.mp holds

/-- **The relation that the solver is given and the check of the result agree at a weight
vector, for every constraint but a tracking error whose limit separates the values of the formula
at the absolute differences from the benchmark and at the differences.** -/
theorem agreesAt_iff [NeZero n] (root : ℚ → ℚ) (constraint : Constraint n) (w : Weights n) :
    constraint.AgreesAt root w ↔
      ∀ b rows limit cov, constraint = .trackingError b rows limit →
        covMatrix n rows = .ok cov →
          Constraint.SameSide root cov (fun i => w i - b i) limit := by
  by_cases tracked : ∃ b rows limit, constraint = .trackingError b rows limit
  · obtain ⟨b, rows, limit, rfl⟩ := tracked
    refine (Constraint.trackingError_agrees root b rows limit w).trans ⟨?_, ?_⟩
    · rintro same b' rows' limit' cov tracked square
      cases tracked
      exact same cov square
    · intro same cov square
      exact same b rows limit cov rfl square
  · push Not at tracked
    refine iff_of_true (agreesAt_of_untracked root tracked w) ?_
    exact fun b rows limit _ same => absurd same (tracked b rows limit)

/-- A largest weight, at two equal weights. -/
theorem agreesAt_maxWeight :
    (Constraint.maxWeight (1 / 2) : Constraint 2).AgreesAt id ![1 / 2, 1 / 2] :=
  (agreesAt_iff id _ _).mpr nofun

/-- A tracking error of at most one half, to a benchmark of the first of two assets, with
opposite returns. -/
def oppositeTracking : ConstraintConfig where
  type := .trackingError
  params :=
    { benchmarkWeights := some (.of [("A", 1), ("B", 0)])
      covarianceMatrix := some [[1, -1], [-1, 1]]
      limit := some (1 / 2) }

/-- At two equal weights the solver's relation holds, as the absolute differences offset each
other, and the check reports one half. -/
theorem trackingError_disagrees :
    (buildConstraint oppositeTracking ![("A" : String), "B"] >>= fun constraint =>
        constraint.buildCvxpy id ![1 / 2, 1 / 2]) = .ok true ∧
      (buildConstraint oppositeTracking ![("A" : String), "B"] >>= fun constraint =>
        constraint.check id ![1 / 2, 1 / 2]) = .ok [("tracking_error", 1 / 2)] := by
  with_unfolding_all decide

end TradeOS.Research
