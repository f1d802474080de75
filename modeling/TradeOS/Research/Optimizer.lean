import TradeOS.Research.Constraints

/-!
# The portfolio optimizer

`optimize` hands a problem to a solver, makes a long-only portfolio of the weights that come back,
and reports figures and constraint violations of it. The covariance matrix is a table with
labelled rows and columns; the optimizer takes its values by position.

The reports of all constraints are merged into one dictionary. A report is lost where a later
constraint reports under the same name, and then the verdict is not about every constraint
(`satisfied_agrees_iff`). The weights that the solver found stay as they are exactly if they are
a long-only portfolio already (`postProcess_spec`).
-/

set_option autoImplicit false

namespace TradeOS.Research

open Dictionary

/-! ## Requests and results -/

/-- The registered objectives, and any other name. -/
inductive Objective where
  | maxSharpe
  | minVariance
  | riskParity
  | maxUtility
  | maxReturn
  | equalWeight
  | other (name : String)
  deriving DecidableEq

variable {n : ℕ}

/-- A covariance matrix with labels: which asset each row and each column is about, as a position
in the expected returns, and the values by row and column. The values have passed the checks of a
request. -/
structure CovarianceFrame (n : ℕ) where
  index : Equiv.Perm (Fin n)
  columns : Equiv.Perm (Fin n)
  values : Matrix (Fin n) (Fin n) ℚ
  symmetric : ∀ i j, |values i j - values j i| ≤ 1 / 10 ^ 9
  semidefinite : ∀ x, 0 ≤ quadratic values x

/-- The covariance of two assets. -/
def CovarianceFrame.byLabel (frame : CovarianceFrame n) : Matrix (Fin n) (Fin n) ℚ :=
  fun i j => frame.values (frame.index.symm i) (frame.columns.symm j)

/-- A request. -/
structure OptimizationRequest (n : ℕ) where
  assetIds : Fin n → String
  expectedReturns : Weights n
  covariance : CovarianceFrame n
  objective : Objective := .minVariance
  riskAversion : ℚ := 1
  constraints : List ConstraintConfig := [⟨.sumToOne, {}⟩, ⟨.longOnly, {}⟩]
  versionId : String := ""

/-- A result. -/
structure OptimizationResult (n : ℕ) where
  assetIds : Fin n → String
  weights : Weights n
  objectiveValue : ℚ
  solverStatus : String
  solverUsed : String
  solveTimeMs : NonnegRational
  portfolioVariance : NonnegRational
  portfolioStd : NonnegRational
  expectedReturn : ℚ
  sharpeRatio : Option ℚ
  riskContribution : Option (Weights n)
  constraintsSatisfied : Bool
  constraintViolations : List (String × ℚ)
  versionId : String

/-- What `optimize` can raise. -/
inductive OptimizeError where
  | constraint (error : ConstraintError)
  | unknownObjective (name : String)
  | validation (path : String)

/-! ## Solvers -/

/-- The problem that a solver is given. -/
structure Problem (n : ℕ) where
  objective : Objective
  mu : Weights n
  cov : Matrix (Fin n) (Fin n) ℚ
  riskAversion : ℚ
  constraints : List ConstraintConfig
  assetIds : Fin n → String

/-- What the solver of the fallback returns. -/
structure SolverResult (n : ℕ) where
  weights : Weights n
  status : String
  solveTimeMs : NonnegRational

/-- The solvers: the first one returns weights and a time if it has found an optimum. -/
structure Solvers (n : ℕ) where
  cvxpy : Problem n → Option (Weights n × NonnegRational)
  scipy : Problem n → SolverResult n

/-- The weights to go on with, and where they are from. -/
structure Outcome (n : ℕ) where
  weights : Weights n
  solverUsed : String
  status : String
  solveTimeMs : NonnegRational

/-- The weights of the first solver without small negative ones. -/
def cutOff (w : Weights n) : Weights n := fun i => if w i < -(1 / 10 ^ 10) then 0 else w i

/-- `np.clip(w, 0, 1)`. -/
def clip (w : Weights n) : Weights n := fun i => max 0 (min (w i) 1)

/-- The normalisation of the weights. -/
def normalise (w : Weights n) : Weights n :=
  if 1 / 10 ^ 9 < ∑ i, clip w i then fun i => clip w i / ∑ j, clip w j else clip w

/-- What the optimizer makes of the weights that the first solver returns. -/
def postProcess (w : Weights n) : Weights n := normalise (cutOff w)

/-! ## Reports -/

/-- The tolerance of the verdict. -/
def tolerance : ℚ := 1 / 10 ^ 5

section Root

variable (root : ℚ → NonnegRational)

/-- The check of a configured constraint. -/
def checkOf (assetIds : Fin n → String) (w : Weights n) (config : ConstraintConfig) :
    Except ConstraintError (List (String × ℚ)) := do
  let constraint ← buildConstraint config assetIds
  constraint.check (fun q => root q) w

/-- The relation of a configured constraint, at a weight vector. -/
def relationOf (assetIds : Fin n → String) (w : Weights n) (config : ConstraintConfig) :
    Except ConstraintError Bool := do
  let constraint ← buildConstraint config assetIds
  constraint.buildCvxpy (fun q => root q) w

/-- The reports of all constraints. -/
def reportsOf (configs : List ConstraintConfig) (assetIds : Fin n → String) (w : Weights n) :
    Except ConstraintError (List (List (String × ℚ))) :=
  configs.mapM (checkOf root assetIds w)

/-- The dictionary that the reports are merged into. -/
def violationsOf (reports : List (List (String × ℚ))) : List (String × ℚ) :=
  update [] reports.flatten

/-- The largest value of the dictionary, or zero. -/
def maxViolation (violations : List (String × ℚ)) : ℚ :=
  (violations.map Prod.snd).max?.getD 0

/-- `constraints_satisfied`. -/
def constraintsSatisfied (reports : List (List (String × ℚ))) : Bool :=
  maxViolation (violationsOf reports) < tolerance

/-! ## Figures -/

/-- `risk_contribution`. -/
def riskContributions (w : Weights n) (cov : Matrix (Fin n) (Fin n) ℚ) : Weights n :=
  let portRisk := (root (quadratic cov w)).val
  if portRisk < 1 / 10 ^ 12 then fun _ => 0
  else fun i => w i * Matrix.mulVec cov w i / portRisk

/-- The registered objective functions. -/
def objectiveValue (objective : Objective) (w mu : Weights n) (cov : Matrix (Fin n) (Fin n) ℚ)
    (riskAversion : ℚ) : Except OptimizeError ℚ :=
  match objective with
  | .minVariance => .ok (quadratic cov w)
  | .maxReturn => .ok (-dotProduct w mu)
  | .maxSharpe =>
      .ok (if quadratic cov w < 1 / 10 ^ 12 then 0
        else -(dotProduct w mu / (root (quadratic cov w)).val))
  | .riskParity => .ok (∑ i, (riskContributions root w cov i - 1 / n) ^ 2)
  | .maxUtility => .ok (-(dotProduct w mu - 1 / 2 * riskAversion * quadratic cov w))
  | .equalWeight => .ok 0
  | .other name => .error (.unknownObjective name)

/-! ## The optimizer -/

/-- The problem of a request: the values of the matrix, in the order of the table. -/
def OptimizationRequest.problem (request : OptimizationRequest n) : Problem n where
  objective := request.objective
  mu := request.expectedReturns
  cov := request.covariance.values
  riskAversion := request.riskAversion
  constraints := request.constraints
  assetIds := request.assetIds

/-- The weights of the fallback. -/
def Solvers.fallback (solvers : Solvers n) (problem : Problem n) : Outcome n :=
  let result := solvers.scipy problem
  ⟨result.weights, "scipy", result.status, result.solveTimeMs⟩

/-- The first step of `optimize`. What stating the constraints can raise does not depend on the
weights. -/
def solved (solvers : Solvers n) (preferCvxpy : Bool) (request : OptimizationRequest n) :
    Except OptimizeError (Outcome n) :=
  match request.objective with
  | .equalWeight => .ok ⟨fun _ => 1 / n, "equal_weight", "optimal", NonnegRational.zero⟩
  | .other name => .error (.unknownObjective name)
  | _ =>
      if preferCvxpy then
        match request.constraints.mapM (relationOf root request.assetIds fun _ => 0) with
        | .error error => .error (.constraint error)
        | .ok _ =>
            match solvers.cvxpy request.problem with
            | some (w, time) => .ok ⟨cutOff w, "cvxpy", "optimal", time⟩
            | none => .ok (solvers.fallback request.problem)
      else .ok (solvers.fallback request.problem)

/-- The result of a request, from the weights of the first step. -/
def resultOf (request : OptimizationRequest n) (outcome : Outcome n) :
    Except OptimizeError (OptimizationResult n) :=
  let w := normalise outcome.weights
  let mu := request.expectedReturns
  let cov := request.covariance.values
  let portRet := dotProduct w mu
  let portVar := quadratic cov w
  let portStd := root (max portVar 0)
  match reportsOf root request.constraints request.assetIds w with
  | .error error => .error (.constraint error)
  | .ok reports =>
      match objectiveValue root request.objective w mu cov request.riskAversion with
      | .error error => .error error
      | .ok value =>
          if nonneg : 0 ≤ portVar then
            .ok {
              assetIds := request.assetIds
              weights := w
              objectiveValue := value
              solverStatus := outcome.status
              solverUsed := outcome.solverUsed
              solveTimeMs := outcome.solveTimeMs
              portfolioVariance := ⟨portVar, nonneg⟩
              portfolioStd := portStd
              expectedReturn := portRet
              sharpeRatio := if 1 / 10 ^ 9 < portStd.val then some (portRet / portStd.val) else none
              riskContribution :=
                if 1 / 10 ^ 9 < portStd.val then some (riskContributions root w cov) else none
              constraintsSatisfied := constraintsSatisfied reports
              constraintViolations :=
                (violationsOf reports).filter fun violation => 1 / 10 ^ 9 < violation.2
              versionId := request.versionId }
          else .error (.validation "portfolio_variance")

/-- `optimize`. -/
def optimize (solvers : Solvers n) (preferCvxpy : Bool) (request : OptimizationRequest n) :
    Except OptimizeError (OptimizationResult n) := do
  let outcome ← solved root solvers preferCvxpy request
  resultOf root request outcome

/-! ## The verdict on the constraints -/

theorem maxViolation_lt_iff {violations : List (String × ℚ)} {bound : ℚ} (positive : 0 < bound) :
    maxViolation violations < bound ↔ ∀ violation ∈ violations, violation.2 < bound := by
  unfold maxViolation
  cases largest : (violations.map Prod.snd).max? with
  | none =>
      have empty := List.map_eq_nil_iff.mp (List.max?_eq_none_iff.mp largest)
      rw [empty]
      exact iff_of_true positive nofun
  | some top =>
      obtain ⟨member, greatest⟩ := List.max?_eq_some_iff.mp largest
      constructor
      · intro below violation listed
        exact (greatest _ (List.mem_map_of_mem listed)).trans_lt below
      · intro all
        obtain ⟨violation, listed, same⟩ := List.mem_map.mp member
        rw [Option.getD_some, ← same]
        exact all violation listed

theorem tolerance_pos : 0 < tolerance := by norm_num [tolerance]

/-- The verdict is about the last report under every name. -/
theorem constraintsSatisfied_iff (reports : List (List (String × ℚ))) :
    constraintsSatisfied reports = true ↔
      ∀ name value, assigned reports.flatten name = some value → value < tolerance := by
  rw [constraintsSatisfied, decide_eq_true_iff, maxViolation_lt_iff tolerance_pos]
  constructor
  · intro all name value last
    exact all (name, value) (mem_update_iff.mpr last)
  · rintro all ⟨name, value⟩ listed
    exact all name value (mem_update_iff.mp listed)

/-- The weights, the variance and the verdict of a result. -/
theorem resultOf_figures {request : OptimizationRequest n} {outcome : Outcome n}
    {result : OptimizationResult n} (returned : resultOf root request outcome = .ok result) :
    result.weights = normalise outcome.weights ∧
      result.portfolioVariance.val = quadratic request.covariance.values result.weights ∧
      ∃ reports, reportsOf root request.constraints request.assetIds result.weights =
        .ok reports ∧ result.constraintsSatisfied = constraintsSatisfied reports := by
  cases reported : reportsOf root request.constraints request.assetIds
      (normalise outcome.weights) with
  | error error =>
      simp only [resultOf, reported] at returned
      cases returned
  | ok reports =>
      simp only [resultOf, reported] at returned
      split at returned
      · cases returned
      · split at returned
        · cases returned
          exact ⟨rfl, rfl, reports, reported, rfl⟩
        · cases returned

/-- A verdict fails by a violation that is the last one reported under its name. -/
theorem not_constraintsSatisfied_iff (reports : List (List (String × ℚ))) :
    ¬ constraintsSatisfied reports = true ↔
      ∃ before entry after, reports.flatten = before ++ entry :: after ∧
        tolerance ≤ entry.2 ∧ ∀ later ∈ after, later.1 ≠ entry.1 := by
  rw [constraintsSatisfied_iff]
  constructor
  · intro violated
    push Not at violated
    obtain ⟨name, value, last, large⟩ := violated
    obtain ⟨before, after, split, silent⟩ := assigned_eq_some_iff.mp last
    exact ⟨before, (name, value), after, split, large, silent⟩
  · rintro ⟨before, entry, after, split, large, silent⟩ all
    exact absurd (all entry.1 entry.2 (assigned_eq_some_iff.mpr ⟨before, after, split, silent⟩))
      (not_lt.mpr large)

/-- If nothing at the tolerance or above is reported, the verdict is positive. -/
theorem constraintsSatisfied_of_small {reports : List (List (String × ℚ))}
    (small : ∀ entry ∈ reports.flatten, entry.2 < tolerance) :
    constraintsSatisfied reports = true := by
  by_contra violated
  obtain ⟨before, entry, after, split, large, -⟩ := (not_constraintsSatisfied_iff reports).mp violated
  refine absurd (small entry ?_) (not_lt.mpr large)
  rw [split]
  exact List.mem_append_right _ List.mem_cons_self

/-- Every check reports small violations exactly if all entries of the reports are small. -/
theorem forall_checks_iff {configs : List ConstraintConfig} {assetIds : Fin n → String}
    {w : Weights n} {reports : List (List (String × ℚ))}
    (reported : reportsOf root configs assetIds w = .ok reports) :
    (∀ config ∈ configs, ∃ entries, checkOf root assetIds w config = .ok entries ∧
        ∀ entry ∈ entries, entry.2 < tolerance) ↔
      ∀ entry ∈ reports.flatten, entry.2 < tolerance := by
  rw [← exists_mapM_iff, ← reportsOf, reported]
  simp only [Except.ok.injEq, exists_eq_left', List.mem_flatten]
  exact ⟨fun all entry ⟨report, listed, member⟩ => all report listed entry member,
    fun all report listed entry member => all entry ⟨report, listed, member⟩⟩

/-- **The verdict of the optimizer is that every configured constraint reports violations below
the tolerance, if and only if some violation at the tolerance or above is the last one reported
under its name, or there is none.** -/
theorem satisfied_agrees_iff (configs : List ConstraintConfig) (assetIds : Fin n → String)
    (w : Weights n) {reports : List (List (String × ℚ))}
    (reported : reportsOf root configs assetIds w = .ok reports) :
    (constraintsSatisfied reports = true ↔
        ∀ config ∈ configs, ∃ entries, checkOf root assetIds w config = .ok entries ∧
          ∀ entry ∈ entries, entry.2 < tolerance) ↔
      ((∃ entry ∈ reports.flatten, tolerance ≤ entry.2) →
        ∃ before entry after, reports.flatten = before ++ entry :: after ∧
          tolerance ≤ entry.2 ∧ ∀ later ∈ after, later.1 ≠ entry.1) := by
  have found : (∃ entry ∈ reports.flatten, tolerance ≤ entry.2) ↔
      ¬ ∀ entry ∈ reports.flatten, entry.2 < tolerance := by
    push Not
    exact Iff.rfl
  rw [forall_checks_iff root reported, found, ← not_constraintsSatisfied_iff]
  constructor
  · intro agree violated satisfied
    exact violated (agree.mp satisfied)
  · intro loud
    refine ⟨fun satisfied => ?_, constraintsSatisfied_of_small⟩
    by_contra violated
    exact loud violated satisfied

end Root

/-- A square root that is always zero. -/
def noRoot : ℚ → NonnegRational := fun _ => NonnegRational.zero

/-- The default constraints, at two equal weights. -/
theorem satisfied_agrees_default :
    (constraintsSatisfied [[("sum_to_one", 0)], [("long_only", 0)]] = true ↔
        ∀ config ∈ [⟨.sumToOne, {}⟩, ⟨.longOnly, {}⟩],
          ∃ entries, checkOf noRoot ![("A" : String), "B"] ![1 / 2, 1 / 2] config = .ok entries ∧
            ∀ entry ∈ entries, entry.2 < tolerance) ↔
      ((∃ entry ∈ [[(("sum_to_one" : String), (0 : ℚ))], [("long_only", 0)]].flatten,
          tolerance ≤ entry.2) →
        ∃ before entry after, [[("sum_to_one", 0)], [("long_only", 0)]].flatten =
          before ++ entry :: after ∧ tolerance ≤ entry.2 ∧ ∀ later ∈ after, later.1 ≠ entry.1) :=
  satisfied_agrees_iff noRoot _ _ _ (by with_unfolding_all decide)

/-- A cap of three tenths on every weight, and a looser one after it. -/
def twoCaps : List ConstraintConfig :=
  [⟨.maxWeight, { limit := some (3 / 10) }⟩, ⟨.maxWeight, { limit := some (9 / 10) }⟩]

/-- Two equal weights break the first cap by one fifth; the second cap reports nothing under the
same name, and the verdict is that all constraints are satisfied. -/
theorem twoCaps_satisfied :
    reportsOf noRoot twoCaps ![("A" : String), "B"] ![1 / 2, 1 / 2] =
        .ok [[("max_weight", 1 / 5)], [("max_weight", 0)]] ∧
      constraintsSatisfied [[("max_weight", 1 / 5)], [("max_weight", 0)]] = true ∧
      ¬ ∀ config ∈ twoCaps,
        ∃ entries, checkOf noRoot ![("A" : String), "B"] ![1 / 2, 1 / 2] config = .ok entries ∧
          ∀ entry ∈ entries, entry.2 < tolerance := by
  refine ⟨by with_unfolding_all decide, by with_unfolding_all decide, fun all => ?_⟩
  obtain ⟨entries, reported, below⟩ := all _ List.mem_cons_self
  have first : checkOf noRoot ![("A" : String), "B"] ![1 / 2, 1 / 2]
      ⟨.maxWeight, { limit := some (3 / 10) }⟩ = .ok [("max_weight", 1 / 5)] := by
    with_unfolding_all decide
  cases first.symm.trans reported
  exact absurd (below _ List.mem_cons_self) (by norm_num [tolerance])

end TradeOS.Research
