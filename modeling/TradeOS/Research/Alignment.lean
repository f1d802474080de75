import TradeOS.Research.Normalisation

/-!
# Covariances by label and by position

The rows and columns of a covariance matrix are labelled with assets, in any order. A request is
accepted if the labels are those of the expected returns; the optimizer then takes the values by
position. The variance that it reports is the one by label, whatever the solver finds, exactly if
the matrix and the labelled matrix have the same symmetric part. The same table in another order
gives the same results exactly if it has the same values by position (`figures_byLabel_iff`).
-/

set_option autoImplicit false

namespace TradeOS.Research

open Matrix

variable {n : ℕ}

/-! ## Quadratic forms -/

theorem quadratic_eq_sum (cov : Matrix (Fin n) (Fin n) ℚ) (w : Weights n) :
    quadratic cov w = ∑ i, ∑ j, w i * w j * cov i j := by
  unfold quadratic dotProduct mulVec dotProduct
  refine Finset.sum_congr rfl fun i _ => ?_
  rw [Finset.mul_sum]
  exact Finset.sum_congr rfl fun j _ => by ring

theorem quadratic_add (cov cov' : Matrix (Fin n) (Fin n) ℚ) (w : Weights n) :
    quadratic (cov + cov') w = quadratic cov w + quadratic cov' w := by
  rw [quadratic, add_mulVec, dotProduct_add]
  rfl

theorem quadratic_transpose (cov : Matrix (Fin n) (Fin n) ℚ) (w : Weights n) :
    quadratic covᵀ w = quadratic cov w := by
  rw [quadratic, mulVec_transpose, dotProduct_comm, ← dotProduct_mulVec]
  rfl

/-- The form depends on the symmetric part of the matrix only. -/
theorem quadratic_congr {cov cov' : Matrix (Fin n) (Fin n) ℚ}
    (same : cov + covᵀ = cov' + cov'ᵀ) (w : Weights n) : quadratic cov w = quadratic cov' w := by
  have twice := congrArg (fun sum => quadratic sum w) same
  simp only [quadratic_add, quadratic_transpose] at twice
  linarith

/-- Half of the weight on one asset and half on another, or all of it on one. -/
def halves (i j : Fin n) : Weights n := (1 / 2 : ℚ) • (Pi.single i 1 + Pi.single j 1)

theorem quadratic_halves (cov : Matrix (Fin n) (Fin n) ℚ) (i j : Fin n) :
    quadratic cov (halves i j) = (cov i i + cov i j + (cov j i + cov j j)) / 4 := by
  unfold quadratic halves
  simp only [mulVec_smul, mulVec_add, mulVec_single_one, smul_dotProduct, dotProduct_smul,
    add_dotProduct, dotProduct_add, single_one_dotProduct, col_apply, smul_eq_mul]
  ring

/-- The values of the form at all halves determine the symmetric part. -/
theorem symmetricPart_eq {cov cov' : Matrix (Fin n) (Fin n) ℚ}
    (same : ∀ i j, quadratic cov (halves i j) = quadratic cov' (halves i j)) :
    cov + covᵀ = cov' + cov'ᵀ := by
  have values : ∀ i j, cov i i + cov i j + (cov j i + cov j j) =
      cov' i i + cov' i j + (cov' j i + cov' j j) := by
    intro i j
    have equal := same i j
    rw [quadratic_halves, quadratic_halves] at equal
    linarith
  ext i j
  rw [Matrix.add_apply, Matrix.add_apply, transpose_apply, transpose_apply]
  linarith [values i j, values i i, values j j]

theorem halves_nonneg (i j k : Fin n) : 0 ≤ halves i j k := by
  unfold halves
  have unit : ∀ l, (0 : ℚ) ≤ (Pi.single l 1 : Weights n) k := fun l => by
    rw [Pi.single_apply]
    split_ifs <;> norm_num
  exact mul_nonneg (by norm_num) (add_nonneg (unit i) (unit j))

/-- All of the weight on one asset tells which one. -/
theorem halves_self_injective {i j : Fin n} (same : halves i i = halves j j) : i = j := by
  by_contra other
  have here := congrFun same i
  simp only [halves, Pi.smul_apply, Pi.add_apply, Pi.single_eq_same, Pi.single_eq_of_ne other,
    smul_eq_mul] at here
  norm_num at here

theorem sum_halves (i j : Fin n) : ∑ k, halves i j k = 1 := by
  unfold halves
  simp only [Pi.smul_apply, Pi.add_apply, smul_eq_mul, ← Finset.mul_sum, Finset.sum_add_distrib,
    Finset.sum_pi_single', Finset.mem_univ, if_true]
  norm_num

theorem normalise_halves (i j : Fin n) : normalise (halves i j) = halves i j :=
  (normalise_eq_self_iff _).mpr ⟨halves_nonneg i j, .inl (sum_halves i j)⟩

/-! ## Requests without constraints -/

section Root

variable (root : ℚ → NonnegRational)

/-- A request for the minimal variance, without constraints. -/
def freeRequest (assetIds : Fin n → String) (frame : CovarianceFrame n) :
    OptimizationRequest n where
  assetIds := assetIds
  expectedReturns := 0
  covariance := frame
  constraints := []

/-- A first solver that finds an optimum at once. -/
def instantSolvers (found : Problem n → Weights n) : Solvers n where
  cvxpy := fun problem => some (found problem, NonnegRational.zero)
  scipy := fun problem => ⟨found problem, "optimal", NonnegRational.zero⟩

theorem optimize_freeRequest (assetIds : Fin n → String) (frame : CovarianceFrame n)
    (found : Problem n → Weights n) {w : Weights n}
    (finds : normalise (found (freeRequest assetIds frame).problem) = w) :
    ∃ result, optimize root (instantSolvers found) true (freeRequest assetIds frame) =
      .ok result ∧ result.weights = w := by
  have kept : normalise (cutOff (found (freeRequest assetIds frame).problem)) = w :=
    (postProcess_eq_normalise _).trans finds
  have nonneg := frame.semidefinite w
  rw [← kept] at nonneg
  refine ⟨_, dif_pos nonneg, kept⟩

/-! ## Figures by asset -/

/-- The optimizer reads the values of a table only. -/
theorem optimize_congr (solvers : Solvers n) (preferCvxpy : Bool)
    (request : OptimizationRequest n) {frame : CovarianceFrame n}
    (same : frame.values = request.covariance.values) :
    optimize root solvers preferCvxpy { request with covariance := frame } =
      optimize root solvers preferCvxpy request := by
  obtain ⟨assetIds, mu, ⟨index, columns, values, symmetric, semidefinite⟩, objective, lam,
    constraints, version⟩ := request
  obtain ⟨index', columns', values', symmetric', semidefinite'⟩ := frame
  cases same
  rfl

/-- The reported variance is the form of the values by position. -/
theorem variance_of_optimize {solvers : Solvers n} {preferCvxpy : Bool}
    {request : OptimizationRequest n} {result : OptimizationResult n}
    (returned : optimize root solvers preferCvxpy request = .ok result) :
    result.portfolioVariance.val = quadratic request.covariance.values result.weights := by
  obtain ⟨outcome, -, figures⟩ := bind_eq_ok_iff.mp returned
  exact (resultOf_figures root figures).2.1

/-- A table in one order has the values of another, if no solver tells them apart: with one asset
there is one order, and with two a solver may put all weight on the one or on the other. -/
theorem values_eq_of_optimize (assetIds : Fin n → String) {frame frame' : CovarianceFrame n}
    (reordered : frame'.byLabel = frame.byLabel)
    (same : ∀ solvers, optimize root solvers true (freeRequest assetIds frame') =
      optimize root solvers true (freeRequest assetIds frame)) :
    frame'.values = frame.values := by
  classical
  rcases subsingleton_or_nontrivial (Fin n) with single | several
  · ext i j
    have label := congrFun (congrFun reordered i) j
    rwa [CovarianceFrame.byLabel, CovarianceFrame.byLabel,
      Subsingleton.elim (frame'.index.symm i) i, Subsingleton.elim (frame'.columns.symm j) j,
      Subsingleton.elim (frame.index.symm i) i, Subsingleton.elim (frame.columns.symm j) j]
      at label
  · obtain ⟨i, j, distinct⟩ := exists_pair_ne (Fin n)
    by_contra differ
    let found : Problem n → Weights n := fun problem =>
      if problem.cov = frame.values then halves i i else halves j j
    have first : found (freeRequest assetIds frame).problem = halves i i := if_pos rfl
    have second : found (freeRequest assetIds frame').problem = halves j j := if_neg differ
    obtain ⟨result, returned, weights⟩ := optimize_freeRequest root assetIds frame found
      ((congrArg normalise first).trans (normalise_halves i i))
    obtain ⟨result', returned', weights'⟩ := optimize_freeRequest root assetIds frame' found
      ((congrArg normalise second).trans (normalise_halves j j))
    have equal := (returned'.symm.trans (same _)).trans returned
    rw [Except.ok.injEq] at equal
    rw [equal, weights] at weights'
    exact distinct (halves_self_injective weights')

/-- **The variance of every result is the variance by label, and a table with the same labelled
values in another order gives the same results, if and only if the values by position and by label
have the same symmetric part, and the two tables have the same values by position.** -/
theorem figures_byLabel_iff (assetIds : Fin n → String) {frame frame' : CovarianceFrame n}
    (reordered : frame'.byLabel = frame.byLabel) :
    (∀ solvers preferCvxpy request, request.assetIds = assetIds → request.covariance = frame →
        (∀ result, optimize root solvers preferCvxpy request = .ok result →
          result.portfolioVariance.val =
            ∑ i, ∑ j, result.weights i * result.weights j * frame.byLabel i j) ∧
        optimize root solvers preferCvxpy { request with covariance := frame' } =
          optimize root solvers preferCvxpy request) ↔
      frame.values + frame.valuesᵀ = frame.byLabel + frame.byLabelᵀ ∧
        frame'.values = frame.values := by
  constructor
  · intro figures
    refine ⟨symmetricPart_eq fun i j => ?_, values_eq_of_optimize root assetIds reordered ?_⟩
    · obtain ⟨result, returned, weights⟩ := optimize_freeRequest root assetIds frame
        (fun _ => halves i j) (normalise_halves i j)
      have byLabel := (figures _ true _ rfl rfl).1 result returned
      rw [variance_of_optimize root returned, ← quadratic_eq_sum, weights] at byLabel
      exact byLabel
    · exact fun solvers => (figures solvers true (freeRequest assetIds frame) rfl rfl).2
  · rintro ⟨symmetric, positions⟩ solvers preferCvxpy request - rfl
    refine ⟨fun result returned => ?_, optimize_congr root solvers preferCvxpy request positions⟩
    rw [variance_of_optimize root returned, ← quadratic_eq_sum]
    exact quadratic_congr symmetric _

end Root

/-! ## Uncorrelated assets -/

theorem diagonal_symmetric (d : Fin n → ℚ) (i j : Fin n) :
    |diagonal d i j - diagonal d j i| ≤ 1 / 10 ^ 9 := by
  rw [← transpose_apply (diagonal d) i j, diagonal_transpose, sub_self, abs_zero]
  norm_num

theorem diagonal_semidefinite (d : Fin n → NonnegRational) (x : Weights n) :
    0 ≤ quadratic (diagonal fun i => (d i).val) x := by
  unfold quadratic dotProduct
  refine Finset.sum_nonneg fun i _ => ?_
  rw [mulVec_diagonal, mul_left_comm]
  exact mul_nonneg (d i).property (mul_self_nonneg (x i))

/-- The table of uncorrelated assets, in an order. -/
def diagonalTable (d : Fin n → NonnegRational) (order : Equiv.Perm (Fin n)) :
    CovarianceFrame n where
  index := order
  columns := order
  values := diagonal fun k => (d (order k)).val
  symmetric := diagonal_symmetric _
  semidefinite := diagonal_semidefinite _

/-- The labelled values do not depend on the order. -/
theorem byLabel_diagonalTable (d : Fin n → NonnegRational) (order : Equiv.Perm (Fin n)) :
    (diagonalTable d order).byLabel = diagonal fun i => (d i).val := by
  ext i j
  simp only [CovarianceFrame.byLabel, diagonalTable, diagonal_apply,
    EmbeddingLike.apply_eq_iff_eq, Equiv.apply_symm_apply]

/-- The variances one and four. -/
def oneAndFour : Fin 2 → NonnegRational := ![⟨1, by norm_num⟩, ⟨4, by norm_num⟩]

/-- The tables of two uncorrelated assets in both orders. -/
theorem figures_byLabel_diagonal :
    (∀ solvers preferCvxpy request, request.assetIds = ![("A" : String), "B"] →
        request.covariance = diagonalTable oneAndFour (Equiv.refl _) →
        (∀ result, optimize noRoot solvers preferCvxpy request = .ok result →
          result.portfolioVariance.val = ∑ i, ∑ j, result.weights i * result.weights j *
            (diagonalTable oneAndFour (Equiv.refl _)).byLabel i j) ∧
        optimize noRoot solvers preferCvxpy
            { request with covariance := diagonalTable oneAndFour (Equiv.swap 0 1) } =
          optimize noRoot solvers preferCvxpy request) ↔
      (diagonalTable oneAndFour (Equiv.refl _)).values +
            (diagonalTable oneAndFour (Equiv.refl _)).valuesᵀ =
          (diagonalTable oneAndFour (Equiv.refl _)).byLabel +
            (diagonalTable oneAndFour (Equiv.refl _)).byLabelᵀ ∧
        (diagonalTable oneAndFour (Equiv.swap 0 1)).values =
          (diagonalTable oneAndFour (Equiv.refl _)).values :=
  figures_byLabel_iff noRoot _
    ((byLabel_diagonalTable _ _).trans (byLabel_diagonalTable _ _).symm)

/-- All weight is on the asset of variance one. The variance is one by label, and where the table
lists this asset first; where the table lists it second, the optimizer reports four. -/
theorem swapped_variance :
    (diagonalTable oneAndFour (Equiv.swap 0 1)).byLabel =
        (diagonalTable oneAndFour (Equiv.refl _)).byLabel ∧
      ∑ i, ∑ j, (![1, 0] : Weights 2) i * (![1, 0] : Weights 2) j *
        (diagonalTable oneAndFour (Equiv.swap 0 1)).byLabel i j = 1 ∧
      (optimize noRoot (instantSolvers fun _ => ![1, 0]) true
          (freeRequest ![("A" : String), "B"]
            (diagonalTable oneAndFour (Equiv.refl _)))).toOption.map
        (fun result => (result.weights, result.portfolioVariance.val)) = some (![1, 0], 1) ∧
      (optimize noRoot (instantSolvers fun _ => ![1, 0]) true
          (freeRequest ![("A" : String), "B"]
            (diagonalTable oneAndFour (Equiv.swap 0 1)))).toOption.map
        (fun result => (result.weights, result.portfolioVariance.val)) = some (![1, 0], 4) := by
  with_unfolding_all decide

end TradeOS.Research
