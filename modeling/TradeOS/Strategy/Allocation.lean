import TradeOS.Data.Dictionary
import TradeOS.Data.Validation
import Mathlib.Algebra.BigOperators.Field
import Mathlib.Algebra.Order.BigOperators.Group.Finset
import Mathlib.Algebra.Order.BigOperators.Group.List
import Mathlib.Tactic.FieldSimp
import Mathlib.Tactic.Linarith
import Mathlib.Tactic.Positivity

/-!
# The weights of a portfolio

Every allocator gives each strategy a score and divides it by the sum of the scores: one for
equal weights, the inverse of the volatility, or the information ratio (`allocate_eq`). The sum
is over the list of ids, and the shares are stored by id, where an id that is repeated has one
share only. The shares add up to one exactly if no repeated id has a score
(`sum_shares_eq_one_iff`).

Risk parity asks an optimizer first. The module it imports for this does not exist, and so the
weights are the ones by inverse volatility.
-/

set_option autoImplicit false

namespace TradeOS.Strategy

open Dictionary

/-! ## The allocators -/

/-- What is known of a strategy. -/
structure StrategyMetrics where
  annualizedVol : Option ℚ := none
  ir : Option ℚ := none

/-- `strategy_metrics`, by the ids of strategies. -/
abbrev MetricsTable := String → Option StrategyMetrics

/-- `metrics.get("annualized_vol", 0.01)`. -/
def MetricsTable.volatility (table : MetricsTable) (sid : String) : ℚ :=
  ((table sid).bind StrategyMetrics.annualizedVol).getD (1 / 100)

/-- `metrics.get("ir", 0.0)`. -/
def MetricsTable.informationRatio (table : MetricsTable) (sid : String) : ℚ :=
  ((table sid).bind StrategyMetrics.ir).getD 0

/-- One weight for every id. -/
def equalWeights (strategyIds : List String) : List (String × ℚ) :=
  update [] (strategyIds.map fun sid => (sid, 1 / (strategyIds.length : ℚ)))

/-- `EqualWeightAllocator.allocate`. -/
def equalAllocate (strategyIds : List String) : List (String × ℚ) :=
  if strategyIds.isEmpty then [] else equalWeights strategyIds

/-- `InverseVolWeightAllocator.allocate`. -/
def inverseVolAllocate (strategyIds : List String) (strategyMetrics : Option MetricsTable) :
    List (String × ℚ) :=
  if strategyIds.isEmpty then []
  else
    match strategyMetrics with
    | none => equalWeights strategyIds
    | some table =>
        let invVols := strategyIds.map fun sid => 1 / max (table.volatility sid) (1 / 1000)
        let total := invVols.sum
        update [] ((strategyIds.zip invVols).map fun (sid, invVol) =>
          (sid, if 0 < total then invVol / total else 1 / (strategyIds.length : ℚ)))

/-- `IRWeightAllocator.allocate`. -/
def irAllocate (strategyIds : List String) (strategyMetrics : Option MetricsTable) :
    List (String × ℚ) :=
  if strategyIds.isEmpty then []
  else
    match strategyMetrics with
    | none => equalWeights strategyIds
    | some table =>
        let irScores := strategyIds.map fun sid => max (table.informationRatio sid) 0
        let total := irScores.sum
        if total = 0 then equalWeights strategyIds
        else update [] ((strategyIds.zip irScores).map fun (sid, score) => (sid, score / total))

/-- `_try_phase4b_optimize`: the import of `core.research.portfolio.schemas` fails. -/
def tryPhase4bOptimize (_strategyIds : List String) (_strategyMetrics : Option MetricsTable) :
    Option (List (String × ℚ)) :=
  none

/-- `RiskParityWeightAllocator.allocate`. -/
def riskParityAllocate (strategyIds : List String) (strategyMetrics : Option MetricsTable) :
    List (String × ℚ) :=
  if strategyIds.isEmpty then []
  else
    (tryPhase4bOptimize strategyIds strategyMetrics).getD
      (inverseVolAllocate strategyIds strategyMetrics)

/-- The allocators. -/
inductive WeightAllocator where
  | equal
  | inverseVol
  | ir
  | riskParity
  deriving DecidableEq

/-- `allocate`. -/
def WeightAllocator.allocate (allocator : WeightAllocator) (strategyIds : List String)
    (strategyMetrics : Option MetricsTable) : List (String × ℚ) :=
  match allocator with
  | .equal => equalAllocate strategyIds
  | .inverseVol => inverseVolAllocate strategyIds strategyMetrics
  | .ir => irAllocate strategyIds strategyMetrics
  | .riskParity => riskParityAllocate strategyIds strategyMetrics

/-- What an allocation can raise. -/
inductive AllocationError where
  | valueError (message : String)
  | validation (error : RunError)
  deriving DecidableEq

/-- `make_allocator`. -/
def makeAllocator (method : String) : Except AllocationError WeightAllocator :=
  if method = "equal" then .ok .equal
  else if method = "inverse_vol" then .ok .inverseVol
  else if method = "ir" then .ok .ir
  else if method = "risk_parity" then .ok .riskParity
  else .error (.valueError ("Unknown weight method: " ++ method))

/-- The weight of a strategy in a portfolio. -/
structure StrategyWeight where
  strategyId : String
  weight : UnitRational
  weightMethod : String

/-- The checks of a `StrategyWeight`. -/
def makeStrategyWeight (method : String) (entry : String × ℚ) :
    Except AllocationError StrategyWeight :=
  match check "weight" entry.2 with
  | .error error => .error (.validation error)
  | .ok weight => .ok ⟨entry.1, weight, method⟩

/-- `allocate_portfolio_weights`. -/
def allocatePortfolioWeights (strategyIds : List String) (method : String)
    (strategyMetrics : Option MetricsTable) : Except AllocationError (List StrategyWeight) := do
  let allocator ← makeAllocator method
  (allocator.allocate strategyIds strategyMetrics).mapM (makeStrategyWeight method)

/-! ## Shares -/

section Shares

variable {ids : List String} {score : String → ℚ}

/-- The shares of a list of ids in the sum of their scores, stored by id. -/
def shares (ids : List String) (score : String → ℚ) : List (String × ℚ) :=
  update [] (ids.map fun sid => (sid, score sid / (ids.map score).sum))

/-- A dictionary that is made from a list of ids has one value for each of them. -/
theorem sum_update_map (f : String → ℚ) :
    ((update [] (ids.map fun sid => (sid, f sid))).map Prod.snd).sum =
      ∑ sid ∈ ids.toFinset, f sid := by
  have keys := List.Nodup.of_map _ (nodup_update (ids.map fun sid => (sid, f sid)))
  have distinct : (ids.dedup.map fun sid => (sid, f sid)).Nodup :=
    ids.nodup_dedup.map fun _ _ same => (Prod.mk.inj same).1
  have entries : (update [] (ids.map fun sid => (sid, f sid))).Perm
      (ids.dedup.map fun sid => (sid, f sid)) := by
    refine (List.perm_ext_iff_of_nodup keys distinct).mpr fun ⟨sid, value⟩ => ?_
    rw [mem_update_map_iff, List.mem_map, ← List.mem_dedup]
    constructor
    · rintro ⟨member, rfl⟩
      exact ⟨sid, member, rfl⟩
    · rintro ⟨other, member, same⟩
      cases same
      exact ⟨member, rfl⟩
  have same : ids.dedup.toFinset = ids.toFinset := List.toFinset.ext fun sid => List.mem_dedup
  rw [(entries.map Prod.snd).sum_eq, List.map_map, ← same, List.sum_toFinset _ ids.nodup_dedup]
  rfl

/-- The shares of ids of which one has a score add up to one exactly if no repeated id has a
score. -/
theorem sum_shares_eq_one_iff (nonneg : ∀ sid, 0 ≤ score sid) (total : 0 < (ids.map score).sum) :
    ((shares ids score).map Prod.snd).sum = 1 ↔ ∀ sid, 2 ≤ ids.count sid → score sid = 0 := by
  have counted : (ids.map score).sum = ∑ sid ∈ ids.toFinset, ids.count sid • score sid :=
    Finset.sum_list_map_count ids score
  have rest : ∀ sid ∈ ids.toFinset, 0 ≤ ids.count sid • score sid - score sid := by
    intro sid member
    have once : (1 : ℚ) ≤ ids.count sid :=
      Nat.one_le_cast.mpr (List.one_le_count_iff.mpr (List.mem_toFinset.mp member))
    rw [nsmul_eq_mul, ← sub_one_mul]
    exact mul_nonneg (sub_nonneg.mpr once) (nonneg sid)
  rw [shares, sum_update_map, ← Finset.sum_div, div_eq_one_iff_eq total.ne', eq_comm, counted,
    ← sub_eq_zero, ← Finset.sum_sub_distrib, Finset.sum_eq_zero_iff_of_nonneg rest]
  constructor
  · intro zero sid twice
    have member : sid ∈ ids := List.count_pos_iff.mp (by omega)
    have extra := zero sid (List.mem_toFinset.mpr member)
    rw [nsmul_eq_mul, ← sub_one_mul, mul_eq_zero] at extra
    refine extra.resolve_left fun once => ?_
    have more : (2 : ℚ) ≤ ids.count sid := by exact_mod_cast twice
    linarith
  · intro idle sid member
    have once := List.one_le_count_iff.mpr (List.mem_toFinset.mp member)
    rcases Nat.lt_or_ge 1 (ids.count sid) with twice | single
    · rw [idle sid twice, nsmul_zero, sub_zero]
    · rw [le_antisymm single once, one_nsmul, sub_self]

end Shares

/-! ## Scores -/

/-- The score that an allocator gives a strategy. -/
def WeightAllocator.score (allocator : WeightAllocator) (strategyIds : List String)
    (strategyMetrics : Option MetricsTable) (sid : String) : ℚ :=
  match allocator, strategyMetrics with
  | .equal, _ => 1
  | _, none => 1
  | .ir, some table =>
      if (strategyIds.map fun sid => max (table.informationRatio sid) 0).sum = 0 then 1
      else max (table.informationRatio sid) 0
  | _, some table => 1 / max (table.volatility sid) (1 / 1000)

section Scores

variable {strategyIds : List String}

theorem zip_map_self (f : String → ℚ) (g : String × ℚ → String × ℚ) :
    (strategyIds.zip (strategyIds.map f)).map g = strategyIds.map fun sid => g (sid, f sid) := by
  induction strategyIds with
  | nil => rfl
  | cons sid rest ih => rw [List.map_cons, List.zip_cons_cons, List.map_cons, ih, List.map_cons]

/-- Equal weights are the shares of equal scores. -/
theorem equalWeights_eq (strategyIds : List String) :
    equalWeights strategyIds = shares strategyIds fun _ => 1 := by
  unfold equalWeights shares
  rw [List.map_const', List.sum_replicate, nsmul_eq_mul, mul_one]

theorem ones_sum_pos (nonempty : strategyIds ≠ []) :
    0 < (strategyIds.map fun _ => (1 : ℚ)).sum := by
  rw [List.map_const', List.sum_replicate, nsmul_eq_mul, mul_one]
  exact Nat.cast_pos.mpr (List.length_pos_iff.mpr nonempty)

theorem inverseVol_pos (table : MetricsTable) (sid : String) :
    0 < 1 / max (table.volatility sid) (1 / 1000) := by
  have floor : (0 : ℚ) < max (table.volatility sid) (1 / 1000) :=
    lt_max_of_lt_right (by norm_num)
  positivity

theorem inverseVol_sum_pos (nonempty : strategyIds ≠ []) (table : MetricsTable) :
    0 < (strategyIds.map fun sid => 1 / max (table.volatility sid) (1 / 1000)).sum := by
  refine List.sum_pos _ (fun x member => ?_) (by simpa using nonempty)
  obtain ⟨sid, -, rfl⟩ := List.mem_map.mp member
  exact inverseVol_pos table sid

theorem ir_nonneg (table : MetricsTable) :
    ∀ x ∈ strategyIds.map fun sid => max (table.informationRatio sid) 0, 0 ≤ x := by
  intro x member
  obtain ⟨sid, -, rfl⟩ := List.mem_map.mp member
  exact le_max_right _ _

/-- No strategy has a positive information ratio exactly if the scores vanish. -/
theorem ir_sum_eq_zero_iff {table : MetricsTable} :
    (strategyIds.map fun sid => max (table.informationRatio sid) 0).sum = 0 ↔
      ∀ sid ∈ strategyIds, table.informationRatio sid ≤ 0 := by
  constructor
  · intro zero sid member
    have part := List.single_le_sum (ir_nonneg table) _ (List.mem_map_of_mem member)
    exact (le_max_left _ _).trans (part.trans zero.le)
  · intro none
    refine List.sum_eq_zero fun x member => ?_
    obtain ⟨sid, there, rfl⟩ := List.mem_map.mp member
    exact max_eq_right (none sid there)

/-- **The weights of an allocator are the shares of its scores.** -/
theorem allocate_eq (nonempty : strategyIds ≠ []) (allocator : WeightAllocator)
    (strategyMetrics : Option MetricsTable) :
    allocator.allocate strategyIds strategyMetrics =
      shares strategyIds (allocator.score strategyIds strategyMetrics) := by
  have filled : strategyIds.isEmpty = false := List.isEmpty_eq_false_iff.mpr nonempty
  have inverse : inverseVolAllocate strategyIds strategyMetrics =
      shares strategyIds (WeightAllocator.inverseVol.score strategyIds strategyMetrics) := by
    unfold inverseVolAllocate
    rw [filled, if_neg Bool.false_ne_true]
    cases strategyMetrics with
    | none => exact equalWeights_eq strategyIds
    | some table =>
        simp only [zip_map_self, if_pos (inverseVol_sum_pos nonempty table)]
        rfl
  cases allocator with
  | equal =>
      refine Eq.trans ?_ (equalWeights_eq strategyIds)
      unfold WeightAllocator.allocate equalAllocate
      rw [filled, if_neg Bool.false_ne_true]
  | inverseVol => exact inverse
  | riskParity =>
      have same : WeightAllocator.riskParity.score strategyIds strategyMetrics =
          WeightAllocator.inverseVol.score strategyIds strategyMetrics := by
        cases strategyMetrics <;> rfl
      rw [same, ← inverse]
      unfold WeightAllocator.allocate riskParityAllocate
      rw [filled, if_neg Bool.false_ne_true]
      rfl
  | ir =>
      unfold WeightAllocator.allocate irAllocate
      rw [filled, if_neg Bool.false_ne_true]
      cases strategyMetrics with
      | none => exact equalWeights_eq strategyIds
      | some table =>
          unfold WeightAllocator.score
          simp only
          split_ifs with zero
          · exact equalWeights_eq strategyIds
          · rw [zip_map_self]
            rfl

/-- The scores are not negative, and one of them is positive. -/
theorem score_spec (nonempty : strategyIds ≠ []) (allocator : WeightAllocator)
    (strategyMetrics : Option MetricsTable) :
    (∀ sid, 0 ≤ allocator.score strategyIds strategyMetrics sid) ∧
      0 < (strategyIds.map (allocator.score strategyIds strategyMetrics)).sum := by
  have ones : (∀ _ : String, (0 : ℚ) ≤ 1) ∧ 0 < (strategyIds.map fun _ => (1 : ℚ)).sum :=
    ⟨fun _ => zero_le_one, ones_sum_pos nonempty⟩
  cases strategyMetrics with
  | none => cases allocator <;> exact ones
  | some table =>
      have inverse : (∀ sid, 0 ≤ 1 / max (table.volatility sid) (1 / 1000)) ∧
          0 < (strategyIds.map fun sid => 1 / max (table.volatility sid) (1 / 1000)).sum :=
        ⟨fun sid => (inverseVol_pos table sid).le, inverseVol_sum_pos nonempty table⟩
      cases allocator with
      | equal => exact ones
      | inverseVol => exact inverse
      | riskParity => exact inverse
      | ir =>
          unfold WeightAllocator.score
          simp only
          split_ifs with zero
          · exact ones
          · exact ⟨fun sid => le_max_right _ _,
              lt_of_le_of_ne (List.sum_nonneg (ir_nonneg table)) (Ne.symm zero)⟩

end Scores

/-! ## Weightings -/

/-- The weights of a list of ids are defined for each of them, not negative, and add up to
one. -/
structure Weighting (strategyIds : List String) (weights : List (String × ℚ)) : Prop where
  defined : ∀ sid ∈ strategyIds, ∃ weight, (sid, weight) ∈ weights
  nonneg : ∀ entry ∈ weights, 0 ≤ entry.2
  total : (weights.map Prod.snd).sum = 1

/-- The allocator of a method returns a weighting, and `allocate_portfolio_weights` returns it
too. -/
def ReturnsWeighting (method : String) (strategyIds : List String)
    (strategyMetrics : Option MetricsTable) : Prop :=
  ∃ allocator listed, makeAllocator method = .ok allocator ∧
    Weighting strategyIds (allocator.allocate strategyIds strategyMetrics) ∧
    allocatePortfolioWeights strategyIds method strategyMetrics = .ok listed ∧
    listed.map (fun entry => (entry.strategyId, entry.weight.val)) =
      allocator.allocate strategyIds strategyMetrics

/-- An id is repeated only by the information ratio method, with a ratio that is not positive
beside an id with a positive one. -/
def RepeatsIdle (method : String) (strategyIds : List String)
    (strategyMetrics : Option MetricsTable) : Prop :=
  ∀ sid, 2 ≤ strategyIds.count sid → method = "ir" ∧ ∃ table, strategyMetrics = some table ∧
    table.informationRatio sid ≤ 0 ∧ ∃ other ∈ strategyIds, 0 < table.informationRatio other

/-- The names of the methods. -/
def WeightAllocator.method : WeightAllocator → String
  | .equal => "equal"
  | .inverseVol => "inverse_vol"
  | .ir => "ir"
  | .riskParity => "risk_parity"

theorem makeAllocator_eq_ok_iff {method : String} {allocator : WeightAllocator} :
    makeAllocator method = .ok allocator ↔ method = allocator.method := by
  constructor
  · intro made
    unfold makeAllocator at made
    split_ifs at made with one two three four <;> cases made <;> assumption
  · rintro rfl
    cases allocator <;> decide

section Weightings

variable {strategyIds : List String}

/-- The shares of a list of ids are defined for each of them, not negative, and at most one. -/
theorem mem_shares_iff {score : String → ℚ} {sid : String} {weight : ℚ} :
    (sid, weight) ∈ shares strategyIds score ↔
      sid ∈ strategyIds ∧ weight = score sid / (strategyIds.map score).sum :=
  mem_update_map_iff

theorem share_mem_unit {score : String → ℚ} (nonneg : ∀ sid, 0 ≤ score sid)
    (total : 0 < (strategyIds.map score).sum) :
    ∀ entry ∈ shares strategyIds score, 0 ≤ entry.2 ∧ entry.2 ≤ 1 := by
  rintro ⟨sid, weight⟩ member
  obtain ⟨there, rfl⟩ := mem_shares_iff.mp member
  have scores : ∀ x ∈ strategyIds.map score, 0 ≤ x := by
    intro x listed
    obtain ⟨other, -, rfl⟩ := List.mem_map.mp listed
    exact nonneg other
  exact ⟨div_nonneg (nonneg sid) total.le,
    (div_le_one total).mpr (List.single_le_sum scores _ (List.mem_map_of_mem there))⟩

theorem weighting_shares_iff {score : String → ℚ} (nonneg : ∀ sid, 0 ≤ score sid)
    (total : 0 < (strategyIds.map score).sum) :
    Weighting strategyIds (shares strategyIds score) ↔
      ∀ sid, 2 ≤ strategyIds.count sid → score sid = 0 := by
  rw [← sum_shares_eq_one_iff nonneg total]
  constructor
  · exact Weighting.total
  · intro one
    exact ⟨fun sid there => ⟨_, mem_shares_iff.mpr ⟨there, rfl⟩⟩,
      fun entry member => (share_mem_unit nonneg total entry member).1, one⟩

/-- Weights of the unit interval pass their checks. -/
theorem exists_strategyWeights (method : String) {weights : List (String × ℚ)}
    (unit : ∀ entry ∈ weights, 0 ≤ entry.2 ∧ entry.2 ≤ 1) :
    ∃ listed, weights.mapM (makeStrategyWeight method) = .ok listed ∧
      listed.map (fun entry => (entry.strategyId, entry.weight.val)) = weights := by
  induction weights with
  | nil => exact ⟨[], List.mapM_nil, rfl⟩
  | cons entry rest ih =>
      obtain ⟨listed, made, same⟩ :=
        ih fun other member => unit other (List.mem_cons_of_mem _ member)
      have first : makeStrategyWeight method entry =
          .ok ⟨entry.1, ⟨entry.2, unit entry List.mem_cons_self⟩, method⟩ := by
        unfold makeStrategyWeight
        rw [check_of (unit entry List.mem_cons_self)]
      refine ⟨⟨entry.1, ⟨entry.2, unit entry List.mem_cons_self⟩, method⟩ :: listed, ?_,
        congrArg (entry :: ·) same⟩
      rw [List.mapM_cons, first, made]
      rfl

/-- A strategy has no score exactly if the method is the information ratio, its own ratio is not
positive and another one is. -/
theorem score_eq_zero_iff (allocator : WeightAllocator) (strategyMetrics : Option MetricsTable)
    (sid : String) :
    allocator.score strategyIds strategyMetrics sid = 0 ↔
      allocator.method = "ir" ∧ ∃ table, strategyMetrics = some table ∧
        table.informationRatio sid ≤ 0 ∧
          ∃ other ∈ strategyIds, 0 < table.informationRatio other := by
  cases strategyMetrics with
  | none =>
      refine iff_of_false ?_ fun idle => ?_
      · cases allocator <;> exact one_ne_zero
      · obtain ⟨-, table, absent, -⟩ := idle
        cases absent
  | some table =>
      cases allocator with
      | equal => exact iff_of_false one_ne_zero fun idle => absurd idle.1 (by decide)
      | inverseVol =>
          exact iff_of_false (inverseVol_pos table sid).ne' fun idle => absurd idle.1 (by decide)
      | riskParity =>
          exact iff_of_false (inverseVol_pos table sid).ne' fun idle => absurd idle.1 (by decide)
      | ir =>
          unfold WeightAllocator.score
          simp only [ir_sum_eq_zero_iff]
          split_ifs with zero
          · refine iff_of_false one_ne_zero ?_
            rintro ⟨-, _, same, -, other, there, positive⟩
            cases same
            exact absurd (zero other there) (not_le.mpr positive)
          · rw [max_eq_right_iff]
            constructor
            · intro idle
              simp only [not_forall, not_le] at zero
              obtain ⟨other, there, positive⟩ := zero
              exact ⟨rfl, table, rfl, idle, other, there, positive⟩
            · rintro ⟨-, _, same, idle, -⟩
              cases same
              exact idle

end Weightings

/-- **An allocator returns a weighting, for each of the four methods and every list of ids with
any metrics, if and only if every repeated id has no share: the weights are by information ratio,
the ratio of the id is not positive and another one is.** -/
theorem weighting_iff (method : String)
    (known : method ∈ ["equal", "inverse_vol", "ir", "risk_parity"]) (strategyIds : List String)
    (nonempty : strategyIds ≠ []) (strategyMetrics : Option MetricsTable) :
    ReturnsWeighting method strategyIds strategyMetrics ↔
      RepeatsIdle method strategyIds strategyMetrics := by
  obtain ⟨allocator, rfl⟩ : ∃ allocator : WeightAllocator, method = allocator.method := by
    simp only [List.mem_cons, List.not_mem_nil, or_false] at known
    rcases known with rfl | rfl | rfl | rfl
    · exact ⟨.equal, rfl⟩
    · exact ⟨.inverseVol, rfl⟩
    · exact ⟨.ir, rfl⟩
    · exact ⟨.riskParity, rfl⟩
  have made : makeAllocator allocator.method = .ok allocator := makeAllocator_eq_ok_iff.mpr rfl
  obtain ⟨nonneg, total⟩ := score_spec nonempty allocator strategyMetrics
  have weighting : Weighting strategyIds (allocator.allocate strategyIds strategyMetrics) ↔
      RepeatsIdle allocator.method strategyIds strategyMetrics := by
    rw [allocate_eq nonempty, weighting_shares_iff nonneg total]
    simp only [score_eq_zero_iff]
    rfl
  rw [← weighting]
  constructor
  · rintro ⟨other, listed, same, sums, -⟩
    cases made.symm.trans same
    exact sums
  · intro sums
    have unit : ∀ entry ∈ allocator.allocate strategyIds strategyMetrics,
        0 ≤ entry.2 ∧ entry.2 ≤ 1 := by
      rw [allocate_eq nonempty]
      exact share_mem_unit nonneg total
    obtain ⟨listed, checked, same⟩ := exists_strategyWeights allocator.method unit
    refine ⟨allocator, listed, made, sums, ?_, same⟩
    rw [allocatePortfolioWeights, made]
    exact checked

/-- Two strategies, of which one is known to have a positive information ratio. -/
def sampleMetrics : MetricsTable :=
  fun sid => if sid = "a" then some { ir := some (1 / 2) } else none

/-- A repeated id without an information ratio. -/
theorem weighting_sample : ReturnsWeighting "ir" ["a", "b", "b"] (some sampleMetrics) := by
  refine (weighting_iff "ir" (by decide) ["a", "b", "b"] (by decide) _).mpr fun sid twice => ?_
  have second : sid = "b" := by
    by_contra other
    have once : (["a", "b", "b"].count sid) ≤ 1 := by
      rw [List.count_cons, List.count_cons_of_ne (Ne.symm other),
        List.count_cons_of_ne (Ne.symm other)]
      split <;> simp
    omega
  refine ⟨rfl, sampleMetrics, rfl, ?_, "a", by decide, ?_⟩
  · rw [second]
    with_unfolding_all decide
  · with_unfolding_all decide

/-- Equal weights of one id that is listed twice add up to one half. -/
theorem repeated_id_halved :
    ¬ReturnsWeighting "equal" ["a", "a"] none ∧
      WeightAllocator.equal.allocate ["a", "a"] none = [("a", 1 / 2)] := by
  have half : WeightAllocator.equal.allocate ["a", "a"] none = [("a", 1 / 2)] := by
    with_unfolding_all decide
  refine ⟨?_, half⟩
  rintro ⟨allocator, listed, made, weighting, -⟩
  have equal : makeAllocator "equal" = .ok .equal := makeAllocator_eq_ok_iff.mpr rfl
  cases equal.symm.trans made
  have total := weighting.total
  rw [half] at total
  exact absurd total (by norm_num)

end TradeOS.Strategy
