import TradeOS.Research.Optimizer
import Mathlib.Algebra.BigOperators.Field

/-!
# Post-processing of the solver's weights

The optimizer makes a long-only portfolio of the weights that a solver returns: negative weights
become zero, the rest is clipped at one and divided by the total. Weights that are not negative
and sum to one stay as they are. If they sum to one but some are negative, the division can only
make the others smaller, and the constraints on the budget, on single weights and on the leverage
are kept (`postProcess_keeps`).
-/

set_option autoImplicit false

namespace TradeOS.Research

open Dictionary

variable {n : ℕ}

/-! ## What is built -/

namespace Constraint

/-- The type of a constraint. -/
def type : Constraint n → ConstraintType
  | sumToOne => .sumToOne
  | longOnly => .longOnly
  | maxWeight _ => .maxWeight
  | minWeight _ => .minWeight
  | sectorTargetExposure _ _ => .sectorTargetExposure
  | sectorDeviationLimit _ _ _ => .sectorDeviationLimit
  | maxTurnover _ _ => .maxTurnover
  | maxLeverage _ => .maxLeverage
  | trackingError _ _ _ => .trackingError

/-- The range of the limit. -/
def InRange : Constraint n → Prop
  | maxWeight limit => 0 < limit ∧ limit ≤ 1
  | minWeight limit => 0 ≤ limit ∧ limit < 1
  | maxLeverage limit => 0 < limit
  | _ => True

end Constraint

theorem range_of_limitWithin {range : ℚ → Prop} [DecidablePred range] {requirement : String}
    {params : ConstraintParams} {limit : ℚ}
    (read : limitWithin range requirement params = .ok limit) : range limit := by
  obtain ⟨given, -, checked⟩ := bind_eq_ok_iff.mp read
  split_ifs at checked with inside
  cases checked
  exact inside

/-- A constraint that was built has the type of its configuration, and a limit in its range. -/
theorem buildConstraint_sound {config : ConstraintConfig} {assetIds : Fin n → String}
    {constraint : Constraint n} (built : buildConstraint config assetIds = .ok constraint) :
    constraint.type = config.type ∧ constraint.InRange := by
  unfold buildConstraint at built
  cases kind : config.type <;> rw [kind] at built
  case sumToOne | longOnly =>
    cases built
    exact ⟨rfl, trivial⟩
  case maxWeight | minWeight | maxLeverage =>
    obtain ⟨limit, read, made⟩ := bind_eq_ok_iff.mp built
    cases made
    exact ⟨rfl, range_of_limitWithin read⟩
  case sectorTargetExposure | maxTurnover =>
    obtain ⟨first, -, rest⟩ := bind_eq_ok_iff.mp built
    obtain ⟨second, -, made⟩ := bind_eq_ok_iff.mp rest
    cases made
    exact ⟨rfl, trivial⟩
  case sectorDeviationLimit | trackingError =>
    obtain ⟨first, -, rest⟩ := bind_eq_ok_iff.mp built
    obtain ⟨second, -, rest⟩ := bind_eq_ok_iff.mp rest
    obtain ⟨third, -, made⟩ := bind_eq_ok_iff.mp rest
    cases made
    exact ⟨rfl, trivial⟩
  case other => cases built

/-! ## The portfolio -/

theorem clip_nonneg (w : Weights n) (i : Fin n) : 0 ≤ clip w i := le_max_left _ _

theorem clip_eq_self {w : Weights n} {i : Fin n} (nonneg : 0 ≤ w i) (small : w i ≤ 1) :
    clip w i = w i := by
  rw [clip, min_eq_left small, max_eq_right nonneg]

/-- The cut-off changes negative weights only, which the clipping sets to zero as well. -/
theorem clip_cutOff (w : Weights n) : clip (cutOff w) = clip w := by
  funext i
  unfold clip cutOff
  split_ifs with short
  · have negative : w i ≤ 0 := short.le.trans (by norm_num)
    rw [min_eq_left zero_le_one, max_self, max_eq_left ((min_le_left _ _).trans negative)]
  · rfl

theorem postProcess_eq_normalise (w : Weights n) : postProcess w = normalise w := by
  unfold postProcess normalise
  rw [clip_cutOff]

theorem normalise_nonneg (w : Weights n) (i : Fin n) : 0 ≤ normalise w i := by
  unfold normalise
  split_ifs
  · exact div_nonneg (clip_nonneg w i) (Finset.sum_nonneg fun j _ => clip_nonneg w j)
  · exact clip_nonneg w i

theorem normalise_of_total {w : Weights n} (total : 1 / 10 ^ 9 < ∑ i, clip w i) (i : Fin n) :
    normalise w i = clip w i / ∑ j, clip w j := by
  rw [normalise, if_pos total]

theorem sum_normalise {w : Weights n} (total : 1 / 10 ^ 9 < ∑ i, clip w i) :
    ∑ i, normalise w i = 1 := by
  have positive : 0 < ∑ i, clip w i := lt_trans (by norm_num) total
  rw [Finset.sum_congr rfl fun i _ => normalise_of_total total i, ← Finset.sum_div,
    div_self positive.ne']

/-- The total of the portfolio is one, or too small to divide by. -/
theorem sum_normalise_or (w : Weights n) :
    ∑ i, normalise w i = 1 ∨ ∑ i, normalise w i ≤ 1 / 10 ^ 9 := by
  by_cases total : 1 / 10 ^ 9 < ∑ i, clip w i
  · exact .inl (sum_normalise total)
  · rw [normalise, if_neg total]
    exact .inr (not_lt.mp total)

/-- Every weight of a portfolio is at most the total. -/
theorem weight_le_total {w : Weights n} (nonneg : ∀ i, 0 ≤ w i) (i : Fin n) : w i ≤ ∑ j, w j :=
  Finset.single_le_sum (fun j _ => nonneg j) (Finset.mem_univ i)

theorem total_le_one {w : Weights n} (total : ∑ i, w i = 1 ∨ ∑ i, w i ≤ 1 / 10 ^ 9) :
    ∑ i, w i ≤ 1 := by
  rcases total with one | tiny
  · exact one.le
  · exact tiny.trans (by norm_num)

theorem normalise_le_one (w : Weights n) (i : Fin n) : normalise w i ≤ 1 :=
  (weight_le_total (normalise_nonneg w) i).trans (total_le_one (sum_normalise_or w))

/-- The weights stay as they are exactly if they are a portfolio. -/
theorem normalise_eq_self_iff (w : Weights n) :
    normalise w = w ↔ (∀ i, 0 ≤ w i) ∧ (∑ i, w i = 1 ∨ ∑ i, w i ≤ 1 / 10 ^ 9) := by
  constructor
  · intro same
    have nonneg := normalise_nonneg w
    have total := sum_normalise_or w
    rw [same] at nonneg total
    exact ⟨nonneg, total⟩
  · rintro ⟨nonneg, total⟩
    have clipped : clip w = w := by
      funext i
      exact clip_eq_self (nonneg i) ((weight_le_total nonneg i).trans (total_le_one total))
    unfold normalise
    rw [clipped]
    split_ifs with large
    · have one : ∑ i, w i = 1 := total.resolve_right (not_le.mpr large)
      funext i
      rw [one, div_one]
    · rfl

/-! ## A budget -/

/-- If the weights sum to one, the clipped weights sum to one at least: a weight above one
contributes one, and no other weight is made smaller. -/
theorem one_le_sum_clip {w : Weights n} (budget : ∑ i, w i = 1) : 1 ≤ ∑ i, clip w i := by
  by_cases above : ∃ i, 1 ≤ w i
  · obtain ⟨i, large⟩ := above
    have full : clip w i = 1 := by rw [clip, min_eq_right large, max_eq_right zero_le_one]
    rw [← full]
    exact Finset.single_le_sum (fun j _ => clip_nonneg w j) (Finset.mem_univ i)
  · push Not at above
    rw [← budget]
    refine Finset.sum_le_sum fun i _ => ?_
    rw [clip, min_eq_left (above i).le]
    exact le_max_right _ _

theorem total_of_budget {w : Weights n} (budget : ∑ i, w i = 1) : 1 / 10 ^ 9 < ∑ i, clip w i :=
  lt_of_lt_of_le (by norm_num) (one_le_sum_clip budget)

theorem sum_normalise_of_budget {w : Weights n} (budget : ∑ i, w i = 1) :
    ∑ i, normalise w i = 1 :=
  sum_normalise (total_of_budget budget)

/-- The division by a total of at least one makes no weight larger. -/
theorem normalise_le_clip {w : Weights n} (budget : ∑ i, w i = 1) (i : Fin n) :
    normalise w i ≤ clip w i := by
  rw [normalise_of_total (total_of_budget budget)]
  exact div_le_self (clip_nonneg w i) (one_le_sum_clip budget)

/-- The sum of the absolute values is at least the sum. -/
theorem sum_le_absSum (w : Weights n) : ∑ i, w i ≤ absSum w :=
  Finset.sum_le_sum fun i _ => le_abs_self (w i)

/-- The types that a budget keeps. -/
def budgetTypes : List ConstraintType :=
  [.sumToOne, .longOnly, .maxWeight, .minWeight, .maxLeverage]

section Root

variable {root : ℚ → ℚ}

theorem buildCvxpy_normalise {constraint : Constraint n} (inRange : constraint.InRange)
    (kept : constraint.type ∈ budgetTypes) {w : Weights n} (budget : ∑ i, w i = 1)
    (holds : constraint.buildCvxpy root w = .ok true) :
    constraint.buildCvxpy root (normalise w) = .ok true := by
  cases constraint with
  | sumToOne => exact (Constraint.ok_decide_iff _).mpr (sum_normalise_of_budget budget)
  | longOnly => exact (Constraint.ok_decide_iff _).mpr (normalise_nonneg w)
  | maxWeight limit =>
      have below := (Constraint.ok_decide_iff _).mp holds
      refine (Constraint.ok_decide_iff _).mpr fun i => (normalise_le_clip budget i).trans ?_
      exact max_le inRange.1.le ((min_le_left _ _).trans (below i))
  | minWeight limit =>
      have above := (Constraint.ok_decide_iff _).mp holds
      have same : normalise w = w :=
        (normalise_eq_self_iff w).mpr ⟨fun i => inRange.1.trans (above i), .inl budget⟩
      rwa [same]
  | maxLeverage limit =>
      have leverage := (Constraint.ok_decide_iff _).mp holds
      refine (Constraint.ok_decide_iff _).mpr ?_
      calc absSum (normalise w)
          = ∑ i, normalise w i :=
            Finset.sum_congr rfl fun i _ => abs_of_nonneg (normalise_nonneg w i)
        _ = ∑ i, w i := by rw [sum_normalise_of_budget budget, budget]
        _ ≤ absSum w := sum_le_absSum w
        _ ≤ limit := leverage
  | _ => exact absurd kept (by simp [Constraint.type, budgetTypes])

end Root

/-! ## Configurations -/

section Configs

variable (root : ℚ → NonnegRational)

theorem relationOf_eq_true_iff {assetIds : Fin n → String} {w : Weights n}
    {config : ConstraintConfig} :
    relationOf root assetIds w config = .ok true ↔ ∃ constraint : Constraint n,
      buildConstraint config assetIds = .ok constraint ∧
        constraint.buildCvxpy (fun q => root q) w = .ok true :=
  bind_eq_ok_iff

/-- Two constraints make every weight nonnegative. -/
theorem nonneg_of_relation {assetIds : Fin n → String} {w : Weights n}
    {config : ConstraintConfig} (holds : relationOf root assetIds w config = .ok true)
    (long : config.type = .longOnly ∨ config.type = .minWeight) (i : Fin n) : 0 ≤ w i := by
  obtain ⟨constraint, built, relation⟩ := (relationOf_eq_true_iff root).mp holds
  obtain ⟨same, inRange⟩ := buildConstraint_sound built
  rw [← same] at long
  cases constraint with
  | longOnly => exact (Constraint.ok_decide_iff _).mp relation i
  | minWeight limit => exact inRange.1.trans ((Constraint.ok_decide_iff _).mp relation i)
  | _ => exact absurd long (by simp [Constraint.type])

theorem budget_of_relation {assetIds : Fin n → String} {w : Weights n}
    {config : ConstraintConfig} (holds : relationOf root assetIds w config = .ok true)
    (budget : config.type = .sumToOne) : ∑ i, w i = 1 := by
  obtain ⟨constraint, built, relation⟩ := (relationOf_eq_true_iff root).mp holds
  rw [← (buildConstraint_sound built).1] at budget
  cases constraint with
  | sumToOne => exact (Constraint.ok_decide_iff _).mp relation
  | _ => exact absurd budget (by simp [Constraint.type])

/-- A relation of a type that a budget keeps still holds, and its check reports nothing. -/
theorem relationOf_normalise {assetIds : Fin n → String} {w : Weights n}
    {config : ConstraintConfig} (holds : relationOf root assetIds w config = .ok true)
    (budget : ∑ i, w i = 1) (kept : config.type ∈ budgetTypes) :
    relationOf root assetIds (normalise w) config = .ok true ∧
      AllZero (checkOf root assetIds (normalise w) config) := by
  obtain ⟨constraint, built, relation⟩ := (relationOf_eq_true_iff root).mp holds
  obtain ⟨same, inRange⟩ := buildConstraint_sound built
  rw [← same] at kept
  have still := buildCvxpy_normalise inRange kept budget relation
  have assets : NeZero n := by
    refine ⟨fun none => ?_⟩
    subst none
    exact absurd budget (by simp)
  have untracked : ∀ b rows limit, constraint ≠ .trackingError b rows limit := by
    rintro b rows limit rfl
    exact absurd kept (by simp [Constraint.type, budgetTypes])
  refine ⟨(relationOf_eq_true_iff root).mpr ⟨constraint, built, still⟩, ?_⟩
  rw [checkOf, built]
  exact (agreesAt_of_untracked _ untracked _).report still

/-- **Post-processing returns a portfolio without negative weights, whose total is one unless it
is negligible. Weights that are one already stay as they are; in particular the weights that
satisfy a list with a sum to one and with long-only or a smallest weight. Of weights that satisfy
a list and sum to one, post-processing keeps the sum to one, long-only, largest and smallest
weights and the largest leverage.** -/
theorem postProcess_keeps {configs : List ConstraintConfig} {assetIds : Fin n → String}
    {w : Weights n}
    (feasible : ∀ config ∈ configs, relationOf root assetIds w config = .ok true) :
    ((∀ i, 0 ≤ postProcess w i ∧ postProcess w i ≤ 1) ∧
        (∑ i, postProcess w i = 1 ∨ ∑ i, postProcess w i ≤ 1 / 10 ^ 9)) ∧
      (postProcess w = w ↔
        (∀ i, 0 ≤ w i) ∧ (∑ i, w i = 1 ∨ ∑ i, w i ≤ 1 / 10 ^ 9)) ∧
      ((∃ config ∈ configs, config.type = .sumToOne) → ∑ i, w i = 1) ∧
      ((∃ config ∈ configs, config.type = .longOnly ∨ config.type = .minWeight) →
        ∀ i, 0 ≤ w i) ∧
      (∑ i, w i = 1 → ∀ config ∈ configs, config.type ∈ budgetTypes →
        relationOf root assetIds (postProcess w) config = .ok true ∧
          AllZero (checkOf root assetIds (postProcess w) config)) := by
  rw [postProcess_eq_normalise]
  refine ⟨⟨fun i => ⟨normalise_nonneg w i, normalise_le_one w i⟩, sum_normalise_or w⟩,
    normalise_eq_self_iff w, ?_, ?_, ?_⟩
  · rintro ⟨config, listed, budget⟩
    exact budget_of_relation root (feasible config listed) budget
  · rintro ⟨config, listed, long⟩
    exact nonneg_of_relation root (feasible config listed) long
  · intro budget config listed kept
    exact relationOf_normalise root (feasible config listed) budget kept

end Configs

/-- Two equal weights satisfy the default constraints. -/
theorem default_feasible : ∀ config ∈ [⟨.sumToOne, {}⟩, ⟨.longOnly, {}⟩],
    relationOf noRoot ![("A" : String), "B"] ![1 / 2, 1 / 2] config = .ok true := by
  rintro config member
  rcases List.mem_cons.mp member with rfl | last
  · with_unfolding_all decide
  · rw [List.mem_singleton.mp last]
    with_unfolding_all decide

/-- The default constraints keep two equal weights. -/
theorem postProcess_keeps_default :
    postProcess (![1 / 2, 1 / 2] : Weights 2) = ![1 / 2, 1 / 2] := by
  obtain ⟨-, same, budget, long, -⟩ := postProcess_keeps noRoot default_feasible
  exact same.mpr ⟨long ⟨_, List.mem_cons_of_mem _ List.mem_cons_self, .inl rfl⟩,
    .inl (budget ⟨_, List.mem_cons_self, rfl⟩)⟩

/-- The weights of a portfolio with a short position, as the weights before a trade. -/
def shortHeld : Dict String ℚ := .of [("A", 3 / 5), ("B", 3 / 5), ("C", -1 / 5)]

/-- Two weights of three tenths satisfy a cap of three tenths, and become halves. Weights that
sum to one with a short position satisfy a turnover of zero from themselves, and the short
position is lost. -/
theorem postProcess_breaks :
    (relationOf noRoot ![("A" : String), "B"] ![3 / 10, 3 / 10]
          ⟨.maxWeight, { limit := some (3 / 10) }⟩ = .ok true ∧
        checkOf noRoot ![("A" : String), "B"] (postProcess ![3 / 10, 3 / 10])
          ⟨.maxWeight, { limit := some (3 / 10) }⟩ = .ok [("max_weight", 1 / 5)]) ∧
      ([⟨.sumToOne, {}⟩,
          ⟨.maxTurnover, { currentWeights := some shortHeld, limit := some 0 }⟩].mapM
            (relationOf noRoot ![("A" : String), "B", "C"] ![3 / 5, 3 / 5, -1 / 5]) =
          .ok [true, true] ∧
        checkOf noRoot ![("A" : String), "B", "C"] (postProcess ![3 / 5, 3 / 5, -1 / 5])
          ⟨.maxTurnover, { currentWeights := some shortHeld, limit := some 0 }⟩ =
          .ok [("max_turnover", 2 / 5)]) ∧
      tolerance < 1 / 5 := by
  with_unfolding_all decide

end TradeOS.Research
