import TradeOS.Data.GreedyIndependence
import TradeOS.Numeric.Correlation
import TradeOS.Numeric.Decimal
import TradeOS.Numeric.Extended
import Mathlib.Data.List.Sort
import Mathlib.Data.Finset.Insert
import Mathlib.Data.Rat.Sqrt

/-!
# Factor selection

A selector filters the factors of a table by their correlation with the labels (the IC) and by the
ratio of its mean and deviation over windows (the IR), prunes those that are correlated with one
another, and takes the best of what is left.

The pruning goes through the columns of the correlation matrix. It keeps a column that is not
dropped and drops every other one that is correlated with it. For distinct columns this is the
greedy pruning of the relation `correlated` (`pruneLoop_eq`), so what it keeps is a maximal
independent set (`correlationPrune_maximal`).

The rows of a table are aligned with the labels. The correlation of two columns is a parameter, a
function of the pairs of the rows that have both values, and so is the square root.
-/

set_option autoImplicit false

namespace TradeOS.Alpha

open GreedyIndependence Numeric Numeric.Extended

/-! ## Selectors -/

/-- What a selector can raise. -/
inductive SelectionError where
  | valueError (message : String)
  deriving DecidableEq

/-- `FactorSelector`. -/
structure FactorSelector where
  minIc : ℚ
  minIr : ℚ
  corrThreshold : ℚ
  nonneg : 0 ≤ corrThreshold
  atMostOne : corrThreshold ≤ 1

/-- `FactorSelector.__init__`. -/
def FactorSelector.new (minIc minIr corrThreshold : ℚ) : Except SelectionError FactorSelector :=
  if inside : 0 ≤ corrThreshold ∧ corrThreshold ≤ 1 then
    .ok ⟨minIc, minIr, corrThreshold, inside.1, inside.2⟩
  else
    .error (.valueError ("corr_threshold must be in [0, 1], got " ++ formatDefault corrThreshold))

theorem defaultThreshold_admitted : (0 : ℚ) ≤ 9 / 10 ∧ (9 / 10 : ℚ) ≤ 1 := by norm_num

/-- The selector with the default thresholds. -/
def FactorSelector.default : FactorSelector where
  minIc := 2 / 100
  minIr := 3 / 10
  corrThreshold := 9 / 10
  nonneg := defaultThreshold_admitted.1
  atMostOne := defaultThreshold_admitted.2

/-! ## Correlation pruning -/

/-- The correlations of the factors of a table, with its number of rows. NaN is `none`. -/
structure CorrelationMatrix where
  names : List String
  distinct : names.Nodup
  rows : ℕ
  entry : String → String → Option ℚ
  symmetric : ∀ a b, entry a b = entry b a
  undefined : rows = 0 → ∀ a b, entry a b = none

/-- `np.fill_diagonal(corr_values, 0.0)`. -/
def fillDiagonal (entry : String → String → Option ℚ) (a b : String) : Option ℚ :=
  if a = b then some 0 else entry a b

/-- `abs(val) >= threshold`. -/
def reaches (threshold : ℚ) : Option ℚ → Bool
  | some val => threshold ≤ |val|
  | none => false

section Loop

variable (threshold : ℚ) (names : List String) (corr : String → String → Option ℚ)

/-- The factors dropped so far, with those that are correlated with a column. -/
def dropCorrelated (dropped : Finset String) (col : String) : Finset String :=
  names.foldl (fun dropped other =>
    if other ∉ dropped ∧ reaches threshold (corr col other) then insert other dropped
    else dropped) dropped

/-- What the loop does at a column: what is kept and what is dropped so far. -/
def visit (state : List String × Finset String) (col : String) : List String × Finset String :=
  if col ∈ state.2 then state
  else (state.1 ++ [col], dropCorrelated threshold names corr state.2 col)

end Loop

/-- `correlation_prune`, of the names of the columns, the number of rows and the matrix that
`factors.corr()` is. -/
def FactorSelector.correlationPrune (selector : FactorSelector) (names : List String) (rows : ℕ)
    (matrix : String → String → Option ℚ) (threshold : Option ℚ) : List String :=
  if names = [] ∨ rows = 0 ∨ names.length ≤ 1 then names
  else
    (names.foldl (visit (threshold.getD selector.corrThreshold) names (fillDiagonal matrix))
      ([], ∅)).1

/-- Two factors are correlated from a threshold on. -/
def correlated (threshold : ℚ) (matrix : String → String → Option ℚ) (a b : String) : Bool :=
  a ≠ b && reaches threshold (matrix a b)

section Pruning

variable {threshold : ℚ} {names : List String} {matrix corr : String → String → Option ℚ}
  {a b : String}

theorem correlated_symmetric (symmetric : ∀ a b, matrix a b = matrix b a) (a b : String) :
    correlated threshold matrix a b = correlated threshold matrix b a := by
  rw [correlated, correlated, symmetric, Bool.eq_iff_iff]
  simp only [Bool.and_eq_true, decide_eq_true_eq, ne_comm]

theorem reaches_fillDiagonal (differ : a ≠ b) :
    reaches threshold (fillDiagonal matrix a b) = correlated threshold matrix a b := by
  rw [fillDiagonal, if_neg differ, correlated, decide_eq_true differ, Bool.true_and]

/-- A column that is looked at is added if it is correlated, and then it is dropped, whether it was
before or not. -/
theorem mem_insert_if_iff {dropped : Finset String} {other : String} {hit : Bool} :
    (a ∈ if other ∉ dropped ∧ hit then insert other dropped else dropped) ↔
      a ∈ dropped ∨ a = other ∧ hit = true := by
  cases hit with
  | false => simp
  | true =>
      by_cases before : other ∈ dropped
      · rw [if_neg fun both => both.1 before, and_iff_left rfl]
        exact (or_iff_left_of_imp fun same => same ▸ before).symm
      · rw [if_pos ⟨before, rfl⟩, Finset.mem_insert, and_iff_left rfl, or_comm]

/-- A factor is dropped if it was dropped before or is correlated with the column. -/
theorem mem_dropCorrelated_iff (dropped : Finset String) (col : String) :
    a ∈ dropCorrelated threshold names corr dropped col ↔
      a ∈ dropped ∨ a ∈ names ∧ reaches threshold (corr col a) = true := by
  rw [dropCorrelated]
  induction names generalizing dropped with
  | nil => simp
  | cons other names ih =>
      rw [List.foldl_cons, ih, mem_insert_if_iff, or_assoc, List.mem_cons, or_and_right]
      refine or_congr_right (or_congr_left (and_congr_right fun same => ?_))
      rw [same]

/-- The loop from a state on keeps what the greedy pruning keeps. The invariant: of the columns to
come, those are dropped that are correlated with a kept one. -/
theorem foldl_visit_eq {kept columns : List String} {dropped : Finset String}
    (distinct : (kept ++ columns).Nodup) (inside : ∀ a ∈ columns, a ∈ names)
    (invariant : ∀ a ∈ columns, a ∈ dropped ↔
      kept.any (fun b => correlated threshold matrix b a) = true) :
    (columns.foldl (visit threshold names (fillDiagonal matrix)) (kept, dropped)).1 =
      keepFrom (correlated threshold matrix) kept columns := by
  induction columns generalizing kept dropped with
  | nil => rfl
  | cons col columns ih =>
      have own := invariant col List.mem_cons_self
      have later (a : String) (member : a ∈ columns) : a ∈ col :: columns :=
        List.mem_cons_of_mem col member
      rw [List.foldl_cons]
      by_cases blocked : kept.any (fun b => correlated threshold matrix b col) = true
      · rw [visit, if_pos (own.mpr blocked), keepFrom_blocked blocked]
        refine ih ?_ (fun a member => inside a (later a member))
          fun a member => invariant a (later a member)
        exact distinct.sublist ((List.sublist_cons_self col columns).append_left kept)
      · rw [visit, if_neg fun out => blocked (own.mp out), keepFrom_free blocked]
        refine ih ?_ (fun a member => inside a (later a member)) fun a member => ?_
        · rwa [List.append_assoc, List.singleton_append]
        · have differ : col ≠ a := by
            rintro rfl
            have tail := (List.nodup_append.mp distinct).2.1
            exact (List.nodup_cons.mp tail).1 member
          rw [mem_dropCorrelated_iff, invariant a (later a member), reaches_fillDiagonal differ,
            and_iff_right (inside a (later a member)), List.any_append, Bool.or_eq_true,
            List.any_cons, List.any_nil, Bool.or_false]

theorem pruneLoop_eq (distinct : names.Nodup) :
    (names.foldl (visit threshold names (fillDiagonal matrix)) ([], ∅)).1 =
      greedy (correlated threshold matrix) names :=
  foldl_visit_eq distinct (fun _ member => member) fun a _ => by simp

theorem independent_of_length_le_one (few : names.length ≤ 1) :
    Independent (correlated threshold matrix) names := by
  match names, few with
  | [], _ => exact .nil
  | [a], _ => exact List.pairwise_singleton _ a

theorem independent_of_undefined (undefined : ∀ a b, matrix a b = none) :
    Independent (correlated threshold matrix) names := by
  refine List.pairwise_of_forall fun a b => ?_
  rw [correlated, undefined, reaches, Bool.and_false]

/-- The pruning is the greedy one. -/
theorem correlationPrune_eq (selector : FactorSelector) (threshold : Option ℚ) {rows : ℕ}
    (distinct : names.Nodup) (undefined : rows = 0 → ∀ a b, matrix a b = none) :
    selector.correlationPrune names rows matrix threshold =
      greedy (correlated (threshold.getD selector.corrThreshold) matrix) names := by
  rw [FactorSelector.correlationPrune]
  by_cases whole : names = [] ∨ rows = 0 ∨ names.length ≤ 1
  · rw [if_pos whole]
    refine (greedy_eq_self ?_).symm
    rcases whole with rfl | none | few
    · exact .nil
    · exact independent_of_undefined (undefined none)
    · exact independent_of_length_le_one few
  · rw [if_neg whole, pruneLoop_eq distinct]

end Pruning

/-- The kept factors are a maximal independent set, in the order of the columns. -/
structure Pruned (matrix : CorrelationMatrix) (threshold : ℚ) (kept : List String) : Prop where
  independent : ∀ a ∈ kept, ∀ b ∈ kept, a ≠ b →
    ∀ corr, matrix.entry a b = some corr → |corr| < threshold
  dominated : ∀ b ∈ matrix.names, b ∉ kept →
    ∃ a ∈ kept, [a, b].Sublist matrix.names ∧ ∃ corr, matrix.entry a b = some corr ∧
      threshold ≤ |corr|
  inOrder : kept.Sublist matrix.names
  distinct : kept.Nodup

theorem correlated_iff {threshold : ℚ} {matrix : String → String → Option ℚ} {a b : String} :
    correlated threshold matrix a b = true ↔
      a ≠ b ∧ ∃ corr, matrix a b = some corr ∧ threshold ≤ |corr| := by
  rw [correlated, Bool.and_eq_true, decide_eq_true_eq]
  refine and_congr_right fun _ => ?_
  cases matrix a b with
  | none => simp [reaches]
  | some corr => simp [reaches]

/-- **Correlation pruning keeps a maximal independent set of the factors**, for every threshold. -/
theorem correlationPrune_maximal (selector : FactorSelector) (matrix : CorrelationMatrix)
    (threshold : Option ℚ) :
    Pruned matrix (threshold.getD selector.corrThreshold)
      (selector.correlationPrune matrix.names matrix.rows matrix.entry threshold) := by
  rw [correlationPrune_eq selector threshold matrix.distinct matrix.undefined]
  refine ⟨fun a first b second differ corr entry => ?_, fun b member out => ?_,
    greedy_sublist _, matrix.distinct.sublist (greedy_sublist _)⟩
  · by_contra large
    have conflict : correlated (threshold.getD selector.corrThreshold) matrix.entry a b = true :=
      correlated_iff.mpr ⟨differ, corr, entry, not_lt.mp large⟩
    exact not_mem_greedy (correlated_symmetric matrix.symmetric) differ conflict first second
  · rcases kept_or_blocked _ member with kept | ⟨a, kept, earlier, conflict⟩
    · exact absurd kept out
    · exact ⟨a, kept, earlier, (correlated_iff.mp conflict).2⟩

/-! ## Tables of factors -/

/-- A row of a table, with its label. NaN is `none`. -/
structure FactorRow where
  values : String → Option ℚ
  label : Option ℚ

/-- A table of factors, aligned with the labels. -/
structure FactorTable where
  names : List String
  distinct : names.Nodup
  rows : List FactorRow

/-- The pairs of the rows that have both values: `pd.DataFrame({...}).dropna()`. -/
def completePairs (first second : FactorRow → Option ℚ) (rows : List FactorRow) :
    List (ℚ × ℚ) :=
  rows.filterMap fun row =>
    match first row, second row with
    | some x, some y => some (x, y)
    | _, _ => none

/-- The values of a factor with the labels. -/
def withLabels (rows : List FactorRow) (name : String) : List (ℚ × ℚ) :=
  completePairs (·.values name) (·.label) rows

theorem completePairs_swap (first second : FactorRow → Option ℚ) (rows : List FactorRow) :
    (completePairs first second rows).map Prod.swap = completePairs second first rows := by
  rw [completePairs, completePairs, List.map_filterMap]
  refine List.filterMap_congr fun row _ => ?_
  cases first row <;> cases second row <;> rfl

/-- `factors.corr()`. -/
def corrMatrix (corr : List (ℚ × ℚ) → Option ℚ) (rows : List FactorRow) (a b : String) :
    Option ℚ :=
  corr (completePairs (·.values a) (·.values b) rows)

/-- The correlations of the factors of a table. They are symmetric, and not defined without
rows. -/
def FactorTable.matrix (factors : FactorTable) (corr : List (ℚ × ℚ) → Option ℚ)
    (symmetric : Correlation.Symmetric corr) (undefined : corr [] = none) :
    CorrelationMatrix where
  names := factors.names
  distinct := factors.distinct
  rows := factors.rows.length
  entry := corrMatrix corr factors.rows
  symmetric a b := by
    rw [corrMatrix, ← completePairs_swap, symmetric, corrMatrix]
  undefined none a b := by
    rw [corrMatrix, List.length_eq_zero_iff.mp none]
    exact undefined

theorem pearson_nil (sqrt : ℚ → ℚ) : Correlation.pearson sqrt [] = none := by
  simp [Correlation.pearson, Correlation.covariation]

/-- A row of three factors, the second one twice the first one. -/
def threeFactors (momentum value : ℚ) : FactorRow where
  values name :=
    if name = "momentum" then some momentum
    else if name = "carry" then some (2 * momentum)
    else if name = "value" then some value
    else none
  label := none

theorem threeNames_nodup : ["momentum", "carry", "value"].Nodup := by decide

/-- A table of three factors. -/
def threeTable : FactorTable where
  names := ["momentum", "carry", "value"]
  distinct := threeNames_nodup
  rows := [threeFactors (-1) (-1), threeFactors (-1) 1, threeFactors 1 (-1), threeFactors 1 1]

/-- Of the three factors the first one and the one that is not correlated with it are kept. -/
theorem correlationPrune_threeTable :
    Pruned (threeTable.matrix (Correlation.pearson Rat.sqrt) (Correlation.pearson_symmetric _)
        (pearson_nil Rat.sqrt)) FactorSelector.default.corrThreshold
      ["momentum", "value"] := by
  have kept : FactorSelector.default.correlationPrune threeTable.names threeTable.rows.length
      (corrMatrix (Correlation.pearson Rat.sqrt) threeTable.rows) none = ["momentum", "value"] := by
    decide +kernel
  rw [← kept]
  exact correlationPrune_maximal FactorSelector.default (threeTable.matrix _ _ _) none

/-! ## Primitive methods -/

section Primitives

variable (corr : List (ℚ × ℚ) → Option ℚ) (sqrt : ℚ → ℚ)

/-- The sort key of `best_k`. A deviation that is not defined is not positive. -/
def rankScore (metric : String) (sub : List (ℚ × ℚ)) : Option ℚ :=
  if sub.length < 3 then some 0
  else
    match sampleStd sqrt (sub.map Prod.fst) with
    | some std => if metric = "ir" ∧ 0 < std then (corr sub).map (· / std) else corr sub
    | none => corr sub

/-- `<` of two scores, false for NaN. -/
def scoreBelow : Option ℚ → Option ℚ → Bool
  | some x, some y => x < y
  | _, _ => false

/-- `best_k`. The order that `sorted` leaves is that of a stable sort where the scores are
numbers. -/
def FactorSelector.bestK (names : List String) (rows : List FactorRow) (k : ℕ) (metric : String) :
    List String :=
  if names = [] ∨ rows = [] then names.take k
  else
    let score := fun name => rankScore corr sqrt metric (withLabels rows name)
    (names.insertionSort fun a b => scoreBelow (score a) (score b) = false).take k

/-- The IC of a factor, if it has three rows. -/
def informationCoefficient (rows : List FactorRow) (name : String) : Option ℚ :=
  let sub := withLabels rows name
  if sub.length < 3 then none else corr sub

/-- `ic_threshold`. -/
def FactorSelector.icThreshold (selector : FactorSelector) (names : List String)
    (rows : List FactorRow) (minIc : Option ℚ) : List String :=
  if names = [] ∨ rows = [] then []
  else
    names.filter fun name =>
      match informationCoefficient corr rows name with
      | some ic => minIc.getD selector.minIc ≤ |ic|
      | none => false

/-- `rolling(5).corr(...).dropna()`. -/
def rollingCorr (sub : List (ℚ × ℚ)) : List ℚ :=
  (List.range (sub.length - 4)).filterMap fun k => corr ((sub.drop k).take 5)

/-- The IR of a factor: `ic_mean / ic_std`. -/
def informationRatio (rows : List FactorRow) (name : String) : Option ℚ :=
  let sub := withLabels rows name
  if sub.length < 5 then none
  else
    let icVals := rollingCorr corr sub
    if icVals.length < 2 then none
    else
      match sampleStd sqrt icVals with
      | some icStd => if 1 / 10 ^ 8 < icStd then some (Correlation.mean icVals / icStd) else none
      | none => none

/-- `ir_threshold`. -/
def FactorSelector.irThreshold (selector : FactorSelector) (names : List String)
    (rows : List FactorRow) (minIr : Option ℚ) : List String :=
  if names = [] ∨ rows = [] then []
  else
    names.filter fun name =>
      match informationRatio corr sqrt rows name with
      | some ir => minIr.getD selector.minIr ≤ ir
      | none => false

/-! ## Composite selection -/

/-- `select`. -/
def FactorSelector.select (selector : FactorSelector) (factors : FactorTable)
    (strategy : String) : Except SelectionError (List String) :=
  let rows := factors.rows
  if factors.names = [] ∨ rows = [] then .ok []
  else
    let selected := factors.names.filter fun f =>
      f ∈ selector.icThreshold corr factors.names rows none
    if selected.length ≤ 1 then .ok selected
    else
      let selected := selector.correlationPrune selected rows.length (corrMatrix corr rows)
        (some selector.corrThreshold)
      if selected.length ≤ 1 then .ok selected
      else if strategy = "ic_ir" then
        let passed := selector.irThreshold corr sqrt selected rows none
        let selected := selected.filter fun f => f ∈ passed
        if selected.length ≤ 1 then .ok selected
        else .ok (FactorSelector.bestK corr sqrt selected rows 5 "ic_mean")
      else if strategy = "corr_ic" then
        let passed := selector.icThreshold corr selected rows none
        .ok (selected.filter fun f => f ∈ passed)
      else if strategy = "best_only" then
        .ok (FactorSelector.bestK corr sqrt selected rows 5 "ic_mean")
      else .error (.valueError ("Unknown strategy: " ++ quoted strategy))

end Primitives

end TradeOS.Alpha
