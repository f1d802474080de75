import TradeOS.Numeric.Correlation
import TradeOS.Numeric.Decimal
import TradeOS.Numeric.Extended
import TradeOS.Schemas
import Mathlib.Data.List.MinMax
import Mathlib.Data.Rat.Sqrt

/-!
# Factor validation and the order of the rows

The validator computes four ratios and the statistics of the values of a factor, and qualifies the
factor if every ratio is within its threshold.

Counts, sums and extreme values do not depend on the order of the rows. The constant ratio does: it
compares the values with the one that comes first. So the findings of two orders are the same
exactly if their first values occur equally often (`sameFindings_iff`), and those of all orders
exactly if all values do (`rowOrder_irrelevant_iff`).

The square root is a parameter. The two thresholds that other checks use are left out.
-/

set_option autoImplicit false

namespace TradeOS.Alpha

open Numeric Numeric.Extended

/-! ## The validator -/

/-- A row of a factor's values. NaN is `none`. -/
structure ValueRow where
  timestamp : Timestamp
  rawValue : Option ℚ
  deriving DecidableEq

/-- The thresholds of `AlphaValidator`. -/
structure AlphaValidator where
  coverageThreshold : ℚ := 9 / 10
  nullRatioThreshold : ℚ := 1 / 10
  constantRatioThreshold : ℚ := 5 / 100
  outlierRatioThreshold : ℚ := 5 / 100

/-- `AlphaValidationResult`. A deviation that is not a number is the inner `none`. -/
structure AlphaValidationResult where
  factorId : String
  factorSetId : Option String
  coverage : ℚ
  nullRatio : ℚ
  constantRatio : ℚ
  outlierRatio : ℚ
  correlationWarning : Bool
  leakageWarning : Bool
  mean : Option ℚ
  std : Option (Option ℚ)
  minVal : Option ℚ
  maxVal : Option ℚ
  isQualified : Bool
  failReasons : List String
  evalStart : Option Timestamp
  evalEnd : Option Timestamp
  createdAt : Timestamp

/-- The values that are there: `dropna()`. -/
def validSeries (rows : List ValueRow) : List ℚ := rows.filterMap ValueRow.rawValue

/-- The share of the values that are the first one. -/
def constantRatio (valid : List ℚ) : ℚ :=
  match valid with
  | first :: _ :: _ => valid.count first / valid.length
  | [_] => 1
  | [] => 1

/-- The share of the values more than three deviations from the mean. -/
def outlierRatio (sqrt : ℚ → ℚ) (valid : List ℚ) : ℚ :=
  match sampleStd sqrt valid with
  | some std =>
      if 0 < std then
        valid.countP (fun x => 3 < |(x - Correlation.mean valid) / std|) / valid.length
      else 0
  | none => 0

/-- The ratios that are not within their thresholds. -/
def AlphaValidator.failReasons (validator : AlphaValidator)
    (coverage nullRatio constantRatio outlierRatio : ℚ) : List String :=
  (if coverage < validator.coverageThreshold then
    ["coverage=" ++ formatFixed 3 coverage ++ " < " ++ formatDefault validator.coverageThreshold]
  else []) ++
  (if validator.nullRatioThreshold < nullRatio then
    ["null_ratio=" ++ formatFixed 3 nullRatio ++ " > " ++
      formatDefault validator.nullRatioThreshold]
  else []) ++
  (if validator.constantRatioThreshold < constantRatio then
    ["constant_ratio=" ++ formatFixed 3 constantRatio ++ " > " ++
      formatDefault validator.constantRatioThreshold]
  else []) ++
  (if validator.outlierRatioThreshold < outlierRatio then
    ["outlier_ratio=" ++ formatFixed 3 outlierRatio ++ " > " ++
      formatDefault validator.outlierRatioThreshold]
  else [])

section Validate

variable (sqrt : ℚ → ℚ) (now : Timestamp)

/-- `validate_single`. -/
def AlphaValidator.validateSingle (validator : AlphaValidator) (factorId : String)
    (rows : List ValueRow) (factorSetId : Option String) : AlphaValidationResult :=
  let total := rows.length
  let nullCount := rows.countP fun row => row.rawValue.isNone
  let validCount := total - nullCount
  let coverage : ℚ := if 0 < total then validCount / total else 0
  let nullRatio : ℚ := if 0 < total then nullCount / total else 1
  let valid := validSeries rows
  let constant := constantRatio valid
  let outlier := outlierRatio sqrt valid
  let failReasons := validator.failReasons coverage nullRatio constant outlier
  { factorId := factorId
    factorSetId := factorSetId
    coverage := coverage
    nullRatio := nullRatio
    constantRatio := constant
    outlierRatio := outlier
    correlationWarning := false
    leakageWarning := false
    mean := if valid = [] then none else some (Correlation.mean valid)
    std := if valid = [] then none else some (sampleStd sqrt valid)
    minVal := valid.min?
    maxVal := valid.max?
    isQualified := failReasons.isEmpty
    failReasons := failReasons
    evalStart := (rows.map ValueRow.timestamp).min?
    evalEnd := (rows.map ValueRow.timestamp).max?
    createdAt := now }

end Validate

/-! ## What does not depend on the order -/

section Order

variable {sqrt : ℚ → ℚ} {now : Timestamp} {xs ys : List ℚ} {rows other : List ValueRow}

theorem mean_perm (perm : ys.Perm xs) : Correlation.mean ys = Correlation.mean xs := by
  rw [Correlation.mean, perm.sum_eq, perm.length_eq, Correlation.mean]

theorem sampleStd_perm (perm : ys.Perm xs) : sampleStd sqrt ys = sampleStd sqrt xs := by
  have variance : sampleVariance ys = sampleVariance xs := by
    rw [sampleVariance, perm.sum_eq, perm.length_eq, (perm.map _).sum_eq, sampleVariance]
  rw [sampleStd, perm.length_eq, variance, sampleStd]

theorem outlierRatio_perm (sqrt : ℚ → ℚ) (perm : ys.Perm xs) :
    outlierRatio sqrt ys = outlierRatio sqrt xs := by
  rw [outlierRatio, sampleStd_perm perm, mean_perm perm, perm.length_eq, outlierRatio]
  cases sampleStd sqrt xs with
  | none => rfl
  | some std => simp only [perm.countP_eq]

theorem min?_perm (perm : ys.Perm xs) : ys.min? = xs.min? := by
  refine Option.ext fun a => ?_
  rw [List.min?_eq_some_iff, List.min?_eq_some_iff, perm.mem_iff]
  simp only [perm.mem_iff]

theorem max?_perm (perm : ys.Perm xs) : ys.max? = xs.max? := by
  have : Std.LawfulOrderMax ℚ :=
    { max_le_iff := fun _ _ _ => max_le_iff, max_eq_or := fun a b => max_choice a b }
  refine Option.ext fun a => ?_
  rw [List.max?_eq_some_iff, List.max?_eq_some_iff, perm.mem_iff]
  simp only [perm.mem_iff]

theorem validSeries_perm (perm : other.Perm rows) : (validSeries other).Perm (validSeries rows) :=
  perm.filterMap _

end Order

/-! ## The findings of two orders -/

/-- Two results have the same ratios, statistics and verdict. -/
structure SameFindings (result other : AlphaValidationResult) : Prop where
  coverage : result.coverage = other.coverage
  nullRatio : result.nullRatio = other.nullRatio
  constantRatio : result.constantRatio = other.constantRatio
  outlierRatio : result.outlierRatio = other.outlierRatio
  mean : result.mean = other.mean
  std : result.std = other.std
  minVal : result.minVal = other.minVal
  maxVal : result.maxVal = other.maxVal
  isQualified : result.isQualified = other.isQualified

section Findings

variable {sqrt : ℚ → ℚ} {now : Timestamp} {validator : AlphaValidator} {factorId : String}
  {factorSetId : Option String} {rows other : List ValueRow} {valid : List ℚ} {a b : ℚ}

/-- The findings of two orders are the same if the constant ratios are. -/
theorem sameFindings_iff (perm : other.Perm rows) :
    SameFindings (validator.validateSingle sqrt now factorId rows factorSetId)
        (validator.validateSingle sqrt now factorId other factorSetId) ↔
      constantRatio (validSeries rows) = constantRatio (validSeries other) := by
  constructor
  · intro same
    exact same.constantRatio
  · intro same
    have values := validSeries_perm perm
    have empty : validSeries rows = [] ↔ validSeries other = [] := by
      rw [← List.length_eq_zero_iff, ← List.length_eq_zero_iff, values.length_eq]
    have total := perm.length_eq
    have nulls := perm.countP_eq fun row => row.rawValue.isNone
    have outliers := outlierRatio_perm sqrt values
    constructor <;>
      simp only [AlphaValidator.validateSingle, total, nulls, same, outliers, empty,
        mean_perm values, sampleStd_perm values, min?_perm values, max?_perm values]

/-- With a value first, the constant ratio is its share, also if it is the only one. -/
theorem constantRatio_cons (first : ℚ) (rest : List ℚ) :
    constantRatio (first :: rest) = (first :: rest).count first / (first :: rest).length := by
  cases rest with
  | nil => simp [constantRatio]
  | cons second rest => rfl

/-- Any value that is there can be the first one. -/
theorem exists_first (member : a ∈ validSeries rows) :
    ∃ first : List ValueRow, first.Perm rows ∧
      constantRatio (validSeries first) =
        (validSeries rows).count a / (validSeries rows).length := by
  obtain ⟨row, inside, value⟩ := List.mem_filterMap.mp member
  have perm := (List.perm_cons_erase inside).symm
  have values := validSeries_perm perm
  refine ⟨row :: rows.erase row, perm, ?_⟩
  have front : validSeries (row :: rows.erase row) = a :: validSeries (rows.erase row) :=
    List.filterMap_cons_some value
  rw [← values.count_eq, ← values.length_eq, front, constantRatio_cons]

/-- **The findings do not depend on the order of the rows exactly if all values occur equally
often.** -/
theorem rowOrder_irrelevant_iff (sqrt : ℚ → ℚ) (now : Timestamp) (validator : AlphaValidator)
    (factorId : String) (factorSetId : Option String) (rows : List ValueRow) :
    (∀ other : List ValueRow, other.Perm rows →
      SameFindings (validator.validateSingle sqrt now factorId rows factorSetId)
        (validator.validateSingle sqrt now factorId other factorSetId)) ↔
      ∀ a ∈ validSeries rows, ∀ b ∈ validSeries rows,
        (validSeries rows).count a = (validSeries rows).count b := by
  constructor
  · intro same a first b second
    obtain ⟨leading, perm, share⟩ := exists_first first
    obtain ⟨heading, permuted, portion⟩ := exists_first second
    have shares := (sameFindings_iff permuted).mp (same heading permuted)
    rw [(sameFindings_iff perm).mp (same leading perm), share, portion] at shares
    have positive : ((validSeries rows).length : ℚ) ≠ 0 :=
      Nat.cast_ne_zero.mpr (List.length_pos_of_mem first).ne'
    exact_mod_cast (div_left_inj' positive).mp shares
  · intro equal other perm
    have values := validSeries_perm perm
    refine (sameFindings_iff perm).mpr ?_
    cases own : validSeries rows with
    | nil =>
        rw [own] at values
        rw [values.eq_nil]
    | cons a rest =>
        cases theirs : validSeries other with
        | nil =>
            rw [own, theirs] at values
            cases values.symm.eq_nil
        | cons b others =>
            rw [constantRatio_cons, constantRatio_cons, ← own, ← theirs, values.length_eq,
              values.count_eq]
            have first : a ∈ validSeries rows := own ▸ List.mem_cons_self
            have second : b ∈ validSeries rows :=
              values.mem_iff.mp (theirs ▸ List.mem_cons_self)
            rw [equal a first b second]

end Findings

/-! ## A table whose verdict depends on the order -/

/-- Rows with the given values. -/
def valueRows (values : List ℚ) : List ValueRow :=
  values.map fun value => { timestamp := 0, rawValue := some value }

/-- The values behind the first two. -/
def spreadValues : List ℚ := [1, 3, 4, 5, 6, 7, 8, 9, 10, 11, 12, 13, 14, 15, 16, 17, 18, 19, 20]

/-- With a value first that occurs once, the factor is qualified, with one that occurs twice it is
not. -/
theorem verdict_depends_on_order :
    (AlphaValidator.validateSingle Rat.sqrt 0 {} "MOMENTUM" (valueRows (2 :: 1 :: spreadValues))
        none).isQualified = true ∧
      (AlphaValidator.validateSingle Rat.sqrt 0 {} "MOMENTUM"
        (valueRows (1 :: 2 :: spreadValues)) none).failReasons =
          ["constant_ratio=0.095 > 0.05"] ∧
      ¬ ∀ other : List ValueRow, other.Perm (valueRows (2 :: 1 :: spreadValues)) →
        SameFindings
          (AlphaValidator.validateSingle Rat.sqrt 0 {} "MOMENTUM"
            (valueRows (2 :: 1 :: spreadValues)) none)
          (AlphaValidator.validateSingle Rat.sqrt 0 {} "MOMENTUM" other none) := by
  refine ⟨by decide +kernel, by decide +kernel, fun same => ?_⟩
  have verdict := (same (valueRows (1 :: 2 :: spreadValues)) (.swap _ _ _)).isQualified
  revert verdict
  decide +kernel

end TradeOS.Alpha
