import TradeOS.Data.Ranking
import TradeOS.Numeric.Correlation
import TradeOS.Numeric.Decimal
import TradeOS.Schemas
import Mathlib.Data.List.Dedup

/-!
# Builders of composite factors

A composite combines the factors of a set, aligned to the rows of the first one: by the mean of the
values that are there, by the mean of their percentile ranks at a timestamp, or by weights that come
from the ICs of the factors.

A frame is read as a series of its rows, or it is skipped. The correlation is a parameter, a
function of the pairs of values and labels. The table of rank averages is indexed by timestamp and
symbol when its columns are named, so that it has the two exchanged.

The weighted sum of a row is missing if a value is (`weightedSum_eq`). So two weighted composites of
the same rows are equal exactly if the sums of their complete rows are (`compositeRows_eq_iff`).
-/

set_option autoImplicit false

namespace TradeOS.Alpha

open Numeric Ranking

/-- The index of a row: its symbol and its timestamp. -/
abbrev RowKey := String × Timestamp

/-- The rows of a series with their index. NaN is `none`. -/
abbrev IndexedSeries := List (RowKey × Option ℚ)

/-- What a builder can raise. -/
inductive CompositeError where
  | valueError (message : String)
  | typeError (message : String)
  deriving DecidableEq

/-- An entry of an index. -/
inductive IndexLabel where
  | symbol (text : String)
  | timestamp (time : Timestamp)
  deriving DecidableEq

/-- A row of a composite, under the names of its columns. -/
structure CompositeRow where
  symbol : IndexLabel
  timestamp : IndexLabel
  compositeValue : ℚ
  deriving DecidableEq

/-- The row of a composite at an index. -/
def compositeRow (key : RowKey) (value : ℚ) : CompositeRow :=
  ⟨.symbol key.1, .timestamp key.2, value⟩

/-! ## Alignment -/

/-- A frame of a factor, by the way it is normalised: with the columns of the index and the values,
with the index and the values alone, or in a form that cannot be normalised. -/
inductive FactorFrame where
  | long (rows : IndexedSeries)
  | indexed (rows : IndexedSeries)
  | unusable

/-- `_to_multiindex`. -/
def FactorFrame.toMultiindex : FactorFrame → Option IndexedSeries
  | long rows => some (rows.filter fun row => row.2.isSome)
  | indexed rows => some rows
  | unusable => none

/-- A `factor_dict`. -/
structure FactorDict where
  entries : List (String × FactorFrame)
  distinct : (entries.map Prod.fst).Nodup

/-- A column of an aligned table. -/
abbrev WideColumn := String × (RowKey → Option ℚ)

/-- The table of the aligned factors. -/
structure WideTable where
  columns : List WideColumn
  index : List RowKey

/-- The value of a series at a row of its index. -/
def valueAt (series : IndexedSeries) (key : RowKey) : Option ℚ :=
  (series.find? fun row => row.1 = key).bind Prod.snd

/-- The series of the frames that can be normalised. -/
def FactorDict.aligned (factorDict : FactorDict) : List (String × IndexedSeries) :=
  factorDict.entries.filterMap fun entry =>
    entry.2.toMultiindex.map fun series => (entry.1, series)

/-- The series side by side, at the rows of the first one that have a value. -/
def stack (aligned : List (String × IndexedSeries)) : Except CompositeError WideTable :=
  match aligned with
  | [] => .error (.valueError "Could not align any factors")
  | (_, base) :: _ =>
      if ∀ entry ∈ aligned, (entry.2.map Prod.fst).Nodup then
        .ok { columns := aligned.map fun entry => (entry.1, valueAt entry.2)
              index := (base.map Prod.fst).filter fun key =>
                aligned.any fun entry => (valueAt entry.2 key).isSome }
      else .error (.valueError "cannot handle a non-unique multi-index!")

/-- `_align_and_stack`. -/
def alignAndStack (factorDict : FactorDict) : Except CompositeError WideTable :=
  if factorDict.entries = [] then .error (.valueError "factor_dict is empty")
  else stack factorDict.aligned

/-! ## Builders -/

/-- `build_equal_weight`. -/
def buildEqualWeight (factorDict : FactorDict) : Except CompositeError (List CompositeRow) :=
  match alignAndStack factorDict with
  | .error error => .error error
  | .ok wide => .ok (wide.index.filterMap fun key =>
      let present := wide.columns.filterMap fun column => column.2 key
      if present = [] then none else some (compositeRow key (Correlation.mean present)))

/-- The percentile rank of a value among those that are there. -/
def percentileRank (present : List ℚ) (x : ℚ) : ℚ := averageRank present x / present.length

/-- `build_rank_average`. An empty table is grouped without its symbols. -/
def buildRankAverage (factorDict : FactorDict) : Except CompositeError (List CompositeRow) :=
  match alignAndStack factorDict with
  | .error error => .error error
  | .ok wide =>
      if wide.index = [] then
        .error (.valueError
          "Length mismatch: Expected axis has 2 elements, new values have 3 elements")
      else
        let timestamps := (wide.index.map Prod.snd).dedup.insertionSort (· ≤ ·)
        .ok (timestamps.flatMap fun timestamp =>
          let group := wide.index.filter fun key => key.2 = timestamp
          group.filterMap fun key =>
            let ranks := wide.columns.filterMap fun column => (column.2 key).map fun x =>
              percentileRank (group.filterMap column.2) x
            if ranks = [] then none
            else some ⟨.timestamp timestamp, .symbol key.1, Correlation.mean ranks⟩)

/-- The rows of the table that have a label. -/
def WideTable.common (wide : WideTable) (labels : IndexedSeries) : List RowKey :=
  wide.index.filter fun key => key ∈ labels.map Prod.fst

/-- The values of a column with the labels, in the rows that have both. -/
def WideTable.pairs (wide : WideTable) (labels : IndexedSeries) (column : WideColumn) :
    List (ℚ × ℚ) :=
  (wide.common labels).flatMap fun key =>
    match column.2 key with
    | some x => (labels.filter fun row => row.1 = key).filterMap fun row =>
        row.2.map fun y => (x, y)
    | none => []

/-- Addition of values that may be missing. -/
def addMissing : Option ℚ → Option ℚ → Option ℚ
  | some x, some y => some (x + y)
  | _, _ => none

/-- The weighted sum of a row, missing if a value is. -/
def weightedSum (weight : WideColumn → ℚ) (columns : List WideColumn) (key : RowKey) : Option ℚ :=
  columns.foldl (fun sum column => addMissing sum ((column.2 key).map (weight column * ·))) (some 0)

/-- The rows of a table with the weighted sums that are there. -/
def compositeRows (weight : WideColumn → ℚ) (columns : List WideColumn) (keys : List RowKey) :
    List CompositeRow :=
  keys.filterMap fun key => (weightedSum weight columns key).map (compositeRow key)

/-- What is passed for `label_series`: a series, or the name of a composite. -/
inductive LabelArgument where
  | series (labels : IndexedSeries)
  | text (name : String)

section Builders

variable (corr : List (ℚ × ℚ) → Option ℚ)

/-- The IC of a column: zero for fewer than ten rows, or if the correlation is undefined. -/
def WideTable.ic (wide : WideTable) (labels : IndexedSeries) (column : WideColumn) : ℚ :=
  let pairs := wide.pairs labels column
  if pairs.length < 10 then 0 else (corr pairs).getD 0

/-- The sum of the sizes of the ICs. -/
def WideTable.total (wide : WideTable) (labels : IndexedSeries) : ℚ :=
  (wide.columns.map fun column => |wide.ic corr labels column|).sum

/-- `build_ic_weighted`. A text has no index that could be intersected with. -/
def buildIcWeighted (factorDict : FactorDict) (labelSeries : LabelArgument) :
    Except CompositeError (List CompositeRow) :=
  match alignAndStack factorDict with
  | .error error => .error error
  | .ok wide =>
      match labelSeries with
      | .text _ => .error (.typeError "Input must be Index or array-like")
      | .series labels =>
          let total := wide.total corr labels
          if total = 0 then buildEqualWeight factorDict
          else .ok (compositeRows (fun column => |wide.ic corr labels column| / total)
            wide.columns (wide.common labels))

/-- The name of a composite: the given one, unless it is empty. -/
def compositeName (method : String) (name : Option String) : String :=
  match name with
  | some text => if text = "" then "COMPOSITE_" ++ method.toUpper else text
  | none => "COMPOSITE_" ++ method.toUpper

/-- `build_composite`. -/
def buildComposite (factorDict : FactorDict) (method : String) (name : Option String)
    (labelSeries : Option IndexedSeries) : Except CompositeError (List CompositeRow) :=
  let methods := ["equal_weight", "ic_weighted", "rank_average"]
  if method ∉ methods then
    .error (.valueError ("Unknown method " ++ quoted method ++ ". Available: " ++
      quotedList methods))
  else if method = "ic_weighted" ∧ labelSeries.isNone then
    .error (.valueError ("method=\x27ic_weighted\x27 requires label_series argument. " ++
      "Provide a forward return series aligned to factor index."))
  else if method = "equal_weight" then buildEqualWeight factorDict
  else if method = "ic_weighted" then
    buildIcWeighted corr factorDict (.text (compositeName method name))
  else buildRankAverage factorDict

end Builders

/-! ## Sums over a row -/

section Sums

variable {columns : List WideColumn} {key : RowKey}

/-- The weighted sum of the values that are there. -/
def rowSum (weight : WideColumn → ℚ) (columns : List WideColumn) (key : RowKey) : ℚ :=
  (columns.map fun column => weight column * (column.2 key).getD 0).sum

/-- Every column has a value in the row. -/
def complete (columns : List WideColumn) (key : RowKey) : Bool :=
  columns.all fun column => (column.2 key).isSome

/-- The induction is on the columns; a value that is missing stays missing. -/
theorem foldl_addMissing (weight : WideColumn → ℚ) (start : Option ℚ) :
    columns.foldl (fun sum column =>
        addMissing sum ((column.2 key).map (weight column * ·))) start =
      if complete columns key then start.map (· + rowSum weight columns key) else none := by
  rw [complete, rowSum]
  induction columns generalizing start with
  | nil => simp
  | cons column columns ih =>
      rw [List.foldl_cons, ih, List.all_cons, List.map_cons, List.sum_cons]
      cases start with
      | none => simp [addMissing]
      | some q =>
          cases column.2 key with
          | none => simp [addMissing]
          | some x =>
              rw [Option.isSome_some, Bool.true_and]
              simp [addMissing, add_assoc]

/-- The weighted sum of a complete row. -/
theorem weightedSum_eq (weight : WideColumn → ℚ) :
    weightedSum weight columns key =
      if complete columns key then some (rowSum weight columns key) else none := by
  rw [weightedSum, foldl_addMissing, Option.map_some, zero_add]

/-- Two tables of composites with the same rows are equal if their values are. -/
theorem filterMap_key_eq_iff {f g : RowKey → Option ℚ} {keys : List RowKey}
    (rows : ∀ key ∈ keys, (f key).isSome = (g key).isSome) :
    (keys.filterMap fun key => (f key).map (compositeRow key)) =
        (keys.filterMap fun key => (g key).map (compositeRow key)) ↔
      ∀ key ∈ keys, f key = g key := by
  induction keys with
  | nil => simp
  | cons key keys ih =>
      have first := rows key List.mem_cons_self
      have later := ih fun other member => rows other (List.mem_cons_of_mem key member)
      rw [List.forall_mem_cons, ← later]
      cases left : f key with
      | none =>
          cases right : g key with
          | none => simp [left, right]
          | some y => simp [left, right] at first
      | some x =>
          cases right : g key with
          | none => simp [left, right] at first
          | some y => simp [left, right, compositeRow]

/-- Two composites with the same complete rows are equal if their sums are. -/
theorem compositeRows_eq_iff {weight weight' : WideColumn → ℚ} {columns' : List WideColumn}
    {keys : List RowKey} (same : ∀ key, complete columns' key = complete columns key) :
    compositeRows weight columns keys = compositeRows weight' columns' keys ↔
      ∀ key ∈ keys, complete columns key = true →
        rowSum weight columns key = rowSum weight' columns' key := by
  have rows : ∀ key ∈ keys, (weightedSum weight columns key).isSome =
      (weightedSum weight' columns' key).isSome := by
    intro key _
    rw [weightedSum_eq, weightedSum_eq, same]
    cases complete columns key <;> rfl
  rw [compositeRows, compositeRows, filterMap_key_eq_iff rows]
  refine forall₂_congr fun key _ => ?_
  rw [weightedSum_eq, weightedSum_eq, same]
  cases complete columns key <;> simp

end Sums

end TradeOS.Alpha
