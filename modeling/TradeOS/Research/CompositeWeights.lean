import TradeOS.Research.CompositeBuilders
import Mathlib.Algebra.BigOperators.Ring.List
import Mathlib.Algebra.Order.BigOperators.Group.List
import Mathlib.Algebra.Order.Group.Abs
import Mathlib.Data.Rat.Sqrt
import Mathlib.Tactic.Linarith

/-!
# The weights of composite factors

The weights of an IC-weighted composite are documented to be the ICs, divided by the sum of their
sizes. The code takes the sizes of the ICs also for the weights themselves, so that a factor with a
negative IC enters with the wrong sign. The dispatcher passes the name of the composite where the
labels are expected.

So the composite is the documented one exactly where the factors with negative ICs cancel in every
complete row (`signedLaw_iff`), it does not change with the sign of a factor exactly where that
factor has no IC or is zero (`negationLaw_iff`), and the dispatcher never returns a table: all
together hold only where the direct call raises as well (`icWeighting_iff`).
-/

set_option autoImplicit false

namespace TradeOS.Alpha

open Numeric

/-! ## Sums with signed weights -/

section Weights

variable {α : Type}

/-- The sizes of the weights in place of the weights change a sum by twice what the negative ones
contribute. -/
theorem sum_abs_mul (w x : α → ℚ) (xs : List α) :
    (xs.map fun a => |w a| * x a).sum =
      (xs.map fun a => w a * x a).sum - 2 * ((xs.filter fun a => w a < 0).map fun a =>
        w a * x a).sum := by
  induction xs with
  | nil => simp
  | cons a xs ih =>
      rw [List.map_cons, List.sum_cons, List.map_cons, List.sum_cons, ih]
      by_cases negative : w a < 0
      · rw [List.filter_cons_of_pos (p := fun a => w a < 0) (decide_eq_true negative),
          List.map_cons, List.sum_cons, abs_of_neg negative]
        ring
      · rw [List.filter_cons_of_neg (p := fun a => w a < 0) (by simpa using negative),
          abs_of_nonneg (not_lt.mp negative)]
        ring

theorem sum_div_mul (w x : α → ℚ) (total : ℚ) (xs : List α) :
    (xs.map fun a => w a / total * x a).sum = (xs.map fun a => w a * x a).sum / total := by
  rw [div_eq_mul_inv, ← List.sum_map_mul_right]
  exact congrArg List.sum (List.map_congr_left fun a _ => by ring)

end Weights

/-! ## The laws -/

/-- The series with its values negated. -/
def negateSeries (series : IndexedSeries) : IndexedSeries :=
  series.map fun row => (row.1, row.2.map fun x => -x)

/-- The frame with its values negated. -/
def FactorFrame.negate : FactorFrame → FactorFrame
  | long rows => long (negateSeries rows)
  | indexed rows => indexed (negateSeries rows)
  | unusable => unusable

/-- The factors with one of them negated. -/
def FactorDict.negate (factorDict : FactorDict) (name : String) : FactorDict where
  entries := factorDict.entries.map fun entry =>
    (entry.1, if entry.1 = name then entry.2.negate else entry.2)
  distinct := by
    rw [List.map_map]
    exact factorDict.distinct

section Laws

variable (corr : List (ℚ × ℚ) → Option ℚ) (factorDict : FactorDict) (labels : IndexedSeries)

/-- Some factor has an IC that is not zero. -/
def WideTable.HasIc (wide : WideTable) : Prop :=
  ∃ column ∈ wide.columns, wide.ic corr labels column ≠ 0

/-- The composite that is documented: the weights are the ICs over the sum of their sizes. -/
def WideTable.documented (wide : WideTable) : List CompositeRow :=
  compositeRows (fun column => wide.ic corr labels column / wide.total corr labels) wide.columns
    (wide.common labels)

/-- The composite is the documented one if some IC is not zero. -/
def SignedLaw : Prop :=
  ∀ wide, alignAndStack factorDict = .ok wide → wide.HasIc corr labels →
    buildIcWeighted corr factorDict (.series labels) = .ok (wide.documented corr labels)

/-- The composite does not change with the sign of a factor if some IC is not zero. -/
def NegationLaw (name : String) : Prop :=
  ∀ wide, alignAndStack factorDict = .ok wide → wide.HasIc corr labels →
    buildIcWeighted corr (factorDict.negate name) (.series labels) =
      buildIcWeighted corr factorDict (.series labels)

/-- The dispatcher does what the direct call does. -/
def DispatchLaw : Prop :=
  ∀ name, buildComposite corr factorDict "ic_weighted" name (some labels) =
    buildIcWeighted corr factorDict (.series labels)

/-- The laws of the IC weighting. -/
structure IcWeighting : Prop where
  signed : SignedLaw corr factorDict labels
  negation : ∀ name, NegationLaw corr factorDict labels name
  dispatched : DispatchLaw corr factorDict labels

end Laws

section Characterisation

variable {corr : List (ℚ × ℚ) → Option ℚ} {factorDict : FactorDict} {labels : IndexedSeries}
  {wide : WideTable} {name : String}

/-! ### The direct call -/

theorem total_eq_zero_iff : wide.total corr labels = 0 ↔ ¬ wide.HasIc corr labels := by
  constructor
  · rintro vanishes ⟨column, member, nonzero⟩
    have size := List.all_zero_of_le_zero_le_of_sum_eq_zero (fun x listed => by
      obtain ⟨other, -, rfl⟩ := List.mem_map.mp listed
      exact abs_nonneg _) vanishes (List.mem_map_of_mem member)
    exact nonzero (abs_eq_zero.mp size)
  · intro without
    refine List.sum_eq_zero fun x listed => ?_
    obtain ⟨column, member, rfl⟩ := List.mem_map.mp listed
    by_contra nonzero
    exact without ⟨column, member, abs_ne_zero.mp nonzero⟩

theorem buildIcWeighted_eq (aligned : alignAndStack factorDict = .ok wide)
    (hasIc : wide.HasIc corr labels) :
    buildIcWeighted corr factorDict (.series labels) =
      .ok (compositeRows (fun column => |wide.ic corr labels column| / wide.total corr labels)
        wide.columns (wide.common labels)) := by
  have positive : wide.total corr labels ≠ 0 := fun zero => total_eq_zero_iff.mp zero hasIc
  simp only [buildIcWeighted, aligned, if_neg positive]

/-- The direct call raises only where the alignment does. -/
theorem buildIcWeighted_error_iff :
    (∃ error, buildIcWeighted corr factorDict (.series labels) = .error error) ↔
      ∃ error, alignAndStack factorDict = .error error := by
  rw [buildIcWeighted]
  cases aligned : alignAndStack factorDict with
  | error error => simp
  | ok wide =>
      refine iff_of_false ?_ (by simp)
      rintro ⟨error, raised⟩
      simp only [buildEqualWeight, aligned] at raised
      split at raised <;> cases raised

/-- The dispatcher returns a table in no case. -/
theorem dispatchLaw_iff :
    DispatchLaw corr factorDict labels ↔
      ∃ error, buildIcWeighted corr factorDict (.series labels) = .error error := by
  have dispatched (name : Option String) :
      buildComposite corr factorDict "ic_weighted" name (some labels) =
        buildIcWeighted corr factorDict (.text (compositeName "ic_weighted" name)) := rfl
  rw [DispatchLaw, buildIcWeighted_error_iff]
  cases aligned : alignAndStack factorDict with
  | error error =>
      refine iff_of_true (fun name => ?_) ⟨error, rfl⟩
      rw [dispatched]
      simp only [buildIcWeighted, aligned]
  | ok wide =>
      refine iff_of_false (fun same => ?_) (by simp)
      have raised : ∃ error, buildIcWeighted corr factorDict (.series labels) = .error error := by
        rw [← same none, dispatched]
        exact ⟨.typeError "Input must be Index or array-like", by
          simp only [buildIcWeighted, aligned]⟩
      rw [buildIcWeighted_error_iff, aligned] at raised
      simp at raised

/-! ### The sign of the weights -/

/-- **The composite is the documented one exactly where the factors with negative ICs cancel in
every complete row.** -/
theorem signedLaw_iff :
    SignedLaw corr factorDict labels ↔
      ∀ wide, alignAndStack factorDict = .ok wide → ∀ key ∈ wide.common labels,
        complete wide.columns key = true →
          rowSum (wide.ic corr labels)
            (wide.columns.filter fun column => wide.ic corr labels column < 0) key = 0 := by
  refine forall₂_congr fun wide aligned => ?_
  by_cases hasIc : wide.HasIc corr labels
  · have positive : wide.total corr labels ≠ 0 := fun zero => total_eq_zero_iff.mp zero hasIc
    rw [buildIcWeighted_eq aligned hasIc, WideTable.documented, imp_iff_right hasIc,
      Except.ok.injEq, compositeRows_eq_iff fun _ => rfl]
    refine forall₃_congr fun key _ _ => ?_
    rw [rowSum, rowSum, sum_div_mul, sum_div_mul, div_left_inj' positive, sum_abs_mul,
      sub_eq_self, mul_eq_zero_iff_left two_ne_zero, rowSum]
  · refine iff_of_true (fun given => absurd given hasIc) fun key _ _ => ?_
    have positive : (wide.columns.filter fun column => wide.ic corr labels column < 0) = [] := by
      refine List.filter_eq_nil_iff.mpr fun column member negative => ?_
      exact hasIc ⟨column, member, (of_decide_eq_true negative).ne⟩
    rw [positive]
    rfl

/-! ### A negated factor -/

/-- The column with its values negated, if it has the name. -/
def negateColumn (name : String) (column : WideColumn) : WideColumn :=
  (column.1, fun key => if column.1 = name then (column.2 key).map fun x => -x else column.2 key)

/-- The table with the columns of a name negated. -/
def WideTable.negate (wide : WideTable) (name : String) : WideTable where
  columns := wide.columns.map (negateColumn name)
  index := wide.index

/-- The series with its values negated, if it has the name. -/
def negateEntry (name : String) (entry : String × IndexedSeries) : String × IndexedSeries :=
  (entry.1, if entry.1 = name then negateSeries entry.2 else entry.2)

theorem valueAt_negateSeries (series : IndexedSeries) (key : RowKey) :
    valueAt (negateSeries series) key = (valueAt series key).map fun x => -x := by
  rw [valueAt, negateSeries, List.find?_map, valueAt]
  simp only [Function.comp_def]
  cases series.find? fun row => row.1 = key <;> rfl

theorem keys_negateEntry (name : String) (entry : String × IndexedSeries) :
    (negateEntry name entry).2.map Prod.fst = entry.2.map Prod.fst := by
  rw [negateEntry]
  split
  · rw [negateSeries, List.map_map]
    rfl
  · rfl

theorem valueAt_negateEntry (entry : String × IndexedSeries) (key : RowKey) :
    valueAt (negateEntry name entry).2 key =
      if entry.1 = name then (valueAt entry.2 key).map fun x => -x else valueAt entry.2 key := by
  rw [negateEntry]
  split
  · exact valueAt_negateSeries entry.2 key
  · rfl

theorem toMultiindex_negate (frame : FactorFrame) :
    frame.negate.toMultiindex = frame.toMultiindex.map negateSeries := by
  cases frame with
  | long rows =>
      simp only [FactorFrame.negate, FactorFrame.toMultiindex, negateSeries, List.filter_map,
        Function.comp_def, Option.isSome_map, Option.map_some]
  | indexed rows => rfl
  | unusable => rfl

theorem aligned_negate :
    (factorDict.negate name).aligned = factorDict.aligned.map (negateEntry name) := by
  rw [FactorDict.aligned, FactorDict.negate, List.filterMap_map, FactorDict.aligned,
    List.map_filterMap]
  refine List.filterMap_congr fun entry _ => ?_
  by_cases own : entry.1 = name
  · simp [own, toMultiindex_negate, negateEntry, Function.comp_def]
  · simp [own, negateEntry, Function.comp_def]

theorem isSome_negateEntry (entry : String × IndexedSeries) (key : RowKey) :
    (valueAt (negateEntry name entry).2 key).isSome = (valueAt entry.2 key).isSome := by
  rw [valueAt_negateEntry]
  split
  · exact Option.isSome_map
  · rfl

theorem stack_negate (aligned : List (String × IndexedSeries)) :
    stack (aligned.map (negateEntry name)) =
      (stack aligned).map fun wide => wide.negate name := by
  cases aligned with
  | nil => rfl
  | cons first rest =>
      have unique : (∀ entry ∈ (first :: rest).map (negateEntry name),
            (entry.2.map Prod.fst).Nodup) ↔
          ∀ entry ∈ first :: rest, (entry.2.map Prod.fst).Nodup := by
        simp only [List.forall_mem_map, keys_negateEntry]
      have columns : ((first :: rest).map (negateEntry name)).map
            (fun entry => (entry.1, valueAt entry.2)) =
          ((first :: rest).map fun entry => (entry.1, valueAt entry.2)).map
            (negateColumn name) := by
        rw [List.map_map, List.map_map]
        refine List.map_congr_left fun entry _ => ?_
        exact Prod.ext rfl (funext fun key => valueAt_negateEntry entry key)
      have present (key : RowKey) : (((first :: rest).map (negateEntry name)).any fun entry =>
            (valueAt entry.2 key).isSome) =
          (first :: rest).any fun entry => (valueAt entry.2 key).isSome := by
        rw [List.any_map]
        simp only [Function.comp_def, isSome_negateEntry]
      have index := keys_negateEntry name first
      rw [List.map_cons] at unique columns present ⊢
      simp only [stack, columns, present, index]
      by_cases distinct : ∀ entry ∈ first :: rest, (entry.2.map Prod.fst).Nodup
      · rw [if_pos (unique.mpr distinct), if_pos distinct]
        rfl
      · rw [if_neg fun other => distinct (unique.mp other), if_neg distinct]
        rfl

theorem alignAndStack_negate :
    alignAndStack (factorDict.negate name) =
      (alignAndStack factorDict).map fun wide => wide.negate name := by
  have entries : (factorDict.negate name).entries = [] ↔ factorDict.entries = [] :=
    List.map_eq_nil_iff
  rw [alignAndStack, alignAndStack, aligned_negate, stack_negate]
  by_cases empty : factorDict.entries = []
  · rw [if_pos empty, if_pos (entries.mpr empty)]
    rfl
  · rw [if_neg empty, if_neg fun other => empty (entries.mp other)]

theorem aligned_names_sublist (factorDict : FactorDict) :
    (factorDict.aligned.map Prod.fst).Sublist (factorDict.entries.map Prod.fst) := by
  rw [FactorDict.aligned]
  induction factorDict.entries with
  | nil => exact .slnil
  | cons entry entries ih =>
      rw [List.filterMap_cons]
      cases entry.2.toMultiindex with
      | none => exact ih.cons entry.1
      | some series => exact ih.cons_cons entry.1

/-- The aligned columns have names of factors, each at most once. -/
theorem columns_nodup (aligned : alignAndStack factorDict = .ok wide) :
    (wide.columns.map Prod.fst).Nodup := by
  have names := factorDict.distinct.sublist (aligned_names_sublist factorDict)
  rw [alignAndStack] at aligned
  split at aligned
  · cases aligned
  · cases series : factorDict.aligned with
    | nil =>
        rw [series] at aligned
        cases aligned
    | cons first rest =>
        rw [series] at aligned names
        simp only [stack] at aligned
        split at aligned
        · cases aligned
          rw [List.map_map]
          exact names
        · cases aligned

/-! ### The weights of a negated factor -/

theorem pairs_negate (column : WideColumn) :
    (wide.negate name).pairs labels (negateColumn name column) =
      if column.1 = name then Correlation.negated (wide.pairs labels column)
      else wide.pairs labels column := by
  by_cases own : column.1 = name
  · rw [if_pos own, Correlation.negated, WideTable.pairs, WideTable.pairs, List.map_flatMap]
    refine List.flatMap_congr fun key _ => ?_
    simp only [negateColumn, if_pos own]
    cases column.2 key with
    | none => rfl
    | some x =>
        simp only [Option.map_some, List.map_filterMap, Option.map_map, Function.comp_def]
  · rw [if_neg own, WideTable.pairs, WideTable.pairs]
    refine List.flatMap_congr fun key _ => ?_
    simp only [negateColumn, if_neg own]

theorem ic_negate (odd : Correlation.Odd corr) (column : WideColumn) :
    (wide.negate name).ic corr labels (negateColumn name column) =
      if column.1 = name then -wide.ic corr labels column else wide.ic corr labels column := by
  rw [WideTable.ic, pairs_negate, WideTable.ic]
  split
  · rw [Correlation.negated, List.length_map, ← Correlation.negated, odd]
    split
    · rw [neg_zero]
    · cases corr (wide.pairs labels column) <;> simp
  · rfl

theorem abs_ic_negate (odd : Correlation.Odd corr) (column : WideColumn) :
    |(wide.negate name).ic corr labels (negateColumn name column)| =
      |wide.ic corr labels column| := by
  rw [ic_negate odd]
  split
  · exact abs_neg _
  · rfl

theorem total_negate (odd : Correlation.Odd corr) :
    (wide.negate name).total corr labels = wide.total corr labels := by
  rw [WideTable.total, WideTable.negate, List.map_map, WideTable.total]
  exact congrArg List.sum (List.map_congr_left fun column _ => abs_ic_negate odd column)

theorem hasIc_negate (odd : Correlation.Odd corr) :
    (wide.negate name).HasIc corr labels ↔ wide.HasIc corr labels := by
  rw [← not_iff_not, ← total_eq_zero_iff, ← total_eq_zero_iff, total_negate odd]

theorem complete_negate (name : String) (columns : List WideColumn) (key : RowKey) :
    complete (columns.map (negateColumn name)) key = complete columns key := by
  rw [complete, List.all_map, complete]
  refine congrArg (List.all columns) (funext fun column => ?_)
  rw [Function.comp_apply, negateColumn]
  split
  · exact Option.isSome_map
  · rfl

/-- A negated factor changes the sum of a complete row by twice what it contributes. -/
theorem rowSum_negate (weight weight' : WideColumn → ℚ) {columns : List WideColumn}
    (same : ∀ column, weight' (negateColumn name column) = weight column) (key : RowKey) :
    rowSum weight' (columns.map (negateColumn name)) key =
      rowSum weight columns key -
        2 * rowSum weight (columns.filter fun column => column.1 = name) key := by
  induction columns with
  | nil => simp [rowSum]
  | cons column columns ih =>
      rw [rowSum, rowSum, rowSum] at ih
      rw [rowSum, rowSum, rowSum, List.map_cons, List.map_cons, List.sum_cons, ih, List.map_cons,
        List.sum_cons, same]
      by_cases own : column.1 = name
      · rw [List.filter_cons_of_pos (p := fun column : WideColumn => column.1 = name)
          (decide_eq_true own), List.map_cons, List.sum_cons]
        have value : ((negateColumn name column).2 key).getD 0 = -(column.2 key).getD 0 := by
          simp only [negateColumn, if_pos own]
          cases column.2 key <;> simp
        rw [value]
        ring
      · rw [List.filter_cons_of_neg (p := fun column : WideColumn => column.1 = name)
          (by simpa using own)]
        have value : (negateColumn name column).2 key = column.2 key := by
          simp only [negateColumn, if_neg own]
        rw [value]
        ring

/-- Among columns of distinct names, the sum over those of a name has a single summand. -/
theorem rowSum_name_eq_zero_iff {weight : WideColumn → ℚ} {columns : List WideColumn}
    (distinct : (columns.map Prod.fst).Nodup) (key : RowKey) :
    rowSum weight (columns.filter fun column => column.1 = name) key = 0 ↔
      ∀ column ∈ columns, column.1 = name → weight column * (column.2 key).getD 0 = 0 := by
  induction columns with
  | nil => simp [rowSum]
  | cons column columns ih =>
      obtain ⟨fresh, rest⟩ := List.nodup_cons.mp distinct
      rw [List.forall_mem_cons, ← ih rest]
      by_cases own : column.1 = name
      · have others : (columns.filter fun other => other.1 = name) = [] := by
          refine List.filter_eq_nil_iff.mpr fun other member same => fresh ?_
          rw [own, ← of_decide_eq_true same]
          exact List.mem_map_of_mem member
        rw [List.filter_cons_of_pos (p := fun column : WideColumn => column.1 = name)
          (decide_eq_true own), others, imp_iff_right own]
        simp [rowSum]
      · rw [List.filter_cons_of_neg (p := fun column : WideColumn => column.1 = name)
          (by simpa using own)]
        exact (and_iff_right fun same => absurd same own).symm

/-- **The composite does not change with the sign of a factor exactly where the factor has no IC or
is zero in every complete row.** -/
theorem negationLaw_iff (odd : Correlation.Odd corr) :
    NegationLaw corr factorDict labels name ↔
      ∀ wide, alignAndStack factorDict = .ok wide → ∀ key ∈ wide.common labels,
        complete wide.columns key = true → ∀ column ∈ wide.columns, column.1 = name →
          wide.ic corr labels column = 0 ∨ column.2 key = some 0 := by
  refine forall₂_congr fun wide aligned => ?_
  by_cases hasIc : wide.HasIc corr labels
  · have positive : wide.total corr labels ≠ 0 := fun zero => total_eq_zero_iff.mp zero hasIc
    have negated : alignAndStack (factorDict.negate name) = .ok (wide.negate name) := by
      rw [alignAndStack_negate, aligned]
      rfl
    rw [imp_iff_right hasIc, buildIcWeighted_eq negated ((hasIc_negate odd).mpr hasIc),
      buildIcWeighted_eq aligned hasIc, Except.ok.injEq, eq_comm]
    refine (compositeRows_eq_iff (complete_negate name wide.columns)).trans ?_
    refine forall₃_congr fun key _ whole => ?_
    rw [rowSum_negate (fun column => |wide.ic corr labels column| / wide.total corr labels) _
      (fun column => by rw [abs_ic_negate odd, total_negate odd]), eq_comm, sub_eq_self,
      mul_eq_zero_iff_left two_ne_zero, rowSum_name_eq_zero_iff (columns_nodup aligned)]
    refine forall₃_congr fun column member _ => ?_
    obtain ⟨value, present⟩ := Option.isSome_iff_exists.mp (List.all_eq_true.mp whole column member)
    rw [present, Option.getD_some, mul_eq_zero, div_eq_zero_iff, abs_eq_zero,
      or_iff_left positive, Option.some.injEq]
  · refine iff_of_true (fun given => absurd given hasIc) fun key _ _ column member _ => ?_
    by_contra nonzero
    exact hasIc ⟨column, member, fun zero => nonzero (.inl zero)⟩

/-- **The laws of the IC weighting hold together only where the direct call raises.** Each of the
first two has its own condition on the aligned factors. -/
theorem icWeighting_iff (corr : List (ℚ × ℚ) → Option ℚ) (odd : Correlation.Odd corr)
    (factorDict : FactorDict) (labels : IndexedSeries) :
    (IcWeighting corr factorDict labels ↔
        ∃ error, buildIcWeighted corr factorDict (.series labels) = .error error) ∧
      (SignedLaw corr factorDict labels ↔
        ∀ wide, alignAndStack factorDict = .ok wide → ∀ key ∈ wide.common labels,
          complete wide.columns key = true →
            rowSum (wide.ic corr labels)
              (wide.columns.filter fun column => wide.ic corr labels column < 0) key = 0) ∧
      ∀ name, NegationLaw corr factorDict labels name ↔
        ∀ wide, alignAndStack factorDict = .ok wide → ∀ key ∈ wide.common labels,
          complete wide.columns key = true → ∀ column ∈ wide.columns, column.1 = name →
            wide.ic corr labels column = 0 ∨ column.2 key = some 0 := by
  refine ⟨⟨fun laws => dispatchLaw_iff.mp laws.dispatched, fun raises => ?_⟩,
    signedLaw_iff, fun name => negationLaw_iff odd⟩
  obtain ⟨error, unaligned⟩ := buildIcWeighted_error_iff.mp raises
  refine ⟨fun wide aligned => ?_, fun name wide aligned => ?_,
    dispatchLaw_iff.mpr raises⟩
  · rw [unaligned] at aligned
    cases aligned
  · rw [unaligned] at aligned
    cases aligned

/-! ## A factor with a negative IC -/

/-- Ten rows with the values from one on, times a number. -/
def tenRows (scale : ℚ) : IndexedSeries :=
  (List.range 10).map fun place : ℕ => (("AAPL", (place : ℤ)), some (scale * (place + 1)))

/-- A factor that rises while the labels fall. -/
def reversal : FactorDict where
  entries := [("REVERSAL", .long (tenRows 1))]
  distinct := List.nodup_singleton _

/-- The composite that the code builds is the factor itself. -/
theorem reversal_built :
    buildIcWeighted (Correlation.pearson Rat.sqrt) reversal (.series (tenRows (-1))) =
      .ok ((List.range 10).map fun place : ℕ => compositeRow ("AAPL", place) (place + 1)) := by
  decide +kernel

/-- The documented composite has the opposite sign. -/
theorem reversal_documented :
    ((alignAndStack reversal).map fun wide =>
        (wide.total (Correlation.pearson Rat.sqrt) (tenRows (-1)),
          wide.documented (Correlation.pearson Rat.sqrt) (tenRows (-1)))) =
      .ok (1, (List.range 10).map fun place : ℕ =>
        compositeRow ("AAPL", place) (-(place + 1))) := by
  decide +kernel

theorem exists_reversal_wide :
    ∃ wide, alignAndStack reversal = .ok wide ∧
      wide.HasIc (Correlation.pearson Rat.sqrt) (tenRows (-1)) ∧
      wide.documented (Correlation.pearson Rat.sqrt) (tenRows (-1)) =
        (List.range 10).map fun place : ℕ => compositeRow ("AAPL", place) (-(place + 1)) := by
  have documented := reversal_documented
  cases aligned : alignAndStack reversal with
  | error error =>
      rw [aligned] at documented
      cases documented
  | ok wide =>
      rw [aligned] at documented
      obtain ⟨total, rows⟩ := Prod.mk.inj (Except.ok.inj documented)
      refine ⟨wide, rfl, ?_, rows⟩
      by_contra without
      rw [total_eq_zero_iff.mpr without] at total
      exact zero_ne_one total

/-- None of the laws holds. -/
theorem reversal_misweighted :
    ¬ SignedLaw (Correlation.pearson Rat.sqrt) reversal (tenRows (-1)) ∧
      ¬ NegationLaw (Correlation.pearson Rat.sqrt) reversal (tenRows (-1)) "REVERSAL" ∧
      ¬ IcWeighting (Correlation.pearson Rat.sqrt) reversal (tenRows (-1)) := by
  obtain ⟨wide, aligned, hasIc, documented⟩ := exists_reversal_wide
  have unsigned : ¬ SignedLaw (Correlation.pearson Rat.sqrt) reversal (tenRows (-1)) := by
    intro law
    have built := law wide aligned hasIc
    rw [reversal_built, documented] at built
    revert built
    decide +kernel
  refine ⟨unsigned, fun law => ?_, fun laws => unsigned laws.signed⟩
  have same := law wide aligned hasIc
  revert same
  decide +kernel

theorem icWeighting_reversal :
    IcWeighting (Correlation.pearson Rat.sqrt) reversal (tenRows (-1)) ↔
      ∃ error, buildIcWeighted (Correlation.pearson Rat.sqrt) reversal
        (.series (tenRows (-1))) = .error error :=
  (icWeighting_iff (Correlation.pearson Rat.sqrt) (Correlation.pearson_odd Rat.sqrt) reversal
    (tenRows (-1))).1

end Characterisation

end TradeOS.Alpha
