import TradeOS.Data.Columns
import TradeOS.Data.Validation
import TradeOS.Numeric.Extended
import Mathlib.Data.List.Sort
import Mathlib.Data.String.Basic

/-!
# Labels

A label of a row is made of the return over the next rows of the same symbol. The table is sorted
by symbol and time, the closes of every symbol are shifted, and the return of a row without a
shifted close is NaN. Rows whose label is NaN are dropped at the end.

Two of the five builders classify the returns before the drop and turn NaN into a class, so that
no row is dropped. The others label exactly the rows whose window is complete
(`labels_windowed_iff`).
-/

set_option autoImplicit false

namespace TradeOS.Research

open Columns Numeric Numeric.Extended

/-! ## Tables -/

/-- A row of the data. -/
structure PriceRow where
  symbol : String
  timestamp : ℤ
  close : PositiveRational

/-- A row of a table of labels. -/
structure LabelRow where
  symbol : String
  timestamp : ℤ
  labelValue : Extended
  deriving DecidableEq

/-- `sort_values(["symbol", "timestamp"])`. -/
def sortRows (data : List PriceRow) : List PriceRow :=
  data.insertionSort fun row other =>
    row.symbol < other.symbol ∨ row.symbol = other.symbol ∧ row.timestamp ≤ other.timestamp

/-- `x.shift(-h)`. -/
def shift (h : ℕ) (xs : List Extended) : List Extended :=
  xs.drop h ++ List.replicate (min h xs.length) .nan

/-- `x.shift(-h) / x - 1`, of the closes of some rows. -/
def forwardReturns (h : ℕ) (rows : List PriceRow) : List Extended :=
  let x := rows.map fun row => fin row.close
  List.zipWith (fun later now => later / now - fin 1) (shift h x) x

/-- The returns of a table, symbol by symbol. -/
def returnsOf (h : ℕ) (rows : List PriceRow) : List Extended :=
  byGroup PriceRow.symbol (forwardReturns h) .nan rows

/-- `df[["symbol", "timestamp", "label_value"]].dropna(subset=["label_value"])`. -/
def dropNa (rows : List PriceRow) (labels : List Extended) : List LabelRow :=
  ((rows.zip labels).filter fun pair => pair.2 ≠ .nan).map fun pair =>
    ⟨pair.1.symbol, pair.1.timestamp, pair.2⟩

/-! ## Builders -/

/-- The types of labels. -/
inductive LabelType where
  | regression
  | classification

structure ForwardReturnLabel where
  horizon : ℕ := 1
  labelType : LabelType := .regression

structure DirectionLabel where
  horizon : ℕ := 1
  threshold : ℚ := 0

structure DirectionLabelBuilder where
  horizon : ℕ := 1
  threshold : ℚ := 0

structure ReturnLabelBuilder where
  horizon : ℕ := 1

/-- `(label_value > 0).astype(float)`. -/
def isUp (r : Extended) : Extended := if lt (fin 0) r then fin 1 else fin 0

/-- `classify` of `DirectionLabel`. -/
def DirectionLabel.classify (threshold : ℚ) (r : Extended) : Extended :=
  if lt (fin threshold) r then fin 1 else if lt r (fin (-threshold)) then fin 0 else fin (1 / 2)

/-- `classify` of `DirectionLabelBuilder`. -/
def DirectionLabelBuilder.classify (threshold : ℚ) (r : Extended) : Extended :=
  if r = .nan then .nan
  else if lt (fin threshold) r then fin 1
  else if lt r (fin (-threshold)) then fin 0
  else fin (1 / 2)

def ForwardReturnLabel.compute (self : ForwardReturnLabel) (data : List PriceRow) :
    List LabelRow :=
  let df := sortRows data
  match self.labelType with
  | .regression => dropNa df (returnsOf self.horizon df)
  | .classification => dropNa df ((returnsOf self.horizon df).map isUp)

def DirectionLabel.compute (self : DirectionLabel) (data : List PriceRow) : List LabelRow :=
  let df := sortRows data
  dropNa df ((returnsOf self.horizon df).map (classify self.threshold))

def DirectionLabelBuilder.compute (self : DirectionLabelBuilder) (data : List PriceRow) :
    List LabelRow :=
  let df := sortRows data
  dropNa df ((returnsOf self.horizon df).map (classify self.threshold))

def ReturnLabelBuilder.compute (self : ReturnLabelBuilder) (data : List PriceRow) :
    List LabelRow :=
  let df := sortRows data
  dropNa df (returnsOf self.horizon df)

/-- The builders with a horizon and a threshold. -/
inductive LabelBuilder where
  | forwardReturn (labelType : LabelType)
  | direction
  | directionBuilder
  | returns

/-- The table of a builder. -/
def LabelBuilder.compute (builder : LabelBuilder) (horizon : ℕ) (threshold : ℚ)
    (data : List PriceRow) : List LabelRow :=
  match builder with
  | forwardReturn labelType => (ForwardReturnLabel.mk horizon labelType).compute data
  | direction => (DirectionLabel.mk horizon threshold).compute data
  | directionBuilder => (DirectionLabelBuilder.mk horizon threshold).compute data
  | returns => (ReturnLabelBuilder.mk horizon).compute data

/-- A missing return is a missing label. -/
def LabelBuilder.KeepsMissing : LabelBuilder → Prop
  | forwardReturn .classification => False
  | direction => False
  | _ => True

/-- The label that a builder gives to a return. -/
def LabelBuilder.labelOf (threshold : ℚ) : LabelBuilder → Extended → Extended
  | forwardReturn .regression => id
  | forwardReturn .classification => isUp
  | direction => DirectionLabel.classify threshold
  | directionBuilder => DirectionLabelBuilder.classify threshold
  | returns => id

/-! ## Rows with a complete window -/

/-- The labelled rows of every symbol are those, by time, which have a row at the horizon. -/
def Windowed (h : ℕ) (data : List PriceRow) (table : List LabelRow) : Prop :=
  ∀ symbol,
    (table.filter fun row => row.symbol = symbol).map LabelRow.timestamp =
      ((rowsOf PriceRow.symbol symbol (sortRows data)).take
        ((rowsOf PriceRow.symbol symbol (sortRows data)).length - h)).map PriceRow.timestamp

theorem shift_cons (h : ℕ) (x : Extended) (xs : List Extended) :
    shift h (x :: xs) = ((x :: xs)[h]?).getD .nan :: shift h xs := by
  unfold shift
  by_cases inside : h < (x :: xs).length
  · have whole : h ≤ xs.length := Nat.lt_succ_iff.mp inside
    rw [List.drop_eq_getElem_cons inside, List.drop_succ_cons, List.getElem?_eq_getElem inside,
      Option.getD_some, min_eq_left inside.le, min_eq_left whole, List.cons_append]
  · have beyond : (x :: xs).length ≤ h := not_lt.mp inside
    have short : xs.length ≤ h := (Nat.le_succ _).trans beyond
    rw [List.drop_eq_nil_of_le beyond, List.drop_eq_nil_of_le short, min_eq_right beyond,
      min_eq_right short, List.getElem?_eq_none beyond, List.length_cons, List.replicate_succ]
    rfl

theorem length_forwardReturns (h : ℕ) (rows : List PriceRow) :
    (forwardReturns h rows).length = rows.length := by
  simp only [forwardReturns, shift, List.length_zipWith, List.length_append, List.length_drop,
    List.length_replicate, List.length_map]
  omega

/-- The return of the first row, which is a number exactly if the row at the horizon exists. -/
theorem forwardReturns_cons (h : ℕ) (row : PriceRow) (rows : List PriceRow) :
    ∃ r, forwardReturns h (row :: rows) = r :: forwardReturns h rows ∧
      if h ≤ rows.length then ∃ q, r = fin q else r = .nan := by
  refine ⟨(((row :: rows).map fun row => fin row.close)[h]?).getD .nan / fin row.close - fin 1,
    ?_, ?_⟩
  · simp only [forwardReturns, List.map_cons, shift_cons, List.zipWith_cons_cons]
  · split_ifs with whole
    · have inside : h < (row :: rows).length := Nat.lt_succ_of_le whole
      rw [List.getElem?_map, List.getElem?_eq_getElem inside]
      exact ⟨_, by rw [Option.map_some, Option.getD_some, fin_div row.close.property.ne', fin_sub]⟩
    · have beyond : (row :: rows).length ≤ h := Nat.lt_of_not_le whole
      rw [List.getElem?_map, List.getElem?_eq_none beyond]
      rfl

/-- Of the rows of one symbol, those with a complete window get a number. -/
theorem labelled_rows {g : Extended → Extended} (numbers : ∀ q, g (fin q) ≠ .nan) (h : ℕ)
    (rows : List PriceRow) :
    ((rows.zip ((forwardReturns h rows).map g)).filter fun pair => pair.2 ≠ .nan).map Prod.fst =
      if g .nan = .nan then rows.take (rows.length - h) else rows := by
  induction rows with
  | nil => simp
  | cons row rows ih =>
      obtain ⟨r, returns, window⟩ := forwardReturns_cons h row rows
      rw [returns, List.map_cons, List.zip_cons_cons]
      split_ifs at window with whole
      · obtain ⟨q, rfl⟩ := window
        rw [List.filter_cons_of_pos (by simpa using numbers q), List.map_cons, ih,
          List.length_cons, Nat.succ_sub whole, List.take_succ_cons]
        split_ifs <;> rfl
      · cases window
        have short : rows.length - h = 0 := by omega
        have short' : (row :: rows).length - h = 0 := by
          rw [List.length_cons]
          omega
        split_ifs at ih ⊢ with missing
        · rw [List.filter_cons_of_neg (by simpa using missing), ih, short, short']
          rfl
        · rw [List.filter_cons_of_pos (by simpa using missing), List.map_cons, ih]

/-- The rows of one symbol with their labels. -/
theorem filter_zip_labels (g : Extended → Extended) (h : ℕ) (rows : List PriceRow)
    (symbol : String) :
    ((rows.zip ((returnsOf h rows).map g)).filter fun pair => pair.1.symbol = symbol) =
      (rowsOf PriceRow.symbol symbol rows).zip
        ((forwardReturns h (rowsOf PriceRow.symbol symbol rows)).map g) := by
  rw [List.zip_map_right, List.zip_map_right, List.filter_map,
    ← filter_zip_byGroup PriceRow.symbol .nan (length_forwardReturns h) symbol rows]
  rfl

/-- The times of the labelled rows of a symbol. -/
theorem timestamps_dropNa {g : Extended → Extended} (numbers : ∀ q, g (fin q) ≠ .nan) (h : ℕ)
    (rows : List PriceRow) (symbol : String) :
    ((dropNa rows ((returnsOf h rows).map g)).filter fun row => row.symbol = symbol).map
        LabelRow.timestamp =
      (if g .nan = .nan then (rowsOf PriceRow.symbol symbol rows).take
          ((rowsOf PriceRow.symbol symbol rows).length - h)
        else rowsOf PriceRow.symbol symbol rows).map PriceRow.timestamp := by
  rw [← labelled_rows numbers, ← filter_zip_labels, dropNa, List.filter_map, List.map_map,
    List.map_map, List.filter_filter, List.filter_filter]
  congr 1
  exact List.filter_congr fun pair _ => Bool.and_comm _ _

/-! ## The builders -/

theorem isUp_ne_nan (r : Extended) : isUp r ≠ .nan := by
  unfold isUp
  split_ifs <;> exact nofun

theorem DirectionLabel.classify_ne_nan (threshold : ℚ) (r : Extended) :
    classify threshold r ≠ .nan := by
  unfold classify
  split_ifs <;> exact nofun

/-- The builder's `classify` is the other one behind a guard. -/
theorem DirectionLabelBuilder.classify_fin (threshold q : ℚ) :
    classify threshold (fin q) = DirectionLabel.classify threshold (fin q) := if_neg nofun

theorem LabelBuilder.compute_eq (builder : LabelBuilder) (h : ℕ) (threshold : ℚ)
    (data : List PriceRow) :
    builder.compute h threshold data =
      dropNa (sortRows data) ((returnsOf h (sortRows data)).map (builder.labelOf threshold)) := by
  cases builder with
  | forwardReturn labelType =>
      cases labelType with
      | regression =>
          rw [labelOf, List.map_id]
          rfl
      | classification => rfl
  | direction => rfl
  | directionBuilder => rfl
  | returns =>
      rw [labelOf, List.map_id]
      rfl

/-- A return that is a number gets a label. -/
theorem LabelBuilder.labelOf_fin (builder : LabelBuilder) (threshold q : ℚ) :
    builder.labelOf threshold (fin q) ≠ .nan := by
  cases builder with
  | forwardReturn labelType =>
      cases labelType with
      | regression => exact nofun
      | classification => exact isUp_ne_nan _
  | direction => exact DirectionLabel.classify_ne_nan _ _
  | directionBuilder =>
      rw [labelOf, DirectionLabelBuilder.classify_fin]
      exact DirectionLabel.classify_ne_nan _ _
  | returns => exact nofun

theorem LabelBuilder.labelOf_nan_iff (builder : LabelBuilder) (threshold : ℚ) :
    builder.labelOf threshold .nan = .nan ↔ builder.KeepsMissing := by
  cases builder with
  | forwardReturn labelType =>
      cases labelType with
      | regression => exact iff_of_true rfl trivial
      | classification => exact iff_of_false (isUp_ne_nan _) id
  | direction => exact iff_of_false (DirectionLabel.classify_ne_nan _ _) id
  | directionBuilder => exact iff_of_true rfl trivial
  | returns => exact iff_of_true rfl trivial

theorem sortRows_eq_nil_iff {data : List PriceRow} : sortRows data = [] ↔ data = [] := by
  rw [← List.length_eq_zero_iff, sortRows, List.length_insertionSort, List.length_eq_zero_iff]

/-- No table is complete and lists every row, unless there is none: the last row of a symbol has
no window. -/
theorem windowed_all_iff {h : ℕ} (positive : 1 ≤ h) (rows : List PriceRow) :
    (∀ symbol, (rowsOf PriceRow.symbol symbol rows).map PriceRow.timestamp =
        ((rowsOf PriceRow.symbol symbol rows).take
          ((rowsOf PriceRow.symbol symbol rows).length - h)).map PriceRow.timestamp) ↔
      rows = [] := by
  constructor
  · intro all
    by_contra some
    obtain ⟨row, member⟩ := List.exists_mem_of_ne_nil rows some
    have counted := congrArg List.length (all row.symbol)
    have listed : row ∈ rowsOf PriceRow.symbol row.symbol rows :=
      List.mem_filter.mpr ⟨member, decide_eq_true rfl⟩
    have nonempty := List.length_pos_of_mem listed
    rw [List.length_map, List.length_map, List.length_take] at counted
    omega
  · rintro rfl symbol
    simp [rowsOf]

theorem LabelBuilder.windowed_iff (builder : LabelBuilder) {h : ℕ} (positive : 1 ≤ h)
    (threshold : ℚ) (data : List PriceRow) :
    Windowed h data (builder.compute h threshold data) ↔ builder.KeepsMissing ∨ data = [] := by
  unfold Windowed
  simp only [compute_eq, timestamps_dropNa (builder.labelOf_fin threshold)]
  have missing := builder.labelOf_nan_iff threshold
  by_cases keeps : builder.KeepsMissing
  · simp only [if_pos (missing.mpr keeps)]
    exact iff_of_true (fun _ => trivial) (.inl keeps)
  · simp only [if_neg fun same => keeps (missing.mp same)]
    rw [or_iff_right keeps, ← sortRows_eq_nil_iff]
    exact windowed_all_iff positive (sortRows data)

/-- **A builder labels exactly the rows whose window is complete, if and only if it keeps missing
returns missing or there is no row; both direction builders return the same table if and only if
there is no row.** -/
theorem labels_windowed_iff {h : ℕ} (positive : 1 ≤ h) (threshold : ℚ) (data : List PriceRow) :
    (∀ builder : LabelBuilder,
        Windowed h data (builder.compute h threshold data) ↔
          builder.KeepsMissing ∨ data = []) ∧
      ((DirectionLabel.mk h threshold).compute data =
          (DirectionLabelBuilder.mk h threshold).compute data ↔
        data = []) := by
  refine ⟨fun builder => builder.windowed_iff positive threshold data, ?_, ?_⟩
  · intro same
    have guarded := (LabelBuilder.directionBuilder.windowed_iff positive threshold data).mpr
      (.inl trivial)
    change Windowed h data ((DirectionLabelBuilder.mk h threshold).compute data) at guarded
    rw [← same] at guarded
    exact ((LabelBuilder.direction.windowed_iff positive threshold data).mp guarded).resolve_left id
  · rintro rfl
    rfl

/-- A price that doubles. -/
def doubled : List PriceRow := [⟨"A", 0, ⟨1, by norm_num⟩⟩, ⟨"A", 1, ⟨2, by norm_num⟩⟩]

/-- The returns of a price that doubles are labelled where they are known, and the tables of both
direction builders differ. -/
theorem labels_windowed_doubled :
    Windowed 1 doubled (LabelBuilder.returns.compute 1 0 doubled) ∧
      (DirectionLabel.mk 1 0).compute doubled ≠ (DirectionLabelBuilder.mk 1 0).compute doubled := by
  obtain ⟨windowed, tables⟩ := labels_windowed_iff le_rfl 0 doubled
  exact ⟨(windowed .returns).mpr (.inl trivial), fun same => List.cons_ne_nil _ _ (tables.mp same)⟩

/-- The last row has no return. Two builders label it, as neutral and as down, and the guarded
builder does not. -/
theorem last_row_labelled :
    (DirectionLabel.mk 1 0).compute doubled = [⟨"A", 0, fin 1⟩, ⟨"A", 1, fin (1 / 2)⟩] ∧
      (ForwardReturnLabel.mk 1 .classification).compute doubled =
        [⟨"A", 0, fin 1⟩, ⟨"A", 1, fin 0⟩] ∧
      (DirectionLabelBuilder.mk 1 0).compute doubled = [⟨"A", 0, fin 1⟩] ∧
      (rowsOf PriceRow.symbol "A" (sortRows doubled)).length = 2 := by
  with_unfolding_all decide

end TradeOS.Research
