import TradeOS.Data.DayLog
import TradeOS.Research.Labels
import TradeOS.Research.Result
import Mathlib.Order.Bounds.Basic

/-!
# The label of the largest fall

`MaxDrawdownLabelBuilder` labels a row with the largest fall of the closes in a window
that ends at the row. A fall is taken from the highest close so far, so its least value
is the least of all later closes over earlier ones (`calcMaxDd_isLeast`).

The window of a row has `h` closes from the index `h - 1` on, but the loop skips the
indices below `h`. The first complete window of every symbol gets no label, and what is
labelled is right (`emitsFrom_horizon`). So the builder meets its description only on
tables without a complete window (`maxDrawdown_exact_iff`).

The result of a group-wise call on a table without rows has no column of labels, and
dropping the missing ones raises an error.
-/

set_option autoImplicit false

namespace TradeOS.Research

open Columns DayLog Numeric Numeric.Extended

/-! ## The builder -/

/-- What a builder can raise. -/
inductive LabelError where
  | keyError (column : String)
  deriving DecidableEq

structure MaxDrawdownLabelBuilder where
  horizon : ℕ := 20

/-- `calc_max_dd`. The closes are numbers, so the expanding maximum is the cumulative
one. -/
def calcMaxDd (prices : List Extended) : Extended :=
  minimum (List.zipWith measuredDrop prices (cummax prices))

/-- `iloc[i - h + 1 : i + 1]`. -/
def window {α : Type} (h i : ℕ) (prices : List α) : List α := (prices.take (i + 1)).drop (i + 1 - h)

/-- `rolling_dd`: the labels of the rows of one symbol. -/
def rollingDd (h : ℕ) (group : List PriceRow) : List Extended :=
  let group := group.insertionSort fun row other => row.timestamp ≤ other.timestamp
  let prices := group.map fun row => fin row.close
  (List.range prices.length).map fun i => if i < h then .nan else calcMaxDd (window h i prices)

def MaxDrawdownLabelBuilder.compute (self : MaxDrawdownLabelBuilder) (data : List PriceRow) :
    Except LabelError (List LabelRow) :=
  let df := sortRows data
  if df.isEmpty then .error (.keyError "label_value")
  else .ok (dropNa df (byGroup PriceRow.symbol (rollingDd self.horizon) .nan df))

/-! ## The largest fall -/

theorem isGreatest_first (x : ℚ) (xs : List ℚ) :
    IsGreatest {a | ∃ j ≤ 0, (x :: xs)[j]? = some a} x := by
  refine ⟨⟨0, le_rfl, rfl⟩, ?_⟩
  rintro a ⟨j, start, listed⟩
  cases Nat.le_zero.mp start
  cases listed
  exact le_rfl

/-- The highest value so far. -/
theorem isGreatest_running_max (x : ℚ) (xs : List ℚ) {k : ℕ} {m : ℚ}
    (here : (x :: running max x xs)[k]? = some m) :
    IsGreatest {a | ∃ j ≤ k, (x :: xs)[j]? = some a} m := by
  induction xs generalizing x k with
  | nil =>
      cases k with
      | zero =>
          cases here
          exact isGreatest_first m []
      | succ k => cases here
  | cons y ys ih =>
      cases k with
      | zero =>
          cases here
          exact isGreatest_first m (y :: ys)
      | succ k =>
          obtain ⟨⟨j, before, listed⟩, above⟩ := ih (max x y) here
          have first : max x y ≤ m := above ⟨0, Nat.zero_le k, rfl⟩
          constructor
          · cases j with
            | zero =>
                have same : max x y = m := Option.some.inj listed
                rcases max_choice x y with left | right
                · exact ⟨0, Nat.zero_le _, by rw [← same, left]; rfl⟩
                · exact ⟨1, Nat.succ_le_succ (Nat.zero_le k), by rw [← same, right]; rfl⟩
            | succ j => exact ⟨j + 2, by omega, listed⟩
          · rintro a ⟨j, before, listed⟩
            cases j with
            | zero =>
                cases listed
                exact (le_max_left x y).trans first
            | succ j =>
                cases j with
                | zero =>
                    cases listed
                    exact (le_max_right x y).trans first
                | succ j => exact above ⟨j + 1, by omega, listed⟩

/-- The changes from an earlier close to a later one, or to itself. -/
def falls (closes : List ℚ) : Set ℚ :=
  {x | ∃ (j k : ℕ) (a b : ℚ), j ≤ k ∧ closes[j]? = some a ∧ closes[k]? = some b ∧ x = b / a - 1}

/-- **The label of a window is the least change of all pairs of its closes.** -/
theorem calcMaxDd_isLeast {closes : List ℚ} (nonempty : closes ≠ [])
    (positive : ∀ a ∈ closes, 0 < a) :
    ∃ q, calcMaxDd (closes.map fin) = fin q ∧ IsLeast (falls closes) q := by
  obtain ⟨c, cs, rfl⟩ := List.exists_cons_of_ne_nil nonempty
  have nonzero : ∀ high ∈ c :: running max c cs, high ≠ 0 := by
    intro high member
    rcases List.mem_cons.mp member with rfl | later
    · exact (positive _ List.mem_cons_self).ne'
    · exact ((positive c List.mem_cons_self).trans_le (le_of_mem_running_max later)).ne'
  have drops : calcMaxDd ((c :: cs).map fin) =
      minimum ((List.zipWith relativeDrop (c :: cs) (c :: running max c cs)).map fin) := by
    rw [calcMaxDd, cummax_map_fin, zipWith_map_fin relativeDrop fun value high member => by
      rw [measuredDrop, relativeDrop, fin_sub, fin_div (nonzero high member), sub_div,
        div_self (nonzero high member)]]
  rw [List.zipWith_cons_cons, minimum_map_fin] at drops
  obtain ⟨member, least⟩ := foldl_min_spec (relativeDrop c c)
    (List.zipWith relativeDrop cs (running max c cs))
  rw [← List.zipWith_cons_cons (f := relativeDrop)] at member least
  refine ⟨_, drops, ?_, ?_⟩
  · obtain ⟨k, inside, found⟩ := List.getElem_of_mem member
    have here : k < (c :: running max c cs).length := List.lt_length_right_of_zipWith inside
    have there : k < (c :: cs).length := List.lt_length_left_of_zipWith inside
    obtain ⟨⟨j, before, listed⟩, _⟩ :=
      isGreatest_running_max c cs (List.getElem?_eq_getElem here)
    refine ⟨j, k, _, _, before, listed, List.getElem?_eq_getElem there, ?_⟩
    rw [← found, List.getElem_zipWith]
    rfl
  · rintro x ⟨j, k, a, b, before, early, late, rfl⟩
    obtain ⟨there, rfl⟩ := List.getElem?_eq_some_iff.mp late
    have here : k < (c :: running max c cs).length := by
      rw [List.length_cons, length_running]
      exact there
    obtain ⟨_, above⟩ := isGreatest_running_max c cs (List.getElem?_eq_getElem here)
    have highest : a ≤ (c :: running max c cs)[k] := above ⟨j, before, early⟩
    have inside : k < (List.zipWith relativeDrop (c :: cs) (c :: running max c cs)).length := by
      rw [List.length_zipWith]
      exact lt_min there here
    have below := least _ (List.getElem_mem inside)
    rw [List.getElem_zipWith] at below
    have start : 0 < a := positive a (List.mem_of_getElem? early)
    have later : 0 ≤ (c :: cs)[k] := (positive _ (List.getElem_mem there)).le
    have drop : (c :: cs)[k] / (c :: running max c cs)[k] ≤ (c :: cs)[k] / a :=
      div_le_div_of_nonneg_left later start highest
    exact below.trans (sub_le_sub_right drop 1)

/-! ## The labels of a symbol -/

/-- The labels of a symbol. -/
def labelsOf (symbol : String) (table : List LabelRow) : List LabelRow :=
  table.filter fun row => row.symbol = symbol

/-- The labels of a symbol are those of its own rows. -/
theorem labelsOf_dropNa {f : List PriceRow → List Extended}
    (lengths : ∀ rows, (f rows).length = rows.length) (symbol : String) (rows : List PriceRow) :
    labelsOf symbol (dropNa rows (byGroup PriceRow.symbol f .nan rows)) =
      dropNa (rowsOf PriceRow.symbol symbol rows) (f (rowsOf PriceRow.symbol symbol rows)) := by
  rw [labelsOf, dropNa, dropNa, ← filter_zip_byGroup PriceRow.symbol .nan lengths symbol rows,
    List.filter_map, List.filter_filter, List.filter_filter]
  congr 1
  exact List.filter_congr fun pair _ => Bool.and_comm _ _

theorem length_rollingDd (h : ℕ) (group : List PriceRow) :
    (rollingDd h group).length = group.length := by
  simp [rollingDd]

/-- Sorting by symbol and time. -/
def rowLe (row other : PriceRow) : Prop :=
  row.symbol < other.symbol ∨ row.symbol = other.symbol ∧ row.timestamp ≤ other.timestamp

instance : DecidableRel rowLe := fun row other =>
  inferInstanceAs (Decidable (row.symbol < other.symbol ∨
    row.symbol = other.symbol ∧ row.timestamp ≤ other.timestamp))

instance : Std.Total rowLe where
  total row other := by
    rcases lt_trichotomy row.symbol other.symbol with before | same | after
    · exact .inl (.inl before)
    · rcases le_total row.timestamp other.timestamp with early | late
      · exact .inl (.inr ⟨same, early⟩)
      · exact .inr (.inr ⟨same.symm, late⟩)
    · exact .inr (.inl after)

instance : IsTrans PriceRow rowLe where
  trans first second third := by
    rintro (before | ⟨same, early⟩) (after | ⟨same', late⟩)
    · exact .inl (before.trans after)
    · exact .inl (same' ▸ before)
    · exact .inl (same ▸ after)
    · exact .inr ⟨same.trans same', early.trans late⟩

/-- The rows of a symbol in the order of their times. -/
def series (symbol : String) (data : List PriceRow) : List PriceRow :=
  sortRows (rowsOf PriceRow.symbol symbol data)

theorem rowsOf_sortRows (symbol : String) (data : List PriceRow) :
    rowsOf PriceRow.symbol symbol (sortRows data) = series symbol data :=
  filter_insertionSort rowLe _ data

theorem perm_series (symbol : String) (data : List PriceRow) :
    (series symbol data).Perm (rowsOf PriceRow.symbol symbol data) :=
  List.perm_insertionSort _ _

/-- The series of a symbol is sorted by time, so that the second sort changes
nothing. -/
theorem sort_series (symbol : String) (data : List PriceRow) :
    (series symbol data).insertionSort (fun row other => row.timestamp ≤ other.timestamp) =
      series symbol data := by
  apply List.Pairwise.insertionSort_eq
  have sorted : (series symbol data).Pairwise rowLe := List.pairwise_insertionSort rowLe _
  refine sorted.imp_of_mem ?_
  intro row other member member' before
  have own (row : PriceRow) (listed : row ∈ series symbol data) : row.symbol = symbol := by
    have inside := (perm_series symbol data).mem_iff.mp listed
    exact of_decide_eq_true (List.mem_filter.mp inside).2
  rcases before with below | ⟨_, early⟩
  · rw [own row member, own other member'] at below
    exact absurd below (lt_irrefl _)
  · exact early

/-- A list is cut at an index by a property that holds from it on. -/
theorem filter_eq_drop {α : Type} (p : α → Bool) (h : ℕ) (xs : List α)
    (cut : ∀ (i : ℕ) (inside : i < xs.length), p xs[i] = true ↔ h ≤ i) :
    xs.filter p = xs.drop h := by
  have early : (xs.take h).filter p = [] := by
    rw [List.filter_eq_nil_iff]
    intro x member
    obtain ⟨i, inside, rfl⟩ := List.getElem_of_mem member
    rw [List.length_take] at inside
    rw [List.getElem_take, cut i (inside.trans_le (min_le_right _ _))]
    exact not_le.mpr (inside.trans_le (min_le_left _ _))
  have late : (xs.drop h).filter p = xs.drop h := by
    rw [List.filter_eq_self]
    intro x member
    obtain ⟨i, inside, rfl⟩ := List.getElem_of_mem member
    rw [List.length_drop] at inside
    rw [List.getElem_drop, cut (h + i) (by omega)]
    exact Nat.le_add_right h i
  calc xs.filter p = (xs.take h ++ xs.drop h).filter p := by rw [List.take_append_drop]
    _ = xs.drop h := by rw [List.filter_append, early, late, List.nil_append]

/-- A label of the row at an index, with the least change of its window. -/
def LabelAt (h : ℕ) (rows : List PriceRow) (i : ℕ) (label : LabelRow) : Prop :=
  ∃ (row : PriceRow) (q : ℚ), rows[i]? = some row ∧ label.timestamp = row.timestamp ∧
    label.labelValue = fin q ∧
    IsLeast (falls (window h i (rows.map fun row => row.close.val))) q

/-- Every window of the prices has a label, the least change of its pairs. -/
theorem exists_calcMaxDd_window {h : ℕ} (positive : 1 ≤ h) (rows : List PriceRow) {i : ℕ}
    (inside : i < rows.length) :
    ∃ q, calcMaxDd (window h i (rows.map fun row => fin row.close)) = fin q ∧
      IsLeast (falls (window h i (rows.map fun row => row.close.val))) q := by
  have cast : window h i (rows.map fun row => fin row.close) =
      (window h i (rows.map fun row => row.close.val)).map fin := by
    simp only [window, List.map_drop, List.map_take, List.map_map]
    rfl
  rw [cast]
  apply calcMaxDd_isLeast
  · rw [ne_eq, ← List.length_eq_zero_iff, window, List.length_drop, List.length_take,
      List.length_map]
    omega
  · intro a member
    have listed := List.mem_of_mem_take (List.mem_of_mem_drop member)
    obtain ⟨row, _, rfl⟩ := List.mem_map.mp listed
    exact row.close.property

/-- The column of rows that are sorted already. -/
theorem rollingDd_of_sorted (h : ℕ) {rows : List PriceRow}
    (sorted : rows.insertionSort (fun row other => row.timestamp ≤ other.timestamp) = rows) :
    rollingDd h rows = (List.range rows.length).map fun i =>
      if i < h then .nan else calcMaxDd (window h i (rows.map fun row => fin row.close)) := by
  simp only [rollingDd]
  rw [sorted, List.length_map]

/-- The labels of the sorted rows of one symbol: from the index of the horizon on,
each one right. -/
theorem labelAt_rollingDd {h : ℕ} (positive : 1 ≤ h) {rows : List PriceRow}
    (sorted : rows.insertionSort (fun row other => row.timestamp ≤ other.timestamp) = rows) :
    List.Forall₂ (LabelAt h rows) ((List.range rows.length).drop h)
      (dropNa rows (rollingDd h rows)) := by
  have column := rollingDd_of_sorted h sorted
  have kept : (rows.zip (rollingDd h rows)).filter (fun pair => pair.2 ≠ .nan) =
      (rows.zip (rollingDd h rows)).drop h := by
    apply filter_eq_drop
    intro i inside
    rw [List.length_zip, length_rollingDd, min_self] at inside
    obtain ⟨q, computed, _⟩ := exists_calcMaxDd_window positive rows inside
    simp only [column, List.getElem_zip, List.getElem_map, List.getElem_range]
    by_cases early : i < h
    · simp [early]
    · simp [early, computed, not_lt.mp early]
  rw [dropNa, kept]
  apply List.forall₂_of_length_eq_of_get
  · simp [length_rollingDd]
  · intro i inside inside'
    have here : h + i < rows.length := by
      simp at inside
      omega
    obtain ⟨q, computed, least⟩ := exists_calcMaxDd_window positive rows here
    have reached : ¬ h + i < h := by omega
    refine ⟨rows[h + i], q, ?_, ?_, ?_, ?_⟩
    · simp
    · simp
    · simp [column, reached, computed]
    · simpa using least

/-- Every symbol has a label for each of its rows from an index on, and for no other. -/
def EmitsFrom (first h : ℕ) (data : List PriceRow) (table : List LabelRow) : Prop :=
  ∀ symbol, List.Forall₂ (LabelAt h (series symbol data))
    ((List.range (series symbol data).length).drop first) (labelsOf symbol table)

theorem labelsOf_compute (h : ℕ) (symbol : String) {data : List PriceRow} {table : List LabelRow}
    (computed : (MaxDrawdownLabelBuilder.mk h).compute data = .ok table) :
    labelsOf symbol table = dropNa (series symbol data) (rollingDd h (series symbol data)) := by
  unfold MaxDrawdownLabelBuilder.compute at computed
  dsimp only at computed
  split at computed
  · cases computed
  · cases computed
    rw [labelsOf_dropNa (length_rollingDd h), rowsOf_sortRows]

/-- **What is labelled**: the rows from the index of the horizon on. -/
theorem emitsFrom_horizon {h : ℕ} (positive : 1 ≤ h) {data : List PriceRow}
    {table : List LabelRow} (computed : (MaxDrawdownLabelBuilder.mk h).compute data = .ok table) :
    EmitsFrom h h data table := by
  intro symbol
  rw [labelsOf_compute h symbol computed]
  exact labelAt_rollingDd positive (sort_series symbol data)

theorem compute_eq_ok_iff (h : ℕ) (data : List PriceRow) :
    (∃ table, (MaxDrawdownLabelBuilder.mk h).compute data = .ok table) ↔ data ≠ [] := by
  unfold MaxDrawdownLabelBuilder.compute
  dsimp only
  rw [← not_iff_not, not_not, ← sortRows_eq_nil_iff, ← List.isEmpty_iff]
  by_cases empty : (sortRows data).isEmpty = true
  · rw [if_pos empty]
    exact iff_of_true nofun empty
  · rw [if_neg empty]
    exact iff_of_false (not_not.mpr ⟨_, rfl⟩) empty

/-! ## Independence -/

/-- The labels of a symbol depend on the rows of the symbol alone, and not on the
order in which they come. -/
def Independent (h : ℕ) (data : List PriceRow) (table : List LabelRow) : Prop :=
  ∀ other table', (MaxDrawdownLabelBuilder.mk h).compute other = .ok table' → ∀ symbol,
    (rowsOf PriceRow.symbol symbol other).Perm (rowsOf PriceRow.symbol symbol data) →
      labelsOf symbol table' = labelsOf symbol table

/-- Rows with distinct times have one order. -/
theorem series_eq_of_perm {symbol : String} {data other : List PriceRow}
    (same : (rowsOf PriceRow.symbol symbol other).Perm (rowsOf PriceRow.symbol symbol data))
    (distinct : ((rowsOf PriceRow.symbol symbol data).map PriceRow.timestamp).Nodup) :
    series symbol other = series symbol data := by
  have rows : (series symbol other).Perm (series symbol data) :=
    ((perm_series symbol other).trans same).trans (perm_series symbol data).symm
  have times : ((series symbol data).map PriceRow.timestamp).Nodup :=
    (((perm_series symbol data).map _).nodup_iff).mpr distinct
  have sorted (table : List PriceRow) : (series symbol table).Pairwise rowLe :=
    List.pairwise_insertionSort rowLe _
  refine rows.eq_of_pairwise ?_ (sorted other) (sorted data)
  intro row row' member member' before after
  refine List.inj_on_of_nodup_map times (rows.mem_iff.mp member) member' ?_
  rcases before with below | ⟨agrees, early⟩
  · rcases after with above | ⟨agrees, _⟩
    · exact absurd (below.trans above) (lt_irrefl _)
    · rw [agrees] at below
      exact absurd below (lt_irrefl _)
  · rcases after with above | ⟨_, late⟩
    · rw [agrees] at above
      exact absurd above (lt_irrefl _)
    · exact le_antisymm early late

/-- The labels of rows with distinct times are independent. -/
theorem independent_of_distinct {h : ℕ} {data : List PriceRow} {table : List LabelRow}
    (computed : (MaxDrawdownLabelBuilder.mk h).compute data = .ok table)
    (distinct : ∀ symbol, ((rowsOf PriceRow.symbol symbol data).map PriceRow.timestamp).Nodup) :
    Independent h data table := by
  intro other table' computed' symbol same
  rw [labelsOf_compute h symbol computed, labelsOf_compute h symbol computed',
    series_eq_of_perm same (distinct symbol)]

/-! ## The first complete window -/

/-- What the builder is described to do: it returns labels from the first complete
window on, and they are independent. -/
def ExactLabels (h : ℕ) (data : List PriceRow) : Prop :=
  ∃ table, (MaxDrawdownLabelBuilder.mk h).compute data = .ok table ∧
    EmitsFrom (h - 1) h data table ∧ Independent h data table

/-- **When the builder labels every complete window.** For a horizon of at least one,
exactly on a table with rows in which no symbol has a complete window. -/
theorem maxDrawdown_exact_iff {h : ℕ} (positive : 1 ≤ h) (data : List PriceRow) :
    ExactLabels h data ↔
      data ≠ [] ∧ ∀ symbol, (rowsOf PriceRow.symbol symbol data).length < h := by
  have counted (symbol : String) (data : List PriceRow) :
      (series symbol data).length = (rowsOf PriceRow.symbol symbol data).length :=
    (perm_series symbol data).length_eq
  constructor
  · rintro ⟨table, computed, emits, _⟩
    refine ⟨(compute_eq_ok_iff h data).mp ⟨table, computed⟩, ?_⟩
    intro symbol
    by_contra complete
    -- the row at the index before the horizon has a label or it has none
    have all := (emits symbol).length_eq
    have late := (emitsFrom_horizon positive computed symbol).length_eq
    rw [List.length_drop, List.length_range, counted] at all late
    omega
  · rintro ⟨rows, short⟩
    obtain ⟨table, computed⟩ := (compute_eq_ok_iff h data).mpr rows
    have silent (other : List PriceRow) (table' : List LabelRow) (symbol : String)
        (computed' : (MaxDrawdownLabelBuilder.mk h).compute other = .ok table')
        (few : (rowsOf PriceRow.symbol symbol other).length < h) :
        labelsOf symbol table' = [] := by
      have late := (emitsFrom_horizon positive computed' symbol).length_eq
      rw [List.length_drop, List.length_range, counted] at late
      exact List.length_eq_zero_iff.mp (by omega)
    refine ⟨table, computed, ?_, ?_⟩
    · intro symbol
      have none := silent data table symbol computed (short symbol)
      have nowhere : (List.range (series symbol data).length).drop (h - 1) = [] := by
        have few := short symbol
        rw [List.drop_eq_nil_iff, List.length_range, counted]
        omega
      rw [none, nowhere]
      exact .nil
    · intro other table' computed' symbol same
      have few : (rowsOf PriceRow.symbol symbol other).length < h :=
        same.length_eq.symm ▸ short symbol
      rw [silent data table symbol computed (short symbol),
        silent other table' symbol computed' few]

/-- Two prices have no window of three. -/
theorem maxDrawdown_exact_sample : ExactLabels 3 doubled := by
  refine (maxDrawdown_exact_iff (by norm_num) doubled).mpr ⟨List.cons_ne_nil _ _, ?_⟩
  intro symbol
  have few : (rowsOf PriceRow.symbol symbol doubled).length ≤ 2 := List.length_filter_le _ _
  omega

/-- A price that falls by half and stays there. -/
def halved : List PriceRow :=
  [⟨"A", 0, ⟨2, by decide⟩⟩, ⟨"A", 1, ⟨1, by decide⟩⟩, ⟨"A", 2, ⟨1, by decide⟩⟩]

/-- With a horizon of two the first window has the fall, and only the second window has
a label. -/
theorem first_window_unlabelled :
    (MaxDrawdownLabelBuilder.mk 2).compute halved = .ok [⟨"A", 2, fin 0⟩] ∧
      (1 : ℕ) ≤ 2 ∧ ¬ ExactLabels 2 halved := by
  refine ⟨by with_unfolding_all decide, by norm_num, ?_⟩
  rintro ⟨table, computed, emits, _⟩
  have expected : (MaxDrawdownLabelBuilder.mk 2).compute halved = .ok [⟨"A", 2, fin 0⟩] := by
    with_unfolding_all decide
  rw [expected] at computed
  cases computed
  have counted := (emits "A").length_eq
  have rows : (series "A" halved).length = 3 := by with_unfolding_all decide
  have labels : (labelsOf "A" [⟨"A", 2, fin 0⟩]).length = 1 := by decide
  rw [List.length_drop, List.length_range, rows, labels] at counted
  cases counted

end TradeOS.Research
