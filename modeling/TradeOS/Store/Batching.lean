import TradeOS.Store.Files
import Mathlib.Algebra.BigOperators.Group.Finset.Basic

/-!
# Writing in batches

How the files depend on the way a list of bars is cut into successive writes. As
every partition is written on its own, a run of writes is, file by file, a fold of
`writePartition` over the batches (`files_writeAll`).

Only the merging branch sorts and drops repeated timestamps, and a call whose log call
raises returns no count. The outcome is therefore independent of the batches, sorted,
free of repetitions and counted exactly when every month's bars come in increasing order
of their timestamps and no call logs (`batching_iff`).
-/

set_option autoImplicit false

namespace TradeOS.Store

open TradeOS.Calendar

variable {α : Type} [Timestamped α] {partition : DateTime → ℕ}

/-! ## File by file -/

/-- A run of writes, file by file. -/
theorem files_writeAll (directory : Directory α partition) (batches : List (List α)) (key : ℕ) :
    (directory.writeAll batches).1.files key =
      batches.foldl
        (fun file records => (writePartition file (recordsOf partition key records)).1)
        (directory.files key) := by
  induction batches generalizing directory with
  | nil => rfl
  | cons records batches ih =>
      rw [List.foldl_cons, ← files_write, ← ih]
      rfl

/-! ## The counts -/

/-- The records are spread over their partitions. -/
theorem sum_recordsOf (partition : DateTime → ℕ) (records : List α) :
    ∑ key ∈ (partitionsOf partition records).toFinset, (recordsOf partition key records).length =
      records.length := by
  have keys : (partitionsOf partition records).toFinset =
      (records.map fun record => partition (timestamp record)).toFinset := by
    ext key
    simp [partitionsOf]
  have size : ∀ key, (recordsOf partition key records).length =
      (records.map fun record => partition (timestamp record)).count key := by
    intro key
    rw [recordsOf, List.count, List.countP_map, List.countP_eq_length_filter]
    rfl
  simp only [keys, size]
  rw [List.sum_toFinset_count_eq_length, List.length_map]

theorem count_foldl_writeGroup (records : List α) (keys : List ℕ)
    (state : Directory α partition × ℕ) :
    (keys.foldl (Directory.writeGroup records) state).2 =
      state.2 + (keys.map fun key => (recordsOf partition key records).length).sum := by
  induction keys generalizing state with
  | nil => rfl
  | cons key keys ih =>
      rw [List.foldl_cons, ih, List.map_cons, List.sum_cons, ← Nat.add_assoc]
      congr 1
      exact congrArg (state.2 + ·) (writePartition_count _ _)

/-- A write returns the number of records it is given. -/
theorem count_write (directory : Directory α partition) (records : List α) :
    (directory.write records).2 = records.length := by
  rw [Directory.write, count_foldl_writeGroup, Nat.zero_add, ← sum_recordsOf partition records,
    List.sum_toFinset _ (nodup_partitionsOf records)]

theorem counts_writeAll (directory : Directory α partition) (batches : List (List α)) :
    (directory.writeAll batches).2.sum = batches.flatten.length := by
  induction batches generalizing directory with
  | nil => rfl
  | cons records batches ih =>
      rw [List.flatten_cons, List.length_append, ← ih (directory.write records).1,
        ← count_write directory records]
      rfl

/-- Without the information level the successive calls return their counts. -/
theorem outcomes_quiet {threshold : ℕ} (quiet : 20 < threshold)
    (directory : Directory α partition) (batches : List (List α)) :
    (directory.writeBarsAll threshold batches).2 =
      (directory.writeAll batches).2.map Except.ok := by
  induction batches generalizing directory with
  | nil => rfl
  | cons bars batches ih =>
      have next := ih (directory.write bars).1
      unfold Directory.writeBarsAll
      rw [Directory.writeBars_quiet quiet]
      exact congrArg (Except.ok (directory.write bars).2 :: ·) next

/-- With the information level a call on some bars returns nothing. -/
theorem outcomes_loud {threshold : ℕ} (loud : threshold ≤ 20)
    (directory : Directory α partition) (batches : List (List α)) :
    (∀ outcome ∈ (directory.writeBarsAll threshold batches).2, outcome.isOk = true) ↔
      ∀ bars ∈ batches, bars = [] := by
  induction batches generalizing directory with
  | nil => simp [Directory.writeBarsAll]
  | cons bars batches ih =>
      show (∀ outcome ∈ (directory.writeBars threshold bars).2 ::
        ((directory.writeBars threshold bars).1.writeBarsAll threshold batches).2,
          outcome.isOk = true) ↔ _
      rw [List.forall_mem_cons, List.forall_mem_cons, ih,
        Directory.isOk_writeBars_loud loud]

/-- Calls without bars store nothing and return zero. -/
theorem writeBarsAll_nothing {threshold : ℕ} (directory : Directory α partition)
    {batches : List (List α)} (nothing : ∀ bars ∈ batches, bars = []) :
    (directory.writeBarsAll threshold batches).2 =
      (directory.writeAll batches).2.map Except.ok := by
  induction batches generalizing directory with
  | nil => rfl
  | cons bars batches ih =>
      obtain ⟨rfl, rest⟩ := List.forall_mem_cons.mp nothing
      exact congrArg (Except.ok 0 :: ·) (ih directory rest)

/-! ## Increasing timestamps -/

/-- The records come in increasing order of their timestamps, without repetition. -/
def Increasing (records : List α) : Prop :=
  records.Pairwise fun row later => micros row < micros later

theorem dropDuplicates_of_increasing {rows : List α} (increasing : Increasing rows) :
    dropDuplicates rows = rows := by
  induction rows with
  | nil => rfl
  | cons row rows ih =>
      obtain ⟨later, rest⟩ := List.pairwise_cons.mp increasing
      have distinct : (rows.filter fun b => (decide (micros b = micros row)) = false) = rows := by
        refine List.filter_eq_self.mpr ?_
        intro b member
        simpa using (later b member).ne'
      rw [dropDuplicates, List.eraseDupsBy_cons, distinct]
      exact congrArg (row :: ·) (ih rest)

theorem sortIndex_of_increasing {rows : List α} (increasing : Increasing rows) :
    sortIndex rows = rows :=
  (increasing.imp fun earlier => earlier.le).insertionSort_eq

/-- The file with the given rows; no file without rows. -/
def fileOf (rows : List α) : Option (List α) := if rows.isEmpty then none else some rows

theorem writePartition_none (records : List α) : (writePartition none records).1 = fileOf records := by
  unfold writePartition fileOf
  split <;> rfl

/-- Records that go on increasing are appended. -/
theorem writePartition_of_increasing {rows records : List α}
    (increasing : Increasing (rows ++ records)) :
    (writePartition (fileOf rows) records).1 = fileOf (rows ++ records) := by
  cases rows with
  | nil => exact writePartition_none records
  | cons row rows =>
      cases records with
      | nil => rw [List.append_nil, writePartition_nil]
      | cons record records =>
          show some (sortIndex (dropDuplicates _)) = _
          rw [dropDuplicates_of_increasing increasing, sortIndex_of_increasing increasing]
          rfl

/-- A run of writes of increasing records stores their concatenation. -/
theorem foldl_writePartition_of_increasing (batches : List (List α)) (rows : List α)
    (increasing : Increasing (rows ++ batches.flatten)) :
    batches.foldl (fun file records => (writePartition file records).1) (fileOf rows) =
      fileOf (rows ++ batches.flatten) := by
  induction batches generalizing rows with
  | nil => rw [List.flatten_nil, List.append_nil, List.foldl_nil]
  | cons records batches ih =>
      rw [List.flatten_cons, ← List.append_assoc] at increasing ⊢
      have next : Increasing (rows ++ records) := (List.pairwise_append.mp increasing).1
      rw [List.foldl_cons, writePartition_of_increasing next, ih _ increasing]

/-- In a list of increasing timestamps every record is the first of its own. -/
theorem find_of_increasing {rows : List α} (increasing : Increasing rows) {row : α}
    (member : row ∈ rows) :
    rows.find? (fun other => micros other = micros row) = some row := by
  have distinct : (rows.map micros).Nodup := List.pairwise_map.mpr (increasing.imp ne_of_lt)
  exact KeepFirst.first_of_mem distinct member

/-! ## The law -/

/-- What writing in batches should give, when the logger has a threshold: the files of one
single write, each sorted, with one record per timestamp, the one written first, and
calls that return counts, which add up to the number of stored records. -/
structure BatchingLaw (threshold : ℕ) (partition : DateTime → ℕ) (batches : List (List α)) :
    Prop where
  same : ∀ key,
    ((Directory.empty : Directory α partition).writeBarsAll threshold batches).1.files key =
      ((Directory.empty : Directory α partition).writeBars threshold batches.flatten).1.files key
  sorted : ∀ key,
    Increasing (((Directory.empty : Directory α partition).writeBarsAll threshold batches).1.rows
      key)
  first : ∀ key, ∀ row ∈
      ((Directory.empty : Directory α partition).writeBarsAll threshold batches).1.rows key,
      (recordsOf partition key batches.flatten).find?
        (fun other => micros other = micros row) = some row
  complete : ∀ record ∈ batches.flatten,
    ∃ row ∈ ((Directory.empty : Directory α partition).writeBarsAll threshold batches).1.rows
      (partition (timestamp record)), micros row = micros record
  counts : ∃ counts : List ℕ,
    ((Directory.empty : Directory α partition).writeBarsAll threshold batches).2 =
      counts.map Except.ok ∧
    counts.sum = ∑ key ∈ (partitionsOf partition batches.flatten).toFinset,
      (((Directory.empty : Directory α partition).writeBarsAll threshold batches).1.rows
        key).length

section Law

variable (partition) (batches : List (List α))

theorem flatten_map_recordsOf (key : ℕ) :
    (batches.map (recordsOf partition key)).flatten = recordsOf partition key batches.flatten := by
  rw [recordsOf, List.filter_flatten]
  rfl

theorem getD_fileOf {β : Type} (rows : List β) : (fileOf rows).getD [] = rows := by
  unfold fileOf
  split
  · rename_i empty
    exact (List.isEmpty_iff.mp empty).symm
  · rfl

/-- One single write stores every partition as it is given. -/
theorem files_write_empty (records : List α) (key : ℕ) :
    ((Directory.empty : Directory α partition).write records).1.files key =
      fileOf (recordsOf partition key records) := by
  rw [files_write]
  exact writePartition_none _

/-- Batches of increasing records store every partition as it is given. -/
theorem files_writeAll_of_increasing (key : ℕ)
    (increasing : Increasing (recordsOf partition key batches.flatten)) :
    ((Directory.empty : Directory α partition).writeAll batches).1.files key =
      fileOf (recordsOf partition key batches.flatten) := by
  have folded := foldl_writePartition_of_increasing (batches.map (recordsOf partition key)) []
    (by rw [flatten_map_recordsOf, List.nil_append]; exact increasing)
  rw [List.foldl_map, flatten_map_recordsOf, List.nil_append] at folded
  rw [files_writeAll]
  exact folded

/-- No call logs: the information level is off, or there is nothing to write. -/
def NeverLogs (threshold : ℕ) (batches : List (List α)) : Prop :=
  20 < threshold ∨ ∀ bars ∈ batches, bars = []

/-- **Every call returns its count exactly when no call logs.** -/
theorem outcomes_counted_iff (threshold : ℕ) (directory : Directory α partition) :
    (∃ counts : List ℕ, (directory.writeBarsAll threshold batches).2 = counts.map Except.ok) ↔
      NeverLogs threshold batches := by
  constructor
  · rintro ⟨counts, returned⟩
    rcases Nat.lt_or_ge 20 threshold with quiet | loud
    · exact .inl quiet
    · refine .inr ((outcomes_loud loud directory batches).mp fun outcome member => ?_)
      rw [returned] at member
      obtain ⟨count, _, rfl⟩ := List.mem_map.mp member
      rfl
  · rintro (quiet | nothing)
    · exact ⟨_, outcomes_quiet quiet directory batches⟩
    · exact ⟨_, writeBarsAll_nothing directory nothing⟩

/-- The counts that are returned are those of the file work. -/
theorem outcomes_of_neverLogs {threshold : ℕ} (silent : NeverLogs threshold batches)
    (directory : Directory α partition) :
    (directory.writeBarsAll threshold batches).2 =
      (directory.writeAll batches).2.map Except.ok := by
  rcases silent with quiet | nothing
  · exact outcomes_quiet quiet directory batches
  · exact writeBarsAll_nothing directory nothing

/-- **Writing in batches is lawful exactly when no call logs and every partition's records
come in increasing order of their timestamps.** -/
theorem batching_iff (threshold : ℕ) :
    BatchingLaw threshold partition batches ↔
      NeverLogs threshold batches ∧
        ∀ key, Increasing (recordsOf partition key batches.flatten) := by
  constructor
  · intro law
    constructor
    · obtain ⟨counts, returned, _⟩ := law.counts
      exact (outcomes_counted_iff partition batches threshold _).mp ⟨counts, returned⟩
    · intro key
      have sorted := law.sorted key
      rw [Directory.rows, law.same, Directory.fst_writeBars, files_write_empty, getD_fileOf]
        at sorted
      exact sorted
  · rintro ⟨silent, increasing⟩
    have files := fun key => files_writeAll_of_increasing partition batches key (increasing key)
    have rows : ∀ key,
        ((Directory.empty : Directory α partition).writeBarsAll threshold batches).1.rows key =
        recordsOf partition key batches.flatten := by
      intro key
      rw [Directory.fst_writeBarsAll, Directory.rows, files, getD_fileOf]
    constructor
    · intro key
      rw [Directory.fst_writeBarsAll, Directory.fst_writeBars, files, files_write_empty]
    · intro key
      rw [rows]
      exact increasing key
    · intro key row member
      rw [rows] at member
      exact find_of_increasing (increasing key) member
    · intro record member
      refine ⟨record, ?_, rfl⟩
      rw [rows]
      exact List.mem_filter.mpr ⟨member, decide_eq_true rfl⟩
    · refine ⟨_, outcomes_of_neverLogs partition batches silent _, ?_⟩
      rw [counts_writeAll, ← sum_recordsOf partition batches.flatten]
      exact Finset.sum_congr rfl fun key _ => by rw [rows]

end Law

/-- The later bar is written before the earlier one; a bar that is written twice is counted
twice; and with the information level one single bar is stored without a count. -/
theorem batching_unlawful :
    ((Directory.empty : MonthlyFiles MarketBar).writeBarsAll 30
        [[sampleBar 1], [sampleBar 0]]).1.files (12 * 2023) = some [sampleBar 0, sampleBar 1] ∧
      ((Directory.empty : MonthlyFiles MarketBar).writeBars 30
        [sampleBar 1, sampleBar 0]).1.files (12 * 2023) = some [sampleBar 1, sampleBar 0] ∧
      ((Directory.empty : MonthlyFiles MarketBar).writeAll [[sampleBar 0], [sampleBar 0]]).2 =
        [1, 1] ∧
      ((Directory.empty : MonthlyFiles MarketBar).writeBarsAll 30
        [[sampleBar 0], [sampleBar 0]]).1.files (12 * 2023) = some [sampleBar 0] ∧
      ¬ BatchingLaw 30 DateTime.month [[sampleBar 1], [sampleBar 0]] ∧
      ¬ BatchingLaw 20 DateTime.month [[sampleBar 0]] := by
  have batched :
      ((Directory.empty : MonthlyFiles MarketBar).writeBarsAll 30
        [[sampleBar 1], [sampleBar 0]]).1.files (12 * 2023) =
        some [sampleBar 0, sampleBar 1] := by
    with_unfolding_all decide
  have single :
      ((Directory.empty : MonthlyFiles MarketBar).writeBars 30
        [sampleBar 1, sampleBar 0]).1.files (12 * 2023) = some [sampleBar 1, sampleBar 0] := by
    with_unfolding_all decide
  refine ⟨batched, single, by with_unfolding_all decide, by with_unfolding_all decide,
    fun law => ?_, fun law => ?_⟩
  · have same := law.same (12 * 2023)
    rw [batched] at same
    exact absurd (same.trans single) (by with_unfolding_all decide)
  · obtain ⟨counts, returned, _⟩ := law.counts
    rcases (outcomes_counted_iff _ _ _ _).mp ⟨counts, returned⟩ with quiet | nothing
    · exact absurd quiet (by decide)
    · exact absurd (nothing _ List.mem_cons_self) (List.cons_ne_nil _ _)

end TradeOS.Store
