import TradeOS.Store.Files
import Mathlib.Data.List.Count

/-!
# Reading a range of time

The readers walk through the partitions of a range and concatenate what each file
holds of it. A file can only hold records of its own partition, so a walk may be
widened or narrowed to the partitions that contribute (`flatMap_range_eq`), and it
finds what is stored of the range (`count_flatMap_rowsWithin`).

Bars are read month by month by both readers (`barReadSlice_eq_readBars`).
The store reads ticks day by day. The replay reader of ticks walks through the
months and opens the file of the first day of each. `tick_readers_agree_iff` says
when the two return the same timestamps.
-/

set_option autoImplicit false

namespace TradeOS.Store

open TradeOS.Calendar

/-! ## Walks -/

section Walk

variable {β : Type}

/-- A walk over partitions that contribute nothing outside an interval is a walk
over that interval. -/
theorem flatMap_range_eq (f : ℕ → List β) {first last start stop : ℕ} (lower : start ≤ first)
    (ordered : first ≤ last) (upper : last ≤ stop)
    (silent : ∀ key, start ≤ key → key < stop → ¬(first ≤ key ∧ key < last) → f key = []) :
    (List.range' start (stop - start)).flatMap f =
      (List.range' first (last - first)).flatMap f := by
  have split : List.range' start (stop - start) =
      List.range' start (first - start) ++ List.range' first (last - first) ++
        List.range' last (stop - last) := by
    have left : List.range' start (first - start) ++ List.range' first (last - first) =
        List.range' start (last - start) := by
      have joined := List.range'_append_1 (s := start) (m := first - start) (n := last - first)
      rw [Nat.add_sub_cancel' lower] at joined
      rw [joined]
      congr 1
      omega
    have right := List.range'_append_1 (s := start) (m := last - start) (n := stop - last)
    rw [Nat.add_sub_cancel' (lower.trans ordered)] at right
    rw [left, right]
    congr 1
    omega
  have before : (List.range' start (first - start)).flatMap f = [] := by
    refine List.flatMap_eq_nil_iff.mpr ?_
    intro key member
    obtain ⟨above, below⟩ := List.mem_range'_1.mp member
    exact silent key above (by omega) (by omega)
  have after : (List.range' last (stop - last)).flatMap f = [] := by
    refine List.flatMap_eq_nil_iff.mpr ?_
    intro key member
    obtain ⟨above, below⟩ := List.mem_range'_1.mp member
    exact silent key (by omega) (by omega) (by omega)
  rw [split, List.flatMap_append, List.flatMap_append, before, after, List.nil_append,
    List.append_nil]

theorem walk_eq_some_iff {limit first last : ℕ} (ordered : first ≤ last) (keys : List ℕ) :
    walk limit first last = some keys ↔
      last ≠ limit ∧ keys = List.range' first (last + 1 - first) := by
  unfold walk
  by_cases stuck : last = limit
  · rw [if_pos ⟨ordered, stuck⟩]
    exact iff_of_false (by simp) fun escapes => escapes.1 stuck
  · rw [if_neg fun both => stuck both.2]
    simp [stuck, eq_comm]

end Walk

/-! ## Rows of a range -/

section Rows

variable {α : Type} [Timestamped α] {partition : DateTime → ℕ}
  {directory : Directory α partition} {start finish : DateTime}

theorem mem_rowsWithin {key : ℕ} {row : α} :
    row ∈ directory.rowsWithin start finish key ↔
      row ∈ directory.rows key ∧ Within start finish row := by
  simp [Directory.rowsWithin]

/-- Rows of a range are in the partitions of the range. -/
theorem partition_mem_of_mem (monotone : ∀ {first second : DateTime},
      first.micros ≤ second.micros → partition first ≤ partition second)
    {key : ℕ} {row : α} (member : row ∈ directory.rowsWithin start finish key) :
    partition (timestamp row) = key ∧ partition start ≤ key ∧ key ≤ partition finish := by
  obtain ⟨stored, within⟩ := mem_rowsWithin.mp member
  have own := Directory.partition_of_mem_rows stored
  exact ⟨own, own ▸ monotone within.1, own ▸ monotone within.2⟩

/-- **A walk over the partitions of a range finds every stored row of the range as often
as it is stored, and no other row.** -/
theorem count_flatMap_rowsWithin [DecidableEq α] (monotone : ∀ {first second : DateTime},
      first.micros ≤ second.micros → partition first ≤ partition second)
    (directory : Directory α partition) (start finish : DateTime) (row : α) :
    ((List.range' (partition start) (partition finish + 1 - partition start)).flatMap
        (directory.rowsWithin start finish)).count row =
      if Within start finish row then (directory.rows (partition (timestamp row))).count row
      else 0 := by
  rw [List.count_eq_length_filter, List.filter_flatMap]
  set f := fun key => (directory.rowsWithin start finish key).filter (· == row)
  have own : ∀ key, f key ≠ [] → Within start finish row ∧ partition (timestamp row) = key := by
    intro key contributes
    obtain ⟨other, member⟩ := List.exists_mem_of_ne_nil _ contributes
    obtain ⟨listed, same⟩ := List.mem_filter.mp member
    obtain rfl : other = row := eq_of_beq same
    exact ⟨(mem_rowsWithin.mp listed).2, (partition_mem_of_mem monotone listed).1⟩
  by_cases within : Within start finish row
  · have above := monotone within.1
    have below := monotone within.2
    have narrowed := flatMap_range_eq f above (Nat.le_succ _) (Nat.succ_le_succ below)
      fun key _ _ other => by
        by_contra contributes
        have same := (own key contributes).2
        exact other ⟨same.le, Nat.lt_succ_of_le same.ge⟩
    rw [Nat.succ_sub (le_refl _), Nat.sub_self, List.range'_one, List.flatMap_singleton] at narrowed
    rw [if_pos within]
    refine (congrArg List.length narrowed).trans ?_
    rw [← List.count_eq_length_filter, Directory.rowsWithin, List.count_filter (by simpa using within)]
  · have silent : (List.range' (partition start) (partition finish + 1 - partition start)).flatMap f =
        [] := by
      refine List.flatMap_eq_nil_iff.mpr ?_
      intro key _
      by_contra contributes
      exact within (own key contributes).1
    rw [if_neg within]
    exact congrArg List.length silent

/-- What `readSlice` returns, and when it raises. -/
theorem readSlice_eq_some_iff (directory : Directory α partition) (fileOf : ℕ → ℕ)
    (ordered : start.micros ≤ finish.micros) (rows : List α) :
    directory.readSlice fileOf start finish = some rows ↔
      finish.month ≠ lastMonth ∧
        rows = (List.range' start.month (finish.month + 1 - start.month)).flatMap fun month =>
          directory.rowsWithin start finish (fileOf month) := by
  simp only [Directory.readSlice, Option.bind_eq_bind, Option.bind_eq_some_iff,
    walk_eq_some_iff (DateTime.month_mono ordered)]
  constructor
  · rintro ⟨_, ⟨inside, rfl⟩, read⟩
    exact ⟨inside, (Option.some.inj read).symm⟩
  · rintro ⟨inside, rfl⟩
    exact ⟨_, ⟨inside, rfl⟩, rfl⟩

/-- What `readTicks` returns, and when it raises. -/
theorem readTicks_eq_some_iff (directory : DailyFiles α) (ordered : start.micros ≤ finish.micros)
    (rows : List α) :
    directory.readTicks start finish = some rows ↔
      finish.day ≠ lastDay ∧
        rows = (List.range' start.day (finish.day + 1 - start.day)).flatMap
          (directory.rowsWithin start finish) := by
  simp only [Directory.readTicks, Option.bind_eq_bind, Option.bind_eq_some_iff,
    walk_eq_some_iff (DateTime.day_mono ordered)]
  constructor
  · rintro ⟨_, ⟨outside, rfl⟩, read⟩
    exact ⟨outside, (Option.some.inj read).symm⟩
  · rintro ⟨outside, rfl⟩
    exact ⟨_, ⟨outside, rfl⟩, rfl⟩

end Rows

/-- The store and the replay reader walk through the same files of bars. -/
theorem barReadSlice_eq_readBars {α : Type} [Timestamped α] (directory : MonthlyFiles α)
    (start finish : DateTime) :
    barReadSlice directory start finish = directory.readBars start finish :=
  rfl

/-- What `readBars` returns, and when it raises. -/
theorem readBars_eq_some_iff {α : Type} [Timestamped α] (directory : MonthlyFiles α)
    {start finish : DateTime} (ordered : start.micros ≤ finish.micros) (rows : List α) :
    directory.readBars start finish = some rows ↔
      finish.month ≠ lastMonth ∧
        rows = (List.range' start.month (finish.month + 1 - start.month)).flatMap
          (directory.rowsWithin start finish) :=
  readSlice_eq_some_iff directory id ordered rows

/-! ## The two readers of ticks -/

section Ticks

variable {α : Type} [Timestamped α] (directory : DailyFiles α) {start finish : DateTime}

/-- A walk over the days of whole months, when only the first days contribute, is a
walk over the months. -/
theorem flatMap_months {β : Type} (f : ℕ → List β) (first count : ℕ)
    (silent : ∀ day, f day ≠ [] → ∃ m, day = monthStart m) :
    (List.range' (monthStart first) (monthStart (first + count) - monthStart first)).flatMap f =
      (List.range' first count).flatMap fun m => f (monthStart m) := by
  induction count with
  | zero => simp
  | succ count ih =>
      have started : monthStart first ≤ monthStart (first + count) :=
        monthStart_strictMono.monotone (Nat.le_add_right first count)
      have longer := monthStart_lt_succ (first + count)
      have joined := List.range'_append_1 (s := monthStart first)
        (m := monthStart (first + count) - monthStart first)
        (n := monthStart (first + count + 1) - monthStart (first + count))
      rw [Nat.add_sub_cancel' started] at joined
      have whole : monthStart (first + count) - monthStart first +
          (monthStart (first + count + 1) - monthStart (first + count)) =
            monthStart (first + (count + 1)) - monthStart first := by
        rw [← Nat.add_assoc]
        omega
      rw [whole] at joined
      -- Within the last month only its first day contributes.
      have month := flatMap_range_eq f (le_refl (monthStart (first + count)))
        (Nat.le_succ _) longer fun day above below other => by
          by_contra contributes
          obtain ⟨m, rfl⟩ := silent day contributes
          have own : first + count = m := by
            rw [← monthIndex_eq_of_mem above below, monthIndex_monthStart]
          exact other ⟨above, by rw [own]; exact Nat.lt_succ_self _⟩
      rw [Nat.succ_sub (le_refl _), Nat.sub_self, List.range'_one, List.flatMap_singleton] at month
      rw [← joined, List.flatMap_append, ih, month, List.range'_1_concat, List.flatMap_append,
        List.flatMap_singleton]

theorem finish_day_ne_lastDay (inside : finish.month ≠ lastMonth) : finish.day ≠ lastDay := by
  intro last
  refine inside ?_
  rw [DateTime.month, last]
  decide

/-- When only first days of months hold ticks of the range, both readers return the
same ticks. -/
theorem readTicks_eq_readSlice (ordered : start.micros ≤ finish.micros)
    (inside : finish.month ≠ lastMonth)
    (firsts : ∀ key, ∀ row ∈ directory.rows key, Within start finish row →
      ∃ m, (timestamp row).day = monthStart m) :
    ∃ rows, tickReadSlice directory start finish = some rows ∧
      directory.readTicks start finish = some rows := by
  have days := DateTime.day_mono ordered
  have months := DateTime.month_mono ordered
  refine ⟨_, (readSlice_eq_some_iff directory monthStart ordered _).mpr ⟨inside, rfl⟩,
    (readTicks_eq_some_iff directory ordered _).mpr ⟨finish_day_ne_lastDay inside, ?_⟩⟩
  set f := directory.rowsWithin start finish
  have silent : ∀ day, f day ≠ [] → ∃ m, day = monthStart m := by
    intro day contributes
    obtain ⟨row, member⟩ := List.exists_mem_of_ne_nil _ contributes
    obtain ⟨own, _⟩ := partition_mem_of_mem DateTime.day_mono member
    obtain ⟨stored, within⟩ := mem_rowsWithin.mp member
    obtain ⟨m, first⟩ := firsts day row stored within
    exact ⟨m, own.symm.trans first⟩
  -- The walk over the days, widened to whole months.
  have starts : monthStart start.month ≤ start.day := (monthStart_le_iff _ _).mpr (le_refl _)
  have ends : finish.day + 1 ≤ monthStart (finish.month + 1) := by
    by_contra beyond
    have next := (monthStart_le_iff (finish.month + 1) finish.day).mp (by omega)
    exact absurd next (by rw [DateTime.month]; omega)
  have widened := flatMap_range_eq f starts (days.trans (Nat.le_succ _)) ends
    fun day _ _ other => by
      by_contra contributes
      obtain ⟨row, member⟩ := List.exists_mem_of_ne_nil _ contributes
      obtain ⟨_, above, below⟩ := partition_mem_of_mem DateTime.day_mono member
      exact other ⟨above, Nat.lt_succ_of_le below⟩
  have whole := flatMap_months f start.month (finish.month + 1 - start.month) silent
  rw [Nat.add_sub_cancel' (months.trans (Nat.le_succ _)), widened] at whole
  exact whole.symm

end Ticks

/-- A tick at the start of 2024. -/
def sampleTick (minutes : ℕ) : MarketTick where
  timestamp := newYear minutes
  price := 100
  size := 1

end TradeOS.Store
