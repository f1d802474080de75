import TradeOS.Data.Calendar
import TradeOS.Data.KeepFirst
import Mathlib.Data.List.Sort
import Mathlib.Data.Rat.Defs
import Mathlib.Logic.Function.Basic

/-!
# The partition files of the data store

`DataStore` keeps the records of one symbol (and one timeframe, for bars) in
partition files: one file per month for bars, one per day for ticks and trades.
`Directory` is these files, keyed by the number of the month or the day; every
record is in the file of its own partition, so a misfiled record cannot be built.

Writing groups the records by partition and writes group after group, which comes
to a write of every partition on its own (`files_write`). The first write to a file
stores the records as they come; a later one appends them to the stored rows, drops
the later rows of a repeated timestamp and sorts. The readers walk through the
partitions of a range.

`write_bars` logs its count with keyword arguments, which the logger of the standard
library does not take: where the information level is enabled the call raises after the
files are written (`Directory.writeBars`).

A record is anything with a timestamp. The columns that hold the symbol and the
timeframe are written but never read back, so they are no part of a record.
-/

set_option autoImplicit false

namespace TradeOS.Store

open TradeOS.Calendar

/-- A record with a timestamp. -/
class Timestamped (α : Type) where
  timestamp : α → DateTime

export Timestamped (timestamp)

/-- A bar, as it is stored. -/
structure MarketBar where
  timestamp : DateTime
  opening : ℚ
  high : ℚ
  low : ℚ
  close : ℚ
  volume : ℚ
  quoteVolume : Option ℚ := none
  trades : Option ℕ := none
  vwap : Option ℚ := none
  source : Option String := none
  deriving DecidableEq

instance : Timestamped MarketBar := ⟨MarketBar.timestamp⟩

/-- A tick, as it is stored. -/
structure MarketTick where
  timestamp : DateTime
  price : ℚ
  size : ℚ
  side : Option String := none
  bid : Option ℚ := none
  ask : Option ℚ := none
  bidSize : Option ℚ := none
  askSize : Option ℚ := none
  deriving DecidableEq

instance : Timestamped MarketTick := ⟨MarketTick.timestamp⟩

variable {α : Type} [Timestamped α]

/-- The time of a record, in microseconds. -/
def micros (record : α) : ℕ := (timestamp record).micros

/-! ## One partition -/

/-- `~index.duplicated(keep="first")`. -/
def dropDuplicates (rows : List α) : List α :=
  rows.eraseDupsBy fun row earlier => micros row = micros earlier

/-- `sort_index`. -/
def sortIndex (rows : List α) : List α :=
  rows.insertionSort fun row other => micros row ≤ micros other

/-- `_write_partition`: the file after the write, and the returned count. -/
def writePartition (existing : Option (List α)) (records : List α) : Option (List α) × ℕ :=
  if records.isEmpty then (existing, 0)
  else
    match existing with
    | none => (some records, records.length)
    | some rows => (some (sortIndex (dropDuplicates (rows ++ records))), records.length)

theorem mem_of_mem_dropDuplicates {rows : List α} {row : α} (kept : row ∈ dropDuplicates rows) :
    row ∈ rows := by
  have settled : KeepFirst.Settled micros (dropDuplicates rows) rows :=
    KeepFirst.settled_keepFirst micros rows
  exact KeepFirst.mem_of_first ((settled.mem_iff row).mp kept)

/-- A write stores rows that were there and records that were given. -/
theorem mem_writePartition {existing : Option (List α)} {records rows : List α} {row : α}
    (written : (writePartition existing records).1 = some rows) (member : row ∈ rows) :
    row ∈ existing.getD [] ∨ row ∈ records := by
  unfold writePartition at written
  split at written
  · have stored : existing = some rows := written
    rw [stored]
    exact .inl member
  · cases existing with
    | none =>
        obtain rfl : records = rows := Option.some.inj written
        exact .inr member
    | some old =>
        obtain rfl : sortIndex (dropDuplicates (old ++ records)) = rows := Option.some.inj written
        have kept := (List.mem_insertionSort _).mp member
        exact List.mem_append.mp (mem_of_mem_dropDuplicates kept)

theorem writePartition_count (existing : Option (List α)) (records : List α) :
    (writePartition existing records).2 = records.length := by
  unfold writePartition
  split
  · rename_i empty
    rw [List.isEmpty_iff.mp empty]
    rfl
  · cases existing with
    | none => rfl
    | some rows => rfl

/-! ## The files of a symbol -/

/-- Partition files, keyed by the partition of the timestamps. -/
structure Directory (α : Type) [Timestamped α] (partition : DateTime → ℕ) where
  files : ℕ → Option (List α)
  filed : ∀ key rows, files key = some rows → ∀ row ∈ rows, partition (timestamp row) = key

/-- Monthly files, as bars have them. -/
abbrev MonthlyFiles (α : Type) [Timestamped α] := Directory α DateTime.month

/-- Daily files, as ticks and trades have them. -/
abbrev DailyFiles (α : Type) [Timestamped α] := Directory α DateTime.day

variable {partition : DateTime → ℕ}

namespace Directory

/-- The rows of a partition, none without a file. -/
def rows (directory : Directory α partition) (key : ℕ) : List α := (directory.files key).getD []

theorem partition_of_mem_rows {directory : Directory α partition} {key : ℕ} {row : α}
    (member : row ∈ directory.rows key) : partition (timestamp row) = key := by
  cases stored : directory.files key with
  | none =>
      rw [rows, stored] at member
      exact absurd member List.not_mem_nil
  | some rows =>
      rw [Directory.rows, stored] at member
      exact directory.filed key rows stored row member

/-- A directory without files. -/
def empty : Directory α partition where
  files _ := none
  filed key rows stored := by cases stored

end Directory

/-- The records of one partition. -/
def recordsOf (partition : DateTime → ℕ) (key : ℕ) (records : List α) : List α :=
  records.filter fun record => partition (timestamp record) = key

/-- The partitions of a list of records, in the order of their first record. -/
def partitionsOf (partition : DateTime → ℕ) (records : List α) : List ℕ :=
  (records.map fun record => partition (timestamp record)).eraseDups

namespace Directory

/-- The write of one group of records. -/
def writeGroup (records : List α) (state : Directory α partition × ℕ) (key : ℕ) :
    Directory α partition × ℕ :=
  let written := writePartition (state.1.files key) (recordsOf partition key records)
  ({ files := Function.update state.1.files key written.1
     filed := by
      intro other rows stored row member
      by_cases own : other = key
      · subst own
        rw [Function.update_self] at stored
        rcases mem_writePartition stored member with old | new
        · exact partition_of_mem_rows old
        · exact of_decide_eq_true (List.mem_filter.mp new).2
      · rw [Function.update_of_ne own] at stored
        exact state.1.filed other rows stored row member },
    state.2 + written.2)

/-- The file work of `write_bars` and `write_ticks`: the files after it and the number
of records written. -/
def write (directory : Directory α partition) (records : List α) : Directory α partition × ℕ :=
  (partitionsOf partition records).foldl (writeGroup records) (directory, 0)

/-- Successive writes: the files at the end and the counts of the calls. -/
def writeAll (directory : Directory α partition) :
    List (List α) → Directory α partition × List ℕ
  | [] => (directory, [])
  | records :: batches =>
      let (next, count) := directory.write records
      let (last, counts) := next.writeAll batches
      (last, count :: counts)

end Directory

/-! ## Log calls -/

/-- The levels of the log calls. -/
inductive LogLevel where
  | info
  | warning
  | error

/-- The severity of a level. -/
def LogLevel.severity : LogLevel → ℕ
  | .info => 20
  | .warning => 30
  | .error => 40

/-- A log call with keyword arguments. It does nothing below the threshold of the
logger, and raises from there on. -/
def logged (threshold : ℕ) (level : LogLevel) : Except String Unit :=
  if threshold ≤ level.severity then
    .error "Logger._log() got an unexpected keyword argument 'symbol'"
  else .ok ()

namespace Directory

variable (threshold : ℕ)

/-- `write_bars`: the files after the call, and what it returns or raises. It logs with
keyword arguments before it returns. -/
def writeBars (directory : Directory α partition) (bars : List α) :
    Directory α partition × Except String ℕ :=
  if bars.isEmpty then (directory, .ok 0)
  else
    let written := directory.write bars
    (written.1, (logged threshold .info).map fun _ => written.2)

/-- Successive calls of `write_bars`: the files at the end and the outcomes of the
calls. -/
def writeBarsAll (directory : Directory α partition) :
    List (List α) → Directory α partition × List (Except String ℕ)
  | [] => (directory, [])
  | bars :: batches =>
      let (next, outcome) := directory.writeBars threshold bars
      let (last, outcomes) := next.writeBarsAll batches
      (last, outcome :: outcomes)

variable {threshold}

/-- The files do not depend on the logging. -/
@[simp] theorem fst_writeBars (directory : Directory α partition) (bars : List α) :
    (directory.writeBars threshold bars).1 = (directory.write bars).1 := by
  unfold writeBars
  split
  · rename_i empty
    rw [List.isEmpty_iff.mp empty]
    rfl
  · rfl

/-- Without the information level a call returns its count. -/
theorem writeBars_quiet (quiet : 20 < threshold) (directory : Directory α partition)
    (bars : List α) :
    directory.writeBars threshold bars =
      ((directory.write bars).1, .ok (directory.write bars).2) := by
  have silent : logged threshold .info = .ok () := if_neg (not_le.mpr quiet)
  unfold writeBars
  split
  · rename_i empty
    rw [List.isEmpty_iff.mp empty]
    rfl
  · rw [silent]
    rfl

/-- With the information level a call returns only where there is nothing to write. -/
theorem isOk_writeBars_loud (loud : threshold ≤ 20) (directory : Directory α partition)
    (bars : List α) :
    (directory.writeBars threshold bars).2.isOk = true ↔ bars = [] := by
  have raised : logged threshold .info =
      .error "Logger._log() got an unexpected keyword argument 'symbol'" := if_pos loud
  unfold writeBars
  split
  · rename_i empty
    exact iff_of_true rfl (List.isEmpty_iff.mp empty)
  · rename_i some
    rw [raised]
    exact iff_of_false Bool.false_ne_true fun empty => some (List.isEmpty_iff.mpr empty)

theorem fst_writeBarsAll (directory : Directory α partition) (batches : List (List α)) :
    (directory.writeBarsAll threshold batches).1 = (directory.writeAll batches).1 := by
  induction batches generalizing directory with
  | nil => rfl
  | cons bars batches ih =>
      show ((directory.writeBars threshold bars).1.writeBarsAll threshold batches).1 = _
      rw [fst_writeBars, ih]
      rfl

end Directory

/-! ## What a write does -/

theorem nodup_eraseDups (keys : List ℕ) : keys.eraseDups.Nodup := by
  induction length : keys.length using Nat.strong_induction_on generalizing keys with
  | _ n ih =>
      cases keys with
      | nil => exact List.nodup_nil
      | cons key keys =>
          rw [List.eraseDups_cons, List.nodup_cons]
          refine ⟨by simp, ih _ ?_ _ rfl⟩
          rw [← length, List.length_cons]
          exact Nat.lt_succ_of_le (List.length_filter_le _ _)

theorem nodup_partitionsOf (records : List α) : (partitionsOf partition records).Nodup :=
  nodup_eraseDups _

theorem writePartition_nil (existing : Option (List α)) :
    writePartition existing [] = (existing, 0) :=
  rfl

/-- A fold of group writes touches the keys it lists, each once. -/
theorem files_foldl_writeGroup (records : List α) (keys : List ℕ) (nodup : keys.Nodup)
    (state : Directory α partition × ℕ) (key : ℕ) :
    (keys.foldl (Directory.writeGroup records) state).1.files key =
      if key ∈ keys then
        (writePartition (state.1.files key) (recordsOf partition key records)).1
      else state.1.files key := by
  induction keys generalizing state with
  | nil => rfl
  | cons first keys ih =>
      obtain ⟨fresh, rest⟩ := List.nodup_cons.mp nodup
      rw [List.foldl_cons, ih rest]
      by_cases own : key = first
      · subst own
        rw [if_neg fresh, if_pos List.mem_cons_self]
        exact Function.update_self _ _ _
      · have same : (Directory.writeGroup records state first).1.files key = state.1.files key :=
          Function.update_of_ne own _ _
        rw [same]
        simp only [List.mem_cons, own, false_or]

/-- **A write is a write of every partition on its own.** -/
theorem files_write (directory : Directory α partition) (records : List α) (key : ℕ) :
    (directory.write records).1.files key =
      (writePartition (directory.files key) (recordsOf partition key records)).1 := by
  rw [Directory.write, files_foldl_writeGroup records _ (nodup_partitionsOf records)]
  split
  · rfl
  · rename_i missing
    have none : recordsOf partition key records = [] := by
      refine List.filter_eq_nil_iff.mpr fun record member own => missing ?_
      rw [partitionsOf, List.mem_eraseDups]
      exact List.mem_map.mpr ⟨record, member, of_decide_eq_true own⟩
    rw [none, writePartition_nil]

/-- A row after a write was there before, or it is one of the records. -/
theorem mem_rows_write {directory : Directory α partition} {records : List α} {key : ℕ} {row : α}
    (member : row ∈ (directory.write records).1.rows key) :
    row ∈ directory.rows key ∨ row ∈ records := by
  rw [Directory.rows, files_write] at member
  cases written : (writePartition (directory.files key) (recordsOf partition key records)).1 with
  | none =>
      rw [written] at member
      exact absurd member List.not_mem_nil
  | some rows =>
      rw [written] at member
      rcases mem_writePartition written member with old | new
      · exact .inl old
      · exact .inr (List.mem_of_mem_filter new)

/-! ## Reading a range -/

/-- The keys that a loop from one partition to another visits. Stepping past the
last partition of the calendar raises. -/
def walk (limit first last : ℕ) : Option (List ℕ) :=
  if first ≤ last ∧ last = limit then none else some (List.range' first (last + 1 - first))

/-- The record is in a range of time, both ends included. -/
def Within (start finish : DateTime) (record : α) : Prop :=
  start.micros ≤ micros record ∧ micros record ≤ finish.micros

instance (start finish : DateTime) (record : α) : Decidable (Within start finish record) :=
  inferInstanceAs (Decidable (_ ∧ _))

namespace Directory

/-- The rows of a partition in a range of time. -/
def rowsWithin (directory : Directory α partition) (start finish : DateTime) (key : ℕ) : List α :=
  (directory.rows key).filter fun row => Within start finish row

/-- `read_bars`. -/
def readBars (directory : MonthlyFiles α) (start finish : DateTime) : Option (List α) := do
  let months ← walk lastMonth start.month finish.month
  return months.flatMap (directory.rowsWithin start finish)

/-- `read_ticks`. -/
def readTicks (directory : DailyFiles α) (start finish : DateTime) : Option (List α) := do
  let days ← walk lastDay start.day finish.day
  return days.flatMap (directory.rowsWithin start finish)

/-- `ReplayReader.read_slice`: the months of the range, each read from the file that
the reader opens for its first day. -/
def readSlice (directory : Directory α partition) (fileOf : ℕ → ℕ) (start finish : DateTime) :
    Option (List α) := do
  let months ← walk lastMonth start.month finish.month
  return months.flatMap fun month => directory.rowsWithin start finish (fileOf month)

end Directory

/-- `BarReplayReader.read_slice`: the file of a month. -/
def barReadSlice (directory : MonthlyFiles α) (start finish : DateTime) : Option (List α) :=
  directory.readSlice id start finish

/-- `TickReplayReader.read_slice` and `TradeReplayReader.read_slice`: the file of the
first day of a month. -/
def tickReadSlice (directory : DailyFiles α) (start finish : DateTime) : Option (List α) :=
  directory.readSlice monthStart start finish

/-! ## Sample records -/

/-- Some minutes into the year 2024. -/
def newYear (minutes : ℕ) : DateTime :=
  ⟨(monthStart (12 * 2023) * dayMicros + minutes * 60000000) % maxMicros,
    Nat.mod_lt _ (by decide)⟩

/-- A bar at the start of 2024. -/
def sampleBar (minutes : ℕ) : MarketBar where
  timestamp := newYear minutes
  opening := 100
  high := 100
  low := 100
  close := 100
  volume := 10

end TradeOS.Store
