import TradeOS.Store.Merging

/-!
# Operations on a whole dataset

`delete_dataset` and `read_dataset` work on all files of a symbol: the files of every
timeframe for bars, the daily files for ticks. Both look at the shape of the frame
that a file gives. A frame has its timestamps in the index, as the writer puts them
there, or in a column, and only a column is filtered by.

So a range delete removes every file, and is exact only when the range covers all
that is stored (`delete_exact_iff`). The generic reader returns all rows, and drops
the index with the timestamps, so it agrees with the typed readers only on an empty
dataset (`read_dataset_agrees_iff`).
-/

set_option autoImplicit false

namespace TradeOS.Store

open TradeOS.Calendar

/-! ## Frames -/

/-- Where a frame keeps the timestamps of its rows. -/
inductive TimestampPlace where
  | index
  | column
  | nowhere
  deriving DecidableEq

/-- A data frame. -/
structure Frame (α : Type) where
  place : TimestampPlace
  rows : List α

/-- `read_parquet`: the timestamps are restored as the index they were written with. -/
def readParquet {α : Type} (rows : List α) : Frame α := ⟨.index, rows⟩

/-- `concat` with `ignore_index`: an index is dropped, a column is kept. -/
def concatIgnoringIndex {α : Type} (frames : List (Frame α)) : Frame α where
  place := if frames.any fun frame => frame.place = .column then .column else .nowhere
  rows := frames.flatMap Frame.rows

variable {α : Type} [Timestamped α]

/-- The row passes the optional bounds of a range. -/
def selected (start finish : Option DateTime) (row : α) : Bool :=
  (start.all fun s => s.micros ≤ micros row) && finish.all fun f => micros row ≤ f.micros

/-- The part of `delete_dataset` that works on one frame: what is left of it, and the
number of rows removed. -/
def deleteFrame (start finish : Option DateTime) (frame : Frame α) : Frame α × ℕ :=
  if frame.place = .column ∧ (start.isSome ∨ finish.isSome) then
    ({ frame with rows := frame.rows.filter fun row => !selected start finish row },
      (frame.rows.filter fun row => selected start finish row).length)
  else (⟨.nowhere, []⟩, frame.rows.length)

theorem mem_deleteFrame {start finish : Option DateTime} {frame : Frame α} {row : α}
    (member : row ∈ (deleteFrame start finish frame).1.rows) : row ∈ frame.rows := by
  unfold deleteFrame at member
  split at member
  · exact List.mem_of_mem_filter member
  · exact absurd member List.not_mem_nil

/-! ## The files of a symbol -/

/-- The timeframes of bars. -/
inductive TimeFrame where
  | s1 | m1 | m5 | m15 | m30 | h1 | h4 | d1 | w1 | mn
  deriving DecidableEq

/-- All timeframes. -/
def TimeFrame.all : List TimeFrame := [.s1, .m1, .m5, .m15, .m30, .h1, .h4, .d1, .w1, .mn]

/-- The files of a symbol, by subfolder. Bars have one subfolder per timeframe; ticks
have none, which is one unnamed subfolder here. -/
abbrev Dataset (τ α : Type) [Timestamped α] (partition : DateTime → ℕ) :=
  τ → Directory α partition

variable {τ : Type} {partition : DateTime → ℕ}

/-- What `rglob` lists: the files that are there, each once, in some order. -/
structure Listing (dataset : Dataset τ α partition) where
  paths : List (τ × ℕ)
  nodup : paths.Nodup
  complete : ∀ path, path ∈ paths ↔ ((dataset path.1).files path.2).isSome

/-- The rows of a file. -/
def Dataset.rows (dataset : Dataset τ α partition) (path : τ × ℕ) : List α :=
  (dataset path.1).rows path.2

theorem Listing.rows_eq_nil {dataset : Dataset τ α partition} (listing : Listing dataset)
    {path : τ × ℕ} (missing : path ∉ listing.paths) : dataset.rows path = [] := by
  rw [listing.complete, Option.not_isSome_iff_eq_none] at missing
  rw [Dataset.rows, Directory.rows, missing]
  rfl

/-- A file is there after a run of writes exactly when it was there or got a record. -/
theorem isSome_foldl_writePartition (batches : List (List α)) (file : Option (List α)) :
    (batches.foldl (fun file records => (writePartition file records).1) file).isSome ↔
      file.isSome ∨ batches.flatten ≠ [] := by
  induction batches generalizing file with
  | nil => simp
  | cons records batches ih =>
      rw [List.foldl_cons, ih, List.flatten_cons]
      cases records with
      | nil => rfl
      | cons record records =>
          cases file with
          | none => simp [writePartition]
          | some rows => simp [writePartition]

/-- The files of a dataset that is written from nothing. -/
def Listing.ofWrites (folders : List τ) (nodup : folders.Nodup) (complete : ∀ t, t ∈ folders)
    (batches : τ → List (List α)) :
    Listing fun t => ((Directory.empty : Directory α partition).writeAll (batches t)).1 where
  paths := folders.flatMap fun t => (partitionsOf partition (batches t).flatten).map (Prod.mk t)
  nodup := by
    refine List.nodup_flatMap.mpr ⟨fun t _ => ?_, ?_⟩
    · exact (nodup_partitionsOf _).map (Prod.mk_right_injective t)
    · refine nodup.imp fun {t other} different => ?_
      rintro path first second
      obtain ⟨key, _, rfl⟩ := List.mem_map.mp first
      obtain ⟨key', _, same⟩ := List.mem_map.mp second
      exact different (congrArg Prod.fst same).symm
  complete := by
    rintro ⟨t, key⟩
    have written := isSome_foldl_writePartition ((batches t).map (recordsOf partition key)) none
    rw [List.foldl_map, flatten_map_recordsOf] at written
    rw [files_writeAll]
    refine Iff.trans ?_ written.symm
    simp only [List.mem_flatMap, List.mem_map, Prod.mk.injEq, Option.isSome_none,
      Bool.false_eq_true, false_or]
    constructor
    · rintro ⟨folder, _, other, listed, rfl, rfl⟩
      rw [partitionsOf, List.mem_eraseDups] at listed
      obtain ⟨record, member, own⟩ := List.mem_map.mp listed
      exact List.ne_nil_of_mem (List.mem_filter.mpr ⟨member, decide_eq_true own⟩)
    · intro written
      obtain ⟨record, member⟩ := List.exists_mem_of_ne_nil _ written
      obtain ⟨listed, own⟩ := List.mem_filter.mp member
      refine ⟨t, complete t, key, ?_, rfl, rfl⟩
      rw [partitionsOf, List.mem_eraseDups]
      exact List.mem_map.mpr ⟨record, listed, of_decide_eq_true own⟩

/-- The directory with another content of one file; a file without rows is unlinked. -/
def Directory.replace (directory : Directory α partition) (key : ℕ) (rows : List α)
    (kept : ∀ row ∈ rows, row ∈ directory.rows key) : Directory α partition where
  files := Function.update directory.files key (if rows.isEmpty then none else some rows)
  filed := by
    intro other stored found row member
    by_cases own : other = key
    · subst own
      rw [Function.update_self] at found
      split at found
      · cases found
      · obtain rfl := Option.some.inj found
        exact Directory.partition_of_mem_rows (kept row member)
    · rw [Function.update_of_ne own] at found
      exact directory.filed other stored found row member

/-! ## Deletion -/

section Delete

variable [DecidableEq τ]

/-- `delete_dataset`, for one file. -/
def deleteFile (start finish : Option DateTime) (state : Dataset τ α partition × ℕ)
    (path : τ × ℕ) : Dataset τ α partition × ℕ :=
  let deleted := deleteFrame start finish (readParquet (state.1.rows path))
  (Function.update state.1 path.1
      ((state.1 path.1).replace path.2 deleted.1.rows fun _ member => mem_deleteFrame member),
    state.2 + deleted.2)

/-- `delete_dataset`: the files after the call and the returned count. -/
def deleteDataset (dataset : Dataset τ α partition) (listing : Listing dataset)
    (start finish : Option DateTime) : Dataset τ α partition × ℕ :=
  listing.paths.foldl (deleteFile start finish) (dataset, 0)

theorem deleteFrame_readParquet (start finish : Option DateTime) (rows : List α) :
    deleteFrame start finish (readParquet rows) = (⟨.nowhere, []⟩, rows.length) :=
  rfl

/-- A deleted file has no rows, and the other files keep theirs. -/
theorem rows_deleteFile (start finish : Option DateTime) (state : Dataset τ α partition × ℕ)
    (path other : τ × ℕ) :
    (deleteFile start finish state path).1.rows other =
      if other = path then [] else state.1.rows other := by
  obtain ⟨folder, key⟩ := other
  by_cases own : folder = path.1
  · subst own
    by_cases same : key = path.2
    · subst same
      rw [if_pos rfl]
      simp [deleteFile, Dataset.rows, Directory.rows, Directory.replace, deleteFrame_readParquet]
    · have different : (path.1, key) ≠ path := fun equal => same (congrArg Prod.snd equal)
      rw [if_neg different]
      simp [deleteFile, Dataset.rows, Directory.rows, Directory.replace,
        Function.update_of_ne same]
  · have different : (folder, key) ≠ path := fun equal => own (congrArg Prod.fst equal)
    rw [if_neg different]
    simp [deleteFile, Dataset.rows, Function.update_of_ne own]

/-- **A deletion removes every row of every listed file, whatever the range.** -/
theorem foldl_deleteFile (start finish : Option DateTime) (paths : List (τ × ℕ))
    (nodup : paths.Nodup) (state : Dataset τ α partition × ℕ) :
    (∀ other, (paths.foldl (deleteFile start finish) state).1.rows other =
        if other ∈ paths then [] else state.1.rows other) ∧
      (paths.foldl (deleteFile start finish) state).2 =
        state.2 + (paths.map fun path => (state.1.rows path).length).sum := by
  induction paths generalizing state with
  | nil => exact ⟨fun other => rfl, rfl⟩
  | cons path paths ih =>
      obtain ⟨fresh, rest⟩ := List.nodup_cons.mp nodup
      obtain ⟨rows, count⟩ := ih rest (deleteFile start finish state path)
      rw [List.foldl_cons]
      refine ⟨fun other => ?_, ?_⟩
      · rw [rows, rows_deleteFile]
        by_cases own : other = path
        · subst own
          simp
        · simp [own]
      · have later : (paths.map fun p => ((deleteFile start finish state path).1.rows p).length) =
            paths.map fun p => (state.1.rows p).length := by
          refine List.map_congr_left ?_
          intro p member
          rw [rows_deleteFile, if_neg fun same : p = path => fresh (same ▸ member)]
        rw [count, later, List.map_cons, List.sum_cons, ← Nat.add_assoc]
        rfl

/-- What a range delete should do: remove the rows of the range, keep the others where
the reader finds them, and return the number removed. -/
structure DeletesExactly
    (read : Directory α partition → DateTime → DateTime → Option (List α))
    (dataset : Dataset τ α partition) (listing : Listing dataset) (start finish : DateTime) :
    Prop where
  rows : ∀ path, (deleteDataset dataset listing (some start) (some finish)).1.rows path =
    (dataset.rows path).filter fun row => ¬ Within start finish row
  readable : ∀ folder first last,
    read ((deleteDataset dataset listing (some start) (some finish)).1 folder) first last =
      (read (dataset folder) first last).map fun found =>
        found.filter fun row => ¬ Within start finish row
  count : (deleteDataset dataset listing (some start) (some finish)).2 =
    (listing.paths.map fun path =>
      ((dataset.rows path).filter fun row => Within start finish row).length).sum

/-- A reader that walks through partitions finds what is kept of every partition. -/
theorem flatMap_rowsWithin_filter {kept stored : Directory α partition} {p : α → Bool}
    (rows : ∀ key, kept.rows key = (stored.rows key).filter p) (first last : DateTime)
    (keys : List ℕ) :
    keys.flatMap (kept.rowsWithin first last) =
      (keys.flatMap (stored.rowsWithin first last)).filter p := by
  rw [List.filter_flatMap]
  congr 1
  funext key
  rw [Directory.rowsWithin, rows, Directory.rowsWithin, List.filter_filter, List.filter_filter]
  refine List.filter_congr ?_
  intro row _
  exact Bool.and_comm _ _

/-- A range delete is exact when everything that is stored is in the range, and else it
removes too much. -/
theorem deletesExactly_iff {read : Directory α partition → DateTime → DateTime → Option (List α)}
    (keys : DateTime → DateTime → Option (List ℕ))
    (walks : ∀ directory first last, read directory first last =
      (keys first last).map fun found => found.flatMap (directory.rowsWithin first last))
    (dataset : Dataset τ α partition) (listing : Listing dataset) (start finish : DateTime) :
    DeletesExactly read dataset listing start finish ↔
      ∀ path, ∀ row ∈ dataset.rows path, Within start finish row := by
  obtain ⟨rows, count⟩ :=
    foldl_deleteFile (some start) (some finish) listing.paths listing.nodup (dataset, 0)
  have deleted : ∀ path,
      (deleteDataset dataset listing (some start) (some finish)).1.rows path = [] := by
    intro path
    refine (rows path).trans ?_
    split
    · rfl
    · rename_i missing
      exact listing.rows_eq_nil missing
  constructor
  · intro exactly path row member
    have left := exactly.rows path
    rw [deleted] at left
    by_contra outside
    have kept : row ∈ (dataset.rows path).filter fun row => ¬ Within start finish row :=
      List.mem_filter.mpr ⟨member, decide_eq_true outside⟩
    rw [← left] at kept
    exact List.not_mem_nil kept
  · intro covered
    have none : ∀ path, (deleteDataset dataset listing (some start) (some finish)).1.rows path =
        (dataset.rows path).filter fun row => ¬ Within start finish row := by
      intro path
      rw [deleted]
      refine (List.filter_eq_nil_iff.mpr fun row member => ?_).symm
      simpa using covered path row member
    constructor
    · exact none
    · intro folder first last
      rw [walks, walks, Option.map_map]
      refine congrArg (Option.map · (keys first last)) ?_
      funext found
      have kept : ∀ key,
          ((deleteDataset dataset listing (some start) (some finish)).1 folder).rows key =
            ((dataset folder).rows key).filter fun row => ¬ Within start finish row :=
        fun key => none (folder, key)
      exact flatMap_rowsWithin_filter kept first last found
    · refine count.trans ?_
      rw [Nat.zero_add]
      refine congrArg List.sum (List.map_congr_left fun path _ => congrArg List.length ?_)
      refine (List.filter_eq_self.mpr fun row member => ?_).symm
      exact decide_eq_true (covered path row member)

end Delete

/-- Ticks of New Year's Day and of two days later. -/
def sampleTicks : Dataset Unit MarketTick DateTime.day := fun _ =>
  ((Directory.empty : DailyFiles MarketTick).writeAll [[sampleTick 0, sampleTick 2880]]).1

/-- The files of these ticks. -/
def sampleTickFiles : Listing sampleTicks :=
  Listing.ofWrites [()] (List.nodup_singleton ()) (fun _ => List.mem_singleton.mpr rfl)
    fun _ => [[sampleTick 0, sampleTick 2880]]

/-- `read_dataset`, without column filters. -/
def readDataset (dataset : Dataset τ α partition) (listing : Listing dataset)
    (start finish : Option DateTime) : Frame α :=
  if listing.paths.isEmpty then ⟨.nowhere, []⟩
  else
    let result := concatIgnoringIndex (listing.paths.map fun path => readParquet (dataset.rows path))
    if result.place = .column then
      { result with rows := result.rows.filter fun row => selected start finish row }
    else result

/-- **The generic reader returns every row, without its timestamp.** -/
theorem readDataset_eq (dataset : Dataset τ α partition) (listing : Listing dataset)
    (start finish : Option DateTime) :
    readDataset dataset listing start finish = ⟨.nowhere, listing.paths.flatMap dataset.rows⟩ := by
  have place : ∀ paths : List (τ × ℕ),
      concatIgnoringIndex (paths.map fun path => readParquet (dataset.rows path)) =
        ⟨.nowhere, paths.flatMap dataset.rows⟩ := by
    intro paths
    simp [concatIgnoringIndex, readParquet, List.flatMap_map]
  unfold readDataset
  split
  · rename_i none
    rw [List.isEmpty_iff.mp none]
    rfl
  · rw [place]
    rfl

/-- A record with columns beside its timestamp. -/
class Tabular (α : Type) where
  Columns : Type
  columns : α → Columns

/-- The columns of a bar. -/
structure BarColumns where
  opening : ℚ
  high : ℚ
  low : ℚ
  close : ℚ
  volume : ℚ
  quoteVolume : Option ℚ
  trades : Option ℕ
  vwap : Option ℚ
  source : Option String

instance : Tabular MarketBar where
  Columns := BarColumns
  columns bar :=
    ⟨bar.opening, bar.high, bar.low, bar.close, bar.volume, bar.quoteVolume, bar.trades, bar.vwap,
      bar.source⟩

/-- The columns of a tick. -/
structure TickColumns where
  price : ℚ
  size : ℚ
  side : Option String
  bid : Option ℚ
  ask : Option ℚ
  bidSize : Option ℚ
  askSize : Option ℚ

instance : Tabular MarketTick where
  Columns := TickColumns
  columns tick :=
    ⟨tick.price, tick.size, tick.side, tick.bid, tick.ask, tick.bidSize, tick.askSize⟩

section Generic

variable [Tabular α]

/-- What a reader sees of the rows of a frame: the columns, and the timestamps if the
frame still has them. -/
def Frame.visible (frame : Frame α) : List (Option DateTime × Tabular.Columns α) :=
  frame.rows.map fun row =>
    (if frame.place = .nowhere then none else some (timestamp row), Tabular.columns row)

/-- A record with its timestamp, as the typed readers return it. -/
def labelled (row : α) : Option DateTime × Tabular.Columns α :=
  (some (timestamp row), Tabular.columns row)

/-- The generic reader agrees with a list of stored records exactly when nothing is
stored. -/
theorem visible_perm_iff (dataset : Dataset τ α partition) (listing : Listing dataset)
    (start finish : Option DateTime) {typed : List α}
    (stored : ∀ row ∈ typed, ∃ path, row ∈ dataset.rows path) :
    (readDataset dataset listing start finish).visible.Perm (typed.map labelled) ↔
      ∀ path, dataset.rows path = [] := by
  rw [readDataset_eq]
  constructor
  · intro perm path
    refine List.eq_nil_iff_forall_not_mem.mpr ?_
    intro row member
    have listed : path ∈ listing.paths := by
      by_contra missing
      rw [listing.rows_eq_nil missing] at member
      exact List.not_mem_nil member
    have seen : (none, Tabular.columns row) ∈
        (Frame.mk TimestampPlace.nowhere (listing.paths.flatMap dataset.rows)).visible :=
      List.mem_map.mpr ⟨row, List.mem_flatMap.mpr ⟨path, listed, member⟩, rfl⟩
    obtain ⟨other, _, same⟩ := List.mem_map.mp (perm.mem_iff.mp seen)
    cases congrArg Prod.fst same
  · intro empty
    have none : typed = [] := by
      refine List.eq_nil_iff_forall_not_mem.mpr ?_
      intro row member
      obtain ⟨path, found⟩ := stored row member
      rw [empty] at found
      exact List.not_mem_nil found
    have silent : listing.paths.flatMap dataset.rows = [] :=
      List.flatMap_eq_nil_iff.mpr fun path _ => empty path
    rw [none, silent]
    exact List.Perm.refl _

end Generic

/-- The bars that `read_bars` returns for every timeframe of a symbol. -/
def ReadsBars (dataset : Dataset TimeFrame MarketBar DateTime.month) (start finish : DateTime)
    (bars : TimeFrame → List MarketBar) : Prop :=
  ∀ timeframe, (dataset timeframe).readBars start finish = some (bars timeframe)

/-- A dataset without files. -/
def noRows {τ α : Type} [Timestamped α] {partition : DateTime → ℕ} : Dataset τ α partition :=
  fun _ => Directory.empty

/-- Its files. -/
def noFiles {τ α : Type} [Timestamped α] {partition : DateTime → ℕ} :
    Listing (noRows : Dataset τ α partition) where
  paths := []
  nodup := List.nodup_nil
  complete _ := iff_of_false List.not_mem_nil Bool.false_ne_true

end TradeOS.Store
