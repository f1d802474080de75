import TradeOS.Data.KeepFirst
import TradeOS.Store.Batching
import TradeOS.Store.Reading

/-!
# What merging writes keep

A write to a file that is there merges: of the stored rows and the new records it
keeps the first of every timestamp. The first write to a file merges nothing.
`foldl_writePartition` describes any run of writes to one file by these two cases.

For ticks this loses records: two ticks may share a timestamp, and once a day is
written by a second call only one of them is left. `ticks_kept_iff` says exactly
when every written tick is read back.
-/

set_option autoImplicit false

namespace TradeOS.Store

open TradeOS.Calendar TradeOS.KeepFirst

variable {α : Type}

/-! ## Runs of writes to one file -/

/-- The number of times a file is written: once before, if it is there, and by every
batch with records for it. -/
def writeCount (file : Option (List α)) (batches : List (List α)) : ℕ :=
  file.toList.length + (batches.filter fun records => !records.isEmpty).length

theorem flatten_of_writeCount {rows : List α} {batches : List (List α)}
    (once : writeCount (some rows) batches ≤ 1) : batches.flatten = [] := by
  have none : batches.filter (fun records => !records.isEmpty) = [] := by
    refine List.length_eq_zero_iff.mp ?_
    simp only [writeCount, Option.toList_some, List.length_singleton] at once
    omega
  refine List.flatten_eq_nil_iff.mpr ?_
  intro batch member
  simpa using List.filter_eq_nil_iff.mp none batch member

variable [Timestamped α]

theorem settled_merge (rows records : List α) :
    Settled micros (sortIndex (dropDuplicates (rows ++ records))) (rows ++ records) :=
  (settled_keepFirst micros _).of_perm (List.perm_insertionSort _ _)

/-- **A file that is written once holds what it was given; a file that is written more
often holds the first row of every timestamp.** -/
theorem foldl_writePartition (batches : List (List α)) (file : Option (List α)) :
    let last := batches.foldl (fun file records => (writePartition file records).1) file
    (writeCount file batches ≤ 1 → last.getD [] = file.getD [] ++ batches.flatten) ∧
      (2 ≤ writeCount file batches →
        Settled micros (last.getD []) (file.getD [] ++ batches.flatten)) := by
  induction batches generalizing file with
  | nil =>
      refine ⟨fun _ => (List.append_nil _).symm, fun twice => ?_⟩
      cases file with
      | none => simp [writeCount] at twice
      | some rows => simp [writeCount] at twice
  | cons records batches ih =>
      rw [List.foldl_cons, List.flatten_cons]
      cases records with
      | nil => exact ih file
      | cons record records =>
          cases file with
          | none =>
              have count : writeCount none ((record :: records) :: batches) =
                  writeCount (some (record :: records)) batches := by
                simp [writeCount, Nat.add_comm]
              rw [count]
              exact ih (some (record :: records))
          | some rows =>
              -- A merging write. Whatever follows starts from settled rows.
              have merged := settled_merge rows (record :: records)
              obtain ⟨once, more⟩ :=
                ih (some (sortIndex (dropDuplicates (rows ++ record :: records))))
              refine ⟨fun single => ?_, fun _ => ?_⟩
              · simp [writeCount] at single
              · rw [Option.getD_some, ← List.append_assoc]
                rcases Nat.lt_or_ge 1 (writeCount
                    (some (sortIndex (dropDuplicates (rows ++ record :: records)))) batches) with
                  again | final
                · have settled := more again
                  refine ⟨settled.distinct, fun k => ?_⟩
                  rw [← merged.first_append]
                  exact settled.same k
                · have silent : batches.flatten = [] := flatten_of_writeCount final
                  have stored := once final
                  rw [silent, List.append_nil] at stored ⊢
                  exact stored ▸ merged

section Directory

variable {partition : DateTime → ℕ} (directory : Directory α partition) (batches : List (List α))
  (key : ℕ)

/-- How often the file of a partition is written. -/
def partitionWrites : ℕ :=
  writeCount (directory.files key) (batches.map (recordsOf partition key))

/-- The rows of a partition after a run of writes. -/
theorem rows_writeAll :
    (partitionWrites directory batches key ≤ 1 →
        (directory.writeAll batches).1.rows key =
          directory.rows key ++ recordsOf partition key batches.flatten) ∧
      (2 ≤ partitionWrites directory batches key →
        Settled micros ((directory.writeAll batches).1.rows key)
          (directory.rows key ++ recordsOf partition key batches.flatten)) := by
  have folded := foldl_writePartition (batches.map (recordsOf partition key)) (directory.files key)
  rw [List.foldl_map, flatten_map_recordsOf] at folded
  rw [Directory.rows, files_writeAll]
  exact folded

theorem mem_rows_writeAll {row : α} (member : row ∈ (directory.writeAll batches).1.rows key) :
    row ∈ directory.rows key ++ recordsOf partition key batches.flatten := by
  obtain ⟨once, more⟩ := rows_writeAll directory batches key
  rcases Nat.lt_or_ge 1 (partitionWrites directory batches key) with again | single
  · exact mem_of_first (((more again).mem_iff row).mp member)
  · rw [once single] at member
    exact member

end Directory

/-! ## Ticks -/

section Ticks

variable {start finish : DateTime}

/-- The rows of a day are the ticks written for it, as a multiset, exactly when the day
is written by one call at most or its ticks have distinct timestamps. -/
theorem rows_perm_iff {partition : DateTime → ℕ} (batches : List (List α)) (key : ℕ) :
    (((Directory.empty : Directory α partition).writeAll batches).1.rows key).Perm
        (recordsOf partition key batches.flatten) ↔
      partitionWrites (Directory.empty : Directory α partition) batches key ≤ 1 ∨
        ((recordsOf partition key batches.flatten).map micros).Nodup := by
  obtain ⟨once, more⟩ := rows_writeAll (Directory.empty : Directory α partition) batches key
  rcases Nat.lt_or_ge 1 (partitionWrites (Directory.empty : Directory α partition) batches key) with
    again | single
  · have settled : Settled micros (((Directory.empty : Directory α partition).writeAll batches).1.rows
        key) (recordsOf partition key batches.flatten) := more again
    rw [settled.perm_iff]
    exact (or_iff_right (not_le.mpr again)).symm
  · have stored : ((Directory.empty : Directory α partition).writeAll batches).1.rows key =
        recordsOf partition key batches.flatten := once single
    rw [stored]
    exact iff_of_true (List.Perm.refl _) (.inl single)

end Ticks

/-- Another tick at the start of 2024. -/
def secondTick : MarketTick := { sampleTick 0 with price := 101 }

end TradeOS.Store
