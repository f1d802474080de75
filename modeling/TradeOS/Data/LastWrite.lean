import Mathlib.Data.List.Basic
import Mathlib.Data.List.Induction

/-!
# The last write of a log

Every entry of a log may write a place or leave it alone; `lastWrite` is the last value written.
A log can be split at any point, and the writes of the second part win (`lastWrite_append`). The
last entry with a property is the case of an entry that writes itself (`lastWhere`).
-/

set_option autoImplicit false

namespace TradeOS.LastWrite

variable {α β : Type}

/-- The last write of a log. -/
def lastWrite (write : α → Option β) (log : List α) : Option β := (log.filterMap write).getLast?

variable {write : α → Option β}

@[simp] theorem lastWrite_nil : lastWrite write [] = none := rfl

theorem lastWrite_append (earlier later : List α) :
    lastWrite write (earlier ++ later) = (lastWrite write later).or (lastWrite write earlier) := by
  rw [lastWrite, List.filterMap_append, List.getLast?_append]
  rfl

theorem lastWrite_singleton (entry : α) : lastWrite write [entry] = write entry := by
  cases written : write entry with
  | none => simp [lastWrite, written]
  | some value => simp [lastWrite, written]

theorem lastWrite_concat (log : List α) (entry : α) :
    lastWrite write (log ++ [entry]) = (write entry).or (lastWrite write log) := by
  rw [lastWrite_append, lastWrite_singleton]

/-- The last write is a write of some entry. -/
theorem exists_of_lastWrite {log : List α} {value : β} (last : lastWrite write log = some value) :
    ∃ entry ∈ log, write entry = some value :=
  List.mem_filterMap.mp (List.mem_of_getLast? last)

/-- There is no last write exactly when no entry writes. -/
theorem lastWrite_eq_none_iff {log : List α} :
    lastWrite write log = none ↔ ∀ entry ∈ log, write entry = none := by
  rw [lastWrite, List.getLast?_eq_none_iff, List.filterMap_eq_nil_iff]

/-! ## The last entry of a kind -/

/-- The last entry with a property. -/
def lastWhere (p : α → Prop) [DecidablePred p] (log : List α) : Option α :=
  lastWrite (fun entry => if p entry then some entry else none) log

variable {p : α → Prop} [DecidablePred p]

theorem lastWhere_concat (log : List α) (entry : α) :
    lastWhere p (log ++ [entry]) = if p entry then some entry else lastWhere p log := by
  rw [lastWhere, lastWrite_concat]
  by_cases holds : p entry
  · rw [if_pos holds, if_pos holds, Option.some_or]
  · rw [if_neg holds, if_neg holds, Option.none_or]
    rfl

theorem of_lastWhere {log : List α} {entry : α} (last : lastWhere p log = some entry) :
    entry ∈ log ∧ p entry := by
  obtain ⟨found, member, same⟩ := exists_of_lastWrite last
  split at same
  · cases same
    exact ⟨member, ‹_›⟩
  · cases same

theorem lastWhere_congr {q : α → Prop} [DecidablePred q] {log : List α}
    (same : ∀ entry ∈ log, p entry ↔ q entry) : lastWhere p log = lastWhere q log := by
  unfold lastWhere lastWrite
  rw [List.filterMap_congr fun entry member => if_congr (same entry member) rfl rfl]

theorem lastWhere_isSome_iff {log : List α} :
    (lastWhere p log).isSome ↔ ∃ entry ∈ log, p entry := by
  constructor
  · intro found
    obtain ⟨entry, last⟩ := Option.isSome_iff_exists.mp found
    exact ⟨entry, of_lastWhere last⟩
  · rintro ⟨entry, member, holds⟩
    rw [Option.isSome_iff_ne_none]
    intro none
    have silent := lastWrite_eq_none_iff.mp none entry member
    rw [if_pos holds] at silent
    cases silent

end TradeOS.LastWrite
