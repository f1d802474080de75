import TradeOS.Data.Calendar
import Mathlib.Data.List.Sort

/-!
# Logs kept in one file a day

A record is appended to the file of the day on which it is written. The log is the
list of all records in the order of the appends, each with the reading of the clock
that named its file. A reader takes the files in the order of their names, from the
oldest or from the newest, and each file from its start.

Both are stable sorts by day, and a stable sort commutes with a selection
(`filter_insertionSort`). A clock that does not go back leaves the log as it is
(`oldestFirst_eq_of_sorted`).

The dates of the files are naive. A reader that compares them with an aware time raises
as soon as there is a file (`readSince`).
-/

set_option autoImplicit false

namespace TradeOS.DayLog

open Calendar

/-! ## Selection from a sorted list -/

section StableSort

variable {α : Type} (r : α → α → Prop) [DecidableRel r]

/-- Selecting from a sorted list with one element more. -/
theorem filter_orderedInsert [IsTrans α r] (p : α → Bool) (x : α) {xs : List α}
    (sorted : xs.Pairwise r) :
    (xs.orderedInsert r x).filter p =
      if p x then (xs.filter p).orderedInsert r x else xs.filter p := by
  induction xs with
  | nil => simp [List.filter_cons]
  | cons y ys ih =>
      obtain ⟨least, rest⟩ := List.pairwise_cons.mp sorted
      by_cases before : r x y
      · rw [List.orderedInsert_cons_of_le r ys before, List.filter_cons]
        -- An element before the head is before every selected element.
        have first : ∀ z ∈ (y :: ys).filter p, r x z := by
          intro z kept
          rcases List.mem_cons.mp (List.mem_filter.mp kept).1 with rfl | later
          · exact before
          · exact IsTrans.trans _ _ _ before (least z later)
        split
        · cases kept : (y :: ys).filter p with
          | nil => rfl
          | cons z zs =>
              have head : r x z := first z (by rw [kept]; exact List.mem_cons_self)
              rw [List.orderedInsert_cons_of_le r zs head]
        · rfl
      · rw [List.orderedInsert_of_not_le r ys before, List.filter_cons, ih rest,
          List.filter_cons]
        by_cases chosen : p y = true
        · rw [if_pos chosen, if_pos chosen]
          split
          · rw [List.orderedInsert_of_not_le r _ before]
          · rfl
        · rw [if_neg chosen, if_neg chosen]

/-- **A stable sort commutes with a selection.** -/
theorem filter_insertionSort [IsTrans α r] [Std.Total r] (p : α → Bool) (xs : List α) :
    (xs.insertionSort r).filter p = (xs.filter p).insertionSort r := by
  induction xs with
  | nil => rfl
  | cons x xs ih =>
      rw [List.insertionSort_cons, filter_orderedInsert r p x (List.pairwise_insertionSort r xs),
        ih, List.filter_cons]
      split
      · rw [List.insertionSort_cons]
      · rfl

/-- What is inserted comes before elements that are all at least as large. -/
theorem orderedInsert_append_right {x : α} (xs : List α) {ys : List α} (last : ∀ y ∈ ys, r x y) :
    (xs ++ ys).orderedInsert r x = xs.orderedInsert r x ++ ys := by
  induction xs with
  | nil =>
      cases ys with
      | nil => rfl
      | cons y ys => exact List.orderedInsert_cons_of_le r ys (last y List.mem_cons_self)
  | cons z xs ih =>
      rw [List.cons_append]
      by_cases before : r x z
      · rw [List.orderedInsert_cons_of_le r _ before, List.orderedInsert_cons_of_le r _ before]
        rfl
      · rw [List.orderedInsert_of_not_le r _ before, List.orderedInsert_of_not_le r _ before, ih]
        rfl

/-- What is inserted comes after elements that it is not below. -/
theorem orderedInsert_append_left {x : α} {xs : List α} (first : ∀ z ∈ xs, ¬ r x z)
    (ys : List α) : (xs ++ ys).orderedInsert r x = xs ++ ys.orderedInsert r x := by
  induction xs with
  | nil => rfl
  | cons z xs ih =>
      have rest := ih fun other member => first other (List.mem_cons_of_mem z member)
      rw [List.cons_append, List.orderedInsert_of_not_le r _ (first z List.mem_cons_self), rest]
      rfl

end StableSort

/-! ## Logs -/

/-- One line of a log: the reading of the clock that named its file, and the record. -/
structure Entry (ρ : Type) where
  time : DateTime
  record : ρ

variable {ρ : Type}

/-- The day of the file that an entry is in. -/
def Entry.day (entry : Entry ρ) : ℕ := entry.time.day

/-- The entries of the files in the order of their days. -/
def oldestFirst (log : List (Entry ρ)) : List (Entry ρ) :=
  log.insertionSort fun entry other => entry.day ≤ other.day

/-- The entries of the files in the reverse order of their days. -/
def newestFirst (log : List (Entry ρ)) : List (Entry ρ) :=
  log.insertionSort fun entry other => other.day ≤ entry.day

/-- A read that compares the dates of the files, which are naive, with a time, if one is
given. With an aware time the first comparison raises, if there is a file. -/
def readSince {α : Type} (read : Option DateTime → α) (filed : Bool) :
    Option Moment → Except String α
  | none => .ok (read none)
  | some (.naive time) => .ok (read (some time))
  | some (.aware time) =>
      if filed then .error "can't compare offset-naive and offset-aware datetimes"
      else .ok (read (some time))

/-- The clock did not go back between the appends. -/
def Sorted (log : List (Entry ρ)) : Prop :=
  log.Pairwise fun entry other => entry.time.micros ≤ other.time.micros

theorem mem_oldestFirst {log : List (Entry ρ)} {entry : Entry ρ} :
    entry ∈ oldestFirst log ↔ entry ∈ log :=
  List.mem_insertionSort _

/-- An entry with its record changed. -/
def Entry.map {ρ' : Type} (f : ρ → ρ') (entry : Entry ρ) : Entry ρ' := ⟨entry.time, f entry.record⟩

/-- The order of the files does not depend on the records. -/
theorem map_oldestFirst {ρ' : Type} (f : ρ → ρ') (log : List (Entry ρ)) :
    (oldestFirst log).map (Entry.map f) = oldestFirst (log.map (Entry.map f)) :=
  List.map_insertionSort _ _ _ log fun _ _ _ _ => Iff.rfl

theorem oldestFirst_eq_of_sorted {log : List (Entry ρ)} (sorted : Sorted log) :
    oldestFirst log = log := by
  apply List.Pairwise.insertionSort_eq
  exact sorted.imp DateTime.day_mono

/-- **What is appended on a day is read after the files up to that day, and before the files of
later days.** -/
theorem oldestFirst_append {day : ℕ} {written : List (Entry ρ)}
    (today : ∀ entry ∈ written, entry.day = day) (log : List (Entry ρ)) :
    oldestFirst (log ++ written) =
      oldestFirst (log.filter fun entry => entry.day ≤ day) ++
        (written ++ oldestFirst (log.filter fun entry => day < entry.day)) := by
  induction log with
  | nil =>
      have sorted : written.Pairwise fun entry other => entry.day ≤ other.day :=
        List.pairwise_of_forall_mem_list fun entry member other member' =>
          (today entry member).trans (today other member').symm |>.le
      have same : oldestFirst written = written := List.Pairwise.insertionSort_eq sorted
      simpa [oldestFirst] using same
  | cons entry log ih =>
      have step : oldestFirst (entry :: log ++ written) =
          (oldestFirst (log ++ written)).orderedInsert (fun a b => a.day ≤ b.day) entry := rfl
      rw [step, ih]
      by_cases early : entry.day ≤ day
      · have last : ∀ other ∈ written ++ oldestFirst (log.filter fun entry => day < entry.day),
            entry.day ≤ other.day := by
          intro other member
          rcases List.mem_append.mp member with now | later
          · exact early.trans (today other now).ge
          · have after := (List.mem_filter.mp (mem_oldestFirst.mp later)).2
            exact early.trans (of_decide_eq_true after).le
        rw [orderedInsert_append_right _ _ last, List.filter_cons_of_pos (by simpa using early),
          List.filter_cons_of_neg (by simpa using early)]
        rfl
      · have first : ∀ other ∈ oldestFirst (log.filter fun entry => entry.day ≤ day) ++ written,
            ¬ entry.day ≤ other.day := by
          intro other member
          rcases List.mem_append.mp member with before | now
          · have upTo := (List.mem_filter.mp (mem_oldestFirst.mp before)).2
            exact fun below => early (below.trans (of_decide_eq_true upTo))
          · exact fun below => early (below.trans (today other now).le)
        rw [← List.append_assoc, orderedInsert_append_left _ first, List.append_assoc,
          List.filter_cons_of_neg (by simpa using early),
          List.filter_cons_of_pos (by simpa using early)]
        rfl

/-- In a sorted log a selection by a lower bound on the time is a suffix. -/
theorem filter_suffix_of_sorted {log : List (Entry ρ)} (sorted : Sorted log)
    {late : Entry ρ → Bool}
    (upward : ∀ entry other, entry.time.micros ≤ other.time.micros → late entry → late other) :
    log.filter late <:+ log := by
  induction log with
  | nil => exact List.suffix_refl []
  | cons entry rest ih =>
      obtain ⟨first, ordered⟩ := List.pairwise_cons.mp sorted
      by_cases kept : late entry = true
      · have all : (entry :: rest).filter late = entry :: rest := by
          rw [List.filter_eq_self]
          intro other member
          rcases List.mem_cons.mp member with rfl | later
          · exact kept
          · exact upward entry other (first other later) kept
        exact ⟨[], all⟩
      · rw [List.filter_cons_of_neg kept]
        exact (ih ordered).trans (List.suffix_cons entry rest)

end TradeOS.DayLog
