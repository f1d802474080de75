import TradeOS.Data.Columns
import Mathlib.Data.List.Infix

/-!
# Columns computed from the rows so far

A series gives the value at a row from that row and the rows above it. It is a function of lists of
rows, the nearest row first: the history of the row.

The rows fall into groups. A series keeps the groups apart if the values at the rows of a group are
those that it has on this group alone. That is a statement about every history: the rows of other
groups in it do not matter (`separate_iff`). For a series that reads a window of rows in a table
that stacks its groups, only the windows that reach above the group matter
(`separate_windowed_iff`), and there are such windows unless there is one group or the table is
shorter than a window (`forall_not_early_iff`).
-/

set_option autoImplicit false

namespace TradeOS.Histories

open Columns

variable {α β ι κ : Type}

/-! ## Histories -/

/-- The history of each row, with the rows above the first. -/
def historiesFrom : List α → List α → List (List α)
  | _, [] => []
  | above, row :: rest => (row :: above) :: historiesFrom (row :: above) rest

/-- The history of each row of a table. -/
def histories (rows : List α) : List (List α) := historiesFrom [] rows

theorem mem_historiesFrom_iff {above rows history : List α} :
    history ∈ historiesFrom above rows ↔
      above.length < history.length ∧ history <:+ rows.reverse ++ above := by
  induction rows generalizing above with
  | nil =>
      refine iff_of_false List.not_mem_nil ?_
      rintro ⟨longer, suffix⟩
      exact absurd suffix.length_le (not_le.mpr longer)
  | cons row rest ih =>
      rw [historiesFrom, List.mem_cons, ih, List.reverse_cons, List.append_assoc, List.cons_append,
        List.nil_append]
      constructor
      · rintro (rfl | ⟨longer, suffix⟩)
        · exact ⟨Nat.lt_succ_self _, List.suffix_append _ _⟩
        · exact ⟨(Nat.lt_succ_self _).trans longer, suffix⟩
      · rintro ⟨longer, suffix⟩
        rcases (Nat.succ_le_of_lt longer).eq_or_lt with same | more
        · left
          have whole := List.suffix_append rest.reverse (row :: above)
          exact (List.suffix_of_suffix_length_le suffix whole same.ge).eq_of_length same.symm
        · exact .inr ⟨more, suffix⟩

/-- The histories are the ends of the reversed table. -/
theorem mem_histories_iff {rows history : List α} :
    history ∈ histories rows ↔ history ≠ [] ∧ history <:+ rows.reverse := by
  rw [histories, mem_historiesFrom_iff, List.append_nil, List.length_nil, List.length_pos_iff]

/-! ## Stacked groups -/

/-- A table stacks its groups: below a row, its group does not come back after another one. -/
def Stacked (key : α → κ) : List α → Prop
  | [] => True
  | row :: rest =>
      rest.Pairwise (fun x y => key y = key row → key x = key row) ∧ Stacked key rest

/-- All rows are of one group. -/
def OneGroup (key : α → κ) (rows : List α) : Prop := ∀ x ∈ rows, ∀ y ∈ rows, key x = key y

theorem oneGroup_of_length_lt_two {key : α → κ} {rows : List α} (short : rows.length < 2) :
    OneGroup key rows := by
  match rows with
  | [] => exact nofun
  | [row] =>
      intro x inside y inside'
      rw [List.mem_singleton.mp inside, List.mem_singleton.mp inside']

/-- Above a row the rows of its group are the nearest. -/
theorem pairwise_of_stacked {key : α → κ} {before after : List α} {row : α}
    (stacked : Stacked key (before ++ row :: after)) :
    before.Pairwise fun x y => key x = key row → key y = key row := by
  induction before with
  | nil => exact List.Pairwise.nil
  | cons x before ih =>
      obtain ⟨together, stacked⟩ := stacked
      refine List.pairwise_cons.mpr ⟨fun y member same => ?_, ih stacked⟩
      have between := (List.pairwise_append.mp together).2.2 y member row List.mem_cons_self
      exact (between same.symm).trans same

/-- A list in which the elements with a property are the last ones. -/
theorem eq_filter_append {p : α → Bool} {rows : List α}
    (last : rows.Pairwise fun x y => p x → p y) :
    rows = rows.filter (fun row => !p row) ++ rows.filter p := by
  induction rows with
  | nil => rfl
  | cons row rest ih =>
      obtain ⟨first, last⟩ := List.pairwise_cons.mp last
      cases member : p row with
      | false => simpa [member] using ih last
      | true =>
          have all : ∀ other ∈ rest, p other = true := fun other later => first other later member
          have none : rest.filter (fun other => !p other) = [] :=
            List.filter_eq_nil_iff.mpr fun other later => by simp [all other later]
          rw [List.filter_cons_of_neg (by simp [member]), List.filter_cons_of_pos member, none,
            List.filter_eq_self.mpr all]
          rfl

/-! ## Columns -/

section Groups

variable [DecidableEq κ] (label : α → ι) (group : ι → κ)

/-- The rows of the history that are of the group of its row. -/
def own : List α → List α
  | [] => []
  | row :: above => rowsOf (fun row => group (label row)) (group (label row)) (row :: above)

/-- The rows of the history that are of other groups. -/
def others : List α → List α
  | [] => []
  | row :: above => above.filter fun other => group (label other) ≠ group (label row)

/-- The labelled values of a series, with the rows above the first. -/
def columnFrom (series : List α → β) : List α → List α → List (ι × β)
  | _, [] => []
  | above, row :: rest =>
      (label row, series (row :: above)) :: columnFrom series (row :: above) rest

/-- The labelled values of a series. -/
def column (series : List α → β) (rows : List α) : List (ι × β) := columnFrom label series [] rows

variable {label group}

theorem labels_columnFrom (series : List α → β) (above rows : List α) :
    (columnFrom label series above rows).map Prod.fst = rows.map label := by
  induction rows generalizing above with
  | nil => rfl
  | cons row rest ih => rw [columnFrom, List.map_cons, ih, List.map_cons]

/-- Two series have one column exactly if they agree on every history. -/
theorem columnFrom_eq_iff (label : α → ι) {series other : List α → β} {above rows : List α} :
    columnFrom label series above rows = columnFrom label other above rows ↔
      ∀ history ∈ historiesFrom above rows, series history = other history := by
  induction rows generalizing above with
  | nil => simp [columnFrom, historiesFrom]
  | cons row rest ih => simp [columnFrom, historiesFrom, ih]

/-- The rows of a group in the column of the own rows are the column of the group. -/
theorem filter_columnFrom_own (series : List α → β) (k : κ) (above rows : List α) :
    ((columnFrom label (fun history => series (own label group history)) above rows).filter
        fun entry => group entry.1 = k) =
      columnFrom label series (rowsOf (fun row => group (label row)) k above)
        (rowsOf (fun row => group (label row)) k rows) := by
  induction rows generalizing above with
  | nil => rfl
  | cons row rest ih =>
      by_cases same : group (label row) = k
      · rw [columnFrom, List.filter_cons_of_pos (by simpa using same), ih, own, same,
          rowsOf_own (fun row => group (label row)) same,
          rowsOf_own (fun row => group (label row)) same, columnFrom]
      · rw [columnFrom, List.filter_cons_of_neg (by simpa using same), ih,
          rowsOf_other (fun row => group (label row)) same,
          rowsOf_other (fun row => group (label row)) same]

/-- Under the same labels a column is known from its groups. -/
theorem eq_of_filter_eq (group : ι → κ) {entries entries' : List (ι × β)}
    (labels : entries.map Prod.fst = entries'.map Prod.fst)
    (same : ∀ k, (entries.filter fun entry => group entry.1 = k) =
      entries'.filter fun entry => group entry.1 = k) : entries = entries' := by
  induction entries generalizing entries' with
  | nil =>
      cases entries' with
      | nil => rfl
      | cons entry' rest' => cases labels
  | cons entry rest ih =>
      cases entries' with
      | nil => cases labels
      | cons entry' rest' =>
          obtain ⟨x, value⟩ := entry
          obtain ⟨x', value'⟩ := entry'
          obtain ⟨rfl, labels'⟩ := List.cons.inj labels
          have heads := same (group x)
          rw [List.filter_cons_of_pos (by simp), List.filter_cons_of_pos (by simp)] at heads
          rw [(List.cons.inj heads).1, ih labels' fun k => ?_]
          by_cases here : group x = k
          · exact here ▸ (List.cons.inj heads).2
          · have rest := same k
            rwa [List.filter_cons_of_neg (by simpa using here),
              List.filter_cons_of_neg (by simpa using here)] at rest

/-! ## Missing values -/

section Missing

variable (missing : β) [DecidableEq β]

/-- The entries of a column with a value. -/
def dropMissing (entries : List (ι × β)) : List (ι × β) :=
  entries.filter fun entry => entry.2 ≠ missing

variable {missing}

theorem dropMissing_cons_of_eq {x : ι} {value : β} (same : value = missing)
    (entries : List (ι × β)) :
    dropMissing missing ((x, value) :: entries) = dropMissing missing entries :=
  List.filter_cons_of_neg (by simpa using same)

theorem dropMissing_cons_of_ne {x : ι} {value : β} (other : value ≠ missing)
    (entries : List (ι × β)) :
    dropMissing missing ((x, value) :: entries) = (x, value) :: dropMissing missing entries :=
  List.filter_cons_of_pos (by simpa using other)

/-- Under distinct labels a column is known from its entries with a value. -/
theorem eq_of_dropMissing_eq (missing : β) {entries entries' : List (ι × β)}
    (labels : entries.map Prod.fst = entries'.map Prod.fst) (nodup : (entries.map Prod.fst).Nodup)
    (same : dropMissing missing entries = dropMissing missing entries') : entries = entries' := by
  induction entries generalizing entries' with
  | nil =>
      cases entries' with
      | nil => rfl
      | cons entry' rest' => cases labels
  | cons entry rest ih =>
      cases entries' with
      | nil => cases labels
      | cons entry' rest' =>
          obtain ⟨x, value⟩ := entry
          obtain ⟨x', value'⟩ := entry'
          obtain ⟨rfl, labels'⟩ := List.cons.inj labels
          obtain ⟨fresh, nodup⟩ := List.nodup_cons.mp nodup
          have absent : ∀ other, (x, other) ∉ dropMissing missing rest := by
            intro other member
            have listed := List.mem_map_of_mem (f := Prod.fst) (List.mem_filter.mp member).1
            exact fresh listed
          have absent' : ∀ other, (x, other) ∉ dropMissing missing rest' := by
            intro other member
            have listed := List.mem_map_of_mem (f := Prod.fst) (List.mem_filter.mp member).1
            rw [← labels'] at listed
            exact fresh listed
          by_cases kept : value = missing
          · by_cases kept' : value' = missing
            · rw [dropMissing_cons_of_eq kept, dropMissing_cons_of_eq kept'] at same
              rw [ih labels' nodup same, kept, kept']
            · rw [dropMissing_cons_of_eq kept, dropMissing_cons_of_ne kept'] at same
              exact absurd (same ▸ List.mem_cons_self) (absent value')
          · by_cases kept' : value' = missing
            · rw [dropMissing_cons_of_ne kept, dropMissing_cons_of_eq kept'] at same
              exact absurd (same ▸ List.mem_cons_self) (absent' value)
            · rw [dropMissing_cons_of_ne kept, dropMissing_cons_of_ne kept'] at same
              obtain ⟨head, tail⟩ := List.cons.inj same
              rw [head, ih labels' nodup tail]

/-- **A series keeps the groups apart exactly if no history depends on rows of other groups.** -/
theorem separate_iff (label : α → ι) (group : ι → κ) (missing : β) {series : List α → β}
    {rows : List α} (nodup : (rows.map label).Nodup) :
    (∀ k, ((dropMissing missing (column label series rows)).filter fun entry =>
          group entry.1 = k) =
        dropMissing missing
          (column label series (rowsOf (fun row => group (label row)) k rows))) ↔
      ∀ history ∈ histories rows, series history = series (own label group history) := by
  have alone : ∀ k, column label series (rowsOf (fun row => group (label row)) k rows) =
      (column label (fun history => series (own label group history)) rows).filter
        fun entry => group entry.1 = k := fun k => (filter_columnFrom_own series k [] rows).symm
  have commute : ∀ (entries : List (ι × β)) (k : κ),
      (dropMissing missing entries).filter (fun entry => group entry.1 = k) =
        dropMissing missing (entries.filter fun entry => group entry.1 = k) :=
    fun entries k => List.filter_comm _ _ entries
  rw [histories, ← columnFrom_eq_iff label]
  constructor
  · intro apart
    have labels : (column label series rows).map Prod.fst =
        (column label (fun history => series (own label group history)) rows).map Prod.fst := by
      rw [column, column, labels_columnFrom, labels_columnFrom]
    refine eq_of_filter_eq group labels fun k => ?_
    have labels' := congrArg (List.filter fun x => group x = k) labels
    rw [List.filter_map, List.filter_map] at labels'
    have distinct : ((column label series rows).map Prod.fst).Nodup := by
      rwa [column, labels_columnFrom]
    refine eq_of_dropMissing_eq missing labels' ?_ ?_
    · exact distinct.sublist (List.filter_sublist.map _)
    · exact (commute _ k).symm.trans ((apart k).trans (congrArg (dropMissing missing) (alone k)))
  · intro same k
    rw [alone, commute, column, column, same]

end Missing

/-! ## The rows above a group -/

/-- **In a stacked table a history is its own rows, and the others above them.** -/
theorem own_append_others (label : α → ι) (group : ι → κ) {rows history : List α}
    (stacked : Stacked (fun row => group (label row)) rows) (member : history ∈ histories rows) :
    history = own label group history ++ others label group history := by
  obtain ⟨nonempty, suffix⟩ := mem_histories_iff.mp member
  cases history with
  | nil => rfl
  | cons row above =>
      obtain ⟨after, split⟩ := suffix
      have rows_eq : rows = above.reverse ++ row :: after.reverse := by
        rw [← List.reverse_reverse rows, ← split]
        simp
      rw [rows_eq] at stacked
      have last := eq_filter_append (p := fun other => group (label other) = group (label row))
        ((pairwise_of_stacked stacked).imp fun keeps => by simpa using keeps)
      have turned := congrArg List.reverse last
      rw [List.reverse_append, ← List.filter_reverse, ← List.filter_reverse, List.reverse_reverse]
        at turned
      rw [own, others, rowsOf_own (fun row => group (label row)) rfl, List.cons_append,
        rowsOf]
      simpa using turned

/-! ## Windows -/

variable {missing : β}

/-- A series that reads a window of rows, and is missing where the window is cut off. -/
structure ReadsWindow (missing : β) (window : ℕ) (series : List α → β) : Prop where
  short : ∀ history, history.length < window → series history = missing
  within : ∀ history above, window ≤ history.length → series (history ++ above) = series history

/-- The window of a history reaches above the rows of its group. -/
def Early (label : α → ι) (group : ι → κ) (window : ℕ) (history : List α) : Prop :=
  (own label group history).length < window ∧ window ≤ history.length

/-- **A windowed series keeps stacked groups apart exactly if it is missing wherever its window
reaches above the group.** -/
theorem separate_windowed_iff (label : α → ι) (group : ι → κ) {window : ℕ} {series : List α → β}
    {rows : List α}
    (stacked : Stacked (fun row => group (label row)) rows)
    (windowed : ReadsWindow missing window series) :
    (∀ history ∈ histories rows, series history = series (own label group history)) ↔
      ∀ history ∈ histories rows, Early label group window history → series history = missing := by
  refine forall₂_congr fun history member => ?_
  constructor
  · rintro same ⟨short, -⟩
    rw [same, windowed.short _ short]
  · intro silent
    by_cases short : (own label group history).length < window
    · rw [windowed.short _ short]
      by_cases long : window ≤ history.length
      · exact silent ⟨short, long⟩
      · exact windowed.short _ (not_le.mp long)
    · conv_lhs => rw [own_append_others label group stacked member]
      exact windowed.within _ _ (not_lt.mp short)

/-- Where a window is never missing, the groups are apart only without early windows. -/
theorem forall_early_iff {window : ℕ} {series : List α → β} {rows : List α}
    (present : ∀ history : List α, window ≤ history.length → series history ≠ missing) :
    (∀ history ∈ histories rows, Early label group window history → series history = missing) ↔
      ∀ history ∈ histories rows, ¬ Early label group window history := by
  refine forall₂_congr fun history _ => ⟨fun silent early => ?_, fun none early => ?_⟩
  · exact present history early.2 (silent early)
  · exact absurd early none

theorem own_eq_of_oneGroup (label : α → ι) (group : ι → κ) {rows history : List α}
    (one : OneGroup (fun row => group (label row)) rows) (member : history ∈ histories rows) :
    own label group history = history := by
  obtain ⟨-, suffix⟩ := mem_histories_iff.mp member
  cases history with
  | nil => rfl
  | cons row above =>
      have within : ∀ other ∈ row :: above, other ∈ rows := fun other later =>
        List.mem_reverse.mp (suffix.subset later)
      refine List.filter_eq_self.mpr fun other later => decide_eq_true ?_
      exact one other (within other later) row (within row List.mem_cons_self)

theorem mem_own_iff {row x : α} {above : List α} :
    x ∈ own label group (row :: above) ↔
      x ∈ row :: above ∧ group (label x) = group (label row) := by
  rw [own, rowsOf, List.mem_filter, decide_eq_true_eq]

theorem own_append (label : α → ι) (group : ι → κ) {xs ys : List α} {k : κ}
    (nonempty : xs ≠ [])
    (same : ∀ x ∈ xs, group (label x) = k) (other : ∀ y ∈ ys, group (label y) ≠ k) :
    own label group (xs ++ ys) = xs := by
  cases xs with
  | nil => exact absurd rfl nonempty
  | cons row rest =>
      rw [List.cons_append, own, same row List.mem_cons_self, rowsOf, ← List.cons_append,
        List.filter_append, List.filter_eq_self.mpr fun x member => decide_eq_true (same x member),
        List.filter_eq_nil_iff.mpr fun y member => by simpa using other y member, List.append_nil]

theorem group_of_mem_others {row y : α} {above : List α}
    (outside : y ∈ others label group (row :: above)) : group (label y) ≠ group (label row) := by
  simpa using (List.mem_filter.mp outside).2

/-- With several groups the last row has other rows above it. -/
theorem others_ne_nil {rows above : List α} {row : α}
    (stacked : Stacked (fun row => group (label row)) rows)
    (several : ¬ OneGroup (fun row => group (label row)) rows)
    (whole : rows.reverse = row :: above) : others label group (row :: above) ≠ [] := by
  intro nothing
  have member : row :: above ∈ histories rows :=
    mem_histories_iff.mpr ⟨nofun, whole ▸ List.suffix_refl _⟩
  have split := own_append_others label group stacked member
  rw [nothing, List.append_nil] at split
  have all : ∀ x ∈ rows, group (label x) = group (label row) := by
    intro x inside
    rw [← List.mem_reverse, whole, split] at inside
    exact (mem_own_iff.mp inside).2
  exact several fun x inside y inside' => (all x inside).trans (all y inside').symm

/-- Below other rows there is an early window, if there are rows enough for a window: the one of
the last row, or the one that begins a single row above the group. -/
theorem exists_early {window : ℕ} (wide : 2 ≤ window) {rows above : List α} {row : α}
    (stacked : Stacked (fun row => group (label row)) rows)
    (member : row :: above ∈ histories rows) (long : window ≤ (row :: above).length)
    (some : others label group (row :: above) ≠ []) :
    ∃ history ∈ histories rows, Early label group window history := by
  have split := own_append_others label group stacked member
  have total := congrArg List.length split
  rw [List.length_append] at total
  have first : 0 < (own label group (row :: above)).length :=
    List.length_pos_iff.mpr fun empty => by simp [own, rowsOf] at empty
  have positive := List.length_pos_iff.mpr some
  set surplus := (own label group (row :: above)).length - (window - 1)
  have kept : (own label group (row :: above)).drop surplus ≠ [] := by
    rw [Ne, List.drop_eq_nil_iff]
    omega
  have ownRows := own_append label group kept (k := group (label row))
    (fun x inside => (mem_own_iff.mp (List.mem_of_mem_drop inside)).2)
    fun y (outside : y ∈ others label group (row :: above)) => group_of_mem_others outside
  refine ⟨(own label group (row :: above)).drop surplus ++ others label group (row :: above),
    mem_histories_iff.mpr ⟨by simp [some], ?_⟩, ?_, ?_⟩
  · refine List.IsSuffix.trans ?_ (mem_histories_iff.mp member).2
    conv_rhs => rw [split]
    exact ⟨(own label group (row :: above)).take surplus, by
      rw [← List.append_assoc, List.take_append_drop]⟩
  · rw [ownRows, List.length_drop]
    omega
  · rw [List.length_append, List.length_drop]
    omega

/-- **No window is early exactly if there is one group, or the table is shorter than a window.** -/
theorem forall_not_early_iff (label : α → ι) (group : ι → κ) {window : ℕ} (wide : 2 ≤ window)
    {rows : List α}
    (stacked : Stacked (fun row => group (label row)) rows) :
    (∀ history ∈ histories rows, ¬ Early label group window history) ↔
      OneGroup (fun row => group (label row)) rows ∨ rows.length < window := by
  constructor
  · intro none
    by_contra both
    obtain ⟨several, long⟩ := not_or.mp both
    rw [not_lt, ← List.length_reverse] at long
    cases whole : rows.reverse with
    | nil =>
        rw [whole, List.length_nil] at long
        omega
    | cons row above =>
        have member : row :: above ∈ histories rows :=
          mem_histories_iff.mpr ⟨nofun, whole ▸ List.suffix_refl _⟩
        obtain ⟨history, inside, early⟩ := exists_early wide stacked member (whole ▸ long)
          (others_ne_nil stacked several whole)
        exact none history inside early
  · rintro (one | shorter) history member ⟨short, long⟩
    · rw [own_eq_of_oneGroup label group one member] at short
      omega
    · have length := (mem_histories_iff.mp member).2.length_le
      rw [List.length_reverse] at length
      omega

end Groups

end TradeOS.Histories
