import Mathlib.Data.List.Basic

/-!
# Columns computed group by group

A function of columns is applied to the rows of every group, and what it returns is put back at
the rows. If it keeps the length of a column, the rows of a group with their values are the group
beside the column that the function returns for it (`filter_zip_byGroup`): no group sees another.
-/

set_option autoImplicit false

namespace TradeOS.Columns

variable {κ α β : Type} [DecidableEq κ] (key : α → κ)

/-- The rows of a group. -/
def rowsOf (k : κ) (rows : List α) : List α := rows.filter fun row => key row = k

variable (f : List α → List β) (missing : β)

/-- The values at some rows of a table, with the rows before them. -/
def columnFrom (table : List α) : List α → List α → List β
  | _, [] => []
  | before, row :: rest =>
      ((f (rowsOf key (key row) table))[(rowsOf key (key row) before).length]?).getD missing ::
        columnFrom table (before ++ [row]) rest

/-- The column of a table. -/
def byGroup (table : List α) : List β := columnFrom key f missing table [] table

/-! ## One group -/

theorem rowsOf_append (k : κ) (rows rows' : List α) :
    rowsOf key k (rows ++ rows') = rowsOf key k rows ++ rowsOf key k rows' :=
  List.filter_append ..

theorem rowsOf_own {k : κ} {row : α} (own : key row = k) (rows : List α) :
    rowsOf key k (row :: rows) = row :: rowsOf key k rows :=
  List.filter_cons_of_pos (decide_eq_true own)

theorem rowsOf_other {k : κ} {row : α} (other : key row ≠ k) (rows : List α) :
    rowsOf key k (row :: rows) = rowsOf key k rows :=
  List.filter_cons_of_neg (by simpa using other)

variable {f}

/-- At the remaining rows, a group is beside the remaining values of its column. -/
theorem filter_zip_columnFrom (lengths : ∀ rows, (f rows).length = rows.length) (k : κ)
    {table before rest : List α} (split : table = before ++ rest) :
    ((rest.zip (columnFrom key f missing table before rest)).filter fun pair => key pair.1 = k) =
      (rowsOf key k rest).zip ((f (rowsOf key k table)).drop (rowsOf key k before).length) := by
  induction rest generalizing before with
  | nil => rfl
  | cons row rest ih =>
      have longer : table = (before ++ [row]) ++ rest := by rw [split]; simp
      have next := ih longer
      rw [columnFrom, List.zip_cons_cons]
      by_cases own : key row = k
      · have inside : (rowsOf key k before).length < (f (rowsOf key k table)).length := by
          rw [lengths, split, rowsOf_append, rowsOf_own key own]
          simp
        have counted : (rowsOf key k (before ++ [row])).length =
            (rowsOf key k before).length + 1 := by
          rw [rowsOf_append, rowsOf_own key own]
          simp [rowsOf]
        rw [List.filter_cons_of_pos (by simpa using own), next, counted, rowsOf_own key own,
          List.drop_eq_getElem_cons inside, List.zip_cons_cons, own,
          List.getElem?_eq_getElem inside, Option.getD_some]
      · have counted : rowsOf key k (before ++ [row]) = rowsOf key k before := by
          rw [rowsOf_append, rowsOf_other key own]
          exact List.append_nil _
        rw [List.filter_cons_of_neg (by simpa using own), next, counted, rowsOf_other key own]

/-- **The rows of a group with their values are the group beside the column of the group.** -/
theorem filter_zip_byGroup (lengths : ∀ rows, (f rows).length = rows.length) (k : κ)
    (table : List α) :
    ((table.zip (byGroup key f missing table)).filter fun pair => key pair.1 = k) =
      (rowsOf key k table).zip (f (rowsOf key k table)) :=
  filter_zip_columnFrom key missing lengths k rfl

end TradeOS.Columns
