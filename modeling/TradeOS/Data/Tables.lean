import TradeOS.Data.CheckedArray
import Mathlib.Data.List.GetD

/-!
# Loops that fill a table

The table of a function is the list of its first values. A loop over the rest of an array fills
a table if each of its values, computed from the array as it is by then, is that of the
function: `fill_eq_table`. A recurrence is such a loop, whose function has the seed at its place
and each later value from the one before it (`recurrence_eq_table`).

The rules say what a loop returns, where those of the checked arrays say that it returns. The
tables of two functions that agree on the first places begin with the same values
(`take_table_of_agree`), so that what depends on the beginning of an input only can be read off
the function.
-/

set_option autoImplicit false

namespace TradeOS.CheckedArray

variable {α β γ : Type} {n : ℕ}

/-! ## Tables -/

/-- The values of a function at the first places. -/
def table (n : ℕ) (f : ℕ → α) : List α := (List.range n).map f

@[simp] theorem length_table (n : ℕ) (f : ℕ → α) : (table n f).length = n := by
  simp [table]

theorem getElem?_table {i : ℕ} (inside : i < n) (f : ℕ → α) : (table n f)[i]? = some (f i) := by
  simp [table, inside]

theorem mem_table {f : ℕ → α} {a : α} : a ∈ table n f ↔ ∃ i < n, f i = a := by
  simp [table]

/-- Only the first values count. -/
theorem table_congr {f g : ℕ → α} (agree : ∀ i < n, f i = g i) : table n f = table n g :=
  List.map_congr_left fun i member => agree i (List.mem_range.mp member)

theorem take_table (n k : ℕ) (f : ℕ → α) : (table n f).take k = table (min k n) f := by
  rw [table, ← List.map_take, List.take_range, table]

/-- The tables of functions that agree on the first places begin with the same values. -/
theorem take_table_of_agree {m : ℕ} {f g : ℕ → α} (longer : n ≤ m) (agree : ∀ i < n, f i = g i) :
    (table m f).take n = table n g := by
  rw [take_table, min_eq_left longer]
  exact table_congr agree

theorem drop_table (n k : ℕ) (f : ℕ → α) :
    (table n f).drop k = table (n - k) fun i => f (k + i) := by
  refine List.ext_getElem (by simp) fun i _ _ => ?_
  simp [table]

@[simp] theorem map_table (n : ℕ) (f : ℕ → α) (g : α → β) :
    (table n f).map g = table n fun i => g (f i) :=
  List.map_map

@[simp] theorem zipWith_table (op : α → β → γ) (n : ℕ) (f : ℕ → α) (g : ℕ → β) :
    List.zipWith op (table n f) (table n g) = table n fun i => op (f i) (g i) := by
  simp [table, List.zipWith_map, List.zipWith_self]

theorem table_append_const (a : α) (k m : ℕ) (b : α) :
    List.replicate k a ++ List.replicate m b = table (k + m) fun i => if i < k then a else b := by
  refine List.ext_getElem (by simp) fun i _ _ => ?_
  rw [List.getElem_append]
  simp only [List.length_replicate, table, List.getElem_map, List.getElem_range]
  split <;> simp

theorem replicate_eq_table (n : ℕ) (a : α) : List.replicate n a = table n fun _ => a := by
  refine List.ext_getElem (by simp) fun i _ _ => ?_
  simp [table]

/-- Every list is a table. -/
theorem eq_table (xs : List α) (default : α) : xs = table xs.length fun i => xs.getD i default := by
  refine List.ext_getElem (by simp) fun i inside _ => ?_
  simp [table, inside]

/-! ## Accesses -/

theorem readAt_table {i : ℕ} (inside : i < n) (f : ℕ → α) : readAt (table n f) i = .ok (f i) := by
  rw [readAt, getElem?_table inside]

theorem readAt_eq_getD {xs : List α} {i : ℕ} (inside : i < xs.length) (default : α) :
    readAt xs i = .ok (xs.getD i default) := by
  rw [readAt, List.getElem?_eq_getElem inside, List.getD_eq_getElem xs default inside]

theorem writeAt_table {i : ℕ} (inside : i < n) (f : ℕ → α) (value : α) :
    writeAt (table n f) i value = .ok (table n (Function.update f i value)) := by
  rw [writeAt, length_table, if_pos inside]
  refine congrArg Except.ok (List.ext_getElem (by simp) fun j _ _ => ?_)
  simp [table, List.getElem_set, Function.update_apply, eq_comm]

theorem writeFrom_table {start : ℕ} (inside : start ≤ n) (f g : ℕ → α) :
    writeFrom (table n f) start (table (n - start) g) =
      .ok (table n fun i => if i < start then f i else g (i - start)) := by
  rw [writeFrom, length_table, length_table, if_pos rfl]
  refine congrArg Except.ok (List.ext_getElem (by simp; omega) fun i _ _ => ?_)
  rw [List.getElem_append]
  simp only [table, List.getElem_map, List.getElem_range, List.getElem_take, List.length_take,
    List.length_map, List.length_range, min_eq_left inside]
  split <;> simp

/-! ## Loops -/

section Loops

variable {old : ℕ → α} {start : ℕ}

/-- Before the round at a place, the array has the values of the function up to there and the
old ones from there on. -/
def filledTo (place : ℕ) (result old : ℕ → α) (i : ℕ) : α := if i < place then result i else old i

theorem update_filledTo (place : ℕ) (result old : ℕ → α) :
    Function.update (filledTo place result old) place (result place) =
      filledTo (place + 1) result old := by
  funext i
  by_cases here : i = place
  · subst here
    simp [filledTo]
  · rw [Function.update_of_ne here]
    have same : i < place ↔ i < place + 1 := by omega
    simp only [filledTo, same]

/-- **A loop whose every value is that of a function fills the table of the function.** -/
theorem fill_eq_table {value : ℕ → List α → Except ArrayError α} (result : ℕ → α)
    (early : ∀ i < start, result i = old i)
    (computed : ∀ i, start ≤ i → i < n →
      value i (table n (filledTo i result old)) = .ok (result i)) :
    fill start value (table n old) = .ok (table n result) := by
  have rounds (count place : ℕ) (later : start ≤ place) (rest : place + count = n) :
      (List.range' place count).foldlM (fun ys i => do
        let v ← value i ys
        writeAt ys i v) (table n (filledTo place result old)) = .ok (table n result) := by
    induction count generalizing place with
    | zero =>
        refine congrArg Except.ok (table_congr fun i inside => ?_)
        rw [filledTo, if_pos (by omega)]
    | succ count ih =>
        have inside : place < n := by omega
        rw [List.range'_succ, List.foldlM_cons, computed place later inside]
        show (writeAt _ place (result place) >>= _) = _
        rw [writeAt_table inside, update_filledTo]
        exact ih (place + 1) (by omega) (by omega)
  have begins : table n old = table n (filledTo start result old) := by
    refine table_congr fun i _ => ?_
    by_cases before : i < start
    · rw [filledTo, if_pos before, early i before]
    · rw [filledTo, if_neg before]
  rw [fill, length_table, begins]
  by_cases inside : start ≤ n
  · exact rounds (n - start) start le_rfl (by omega)
  · rw [Nat.sub_eq_zero_of_le (by omega)]
    refine congrArg Except.ok (table_congr fun i within => ?_)
    rw [filledTo, if_pos (by omega)]

/-- A recurrence fills the table of a function with its seed and its steps. -/
theorem recurrence_eq_table {place : ℕ} {seed : α} {step : ℕ → α → Except ArrayError α}
    {result : ℕ → α} (inside : place < n) (early : ∀ i < place, result i = old i)
    (seeded : result place = seed)
    (stepped : ∀ i, place < i → i < n → step i (result (i - 1)) = .ok (result i)) :
    recurrence (table n old) place seed step = .ok (table n result) := by
  rw [recurrence, writeAt_table inside]
  refine fill_eq_table result ?_ ?_
  · intro i before
    by_cases here : i = place
    · rw [here, Function.update_self, seeded]
    · rw [Function.update_of_ne here, early i (by omega)]
  · intro i after within
    rw [readAt_table (by omega), filledTo, if_pos (by omega)]
    exact stepped i after within

end Loops

/-! ## The values of a recurrence -/

section Recurrences

variable {place : ℕ} {seed : β} {next : ℕ → β → β}

/-- The seed up to a place, and from there each value from the one before it. -/
def valueFrom (place : ℕ) (seed : β) (next : ℕ → β → β) : ℕ → β
  | 0 => seed
  | i + 1 => if i + 1 ≤ place then seed else next (i + 1) (valueFrom place seed next i)

theorem valueFrom_of_le {i : ℕ} (before : i ≤ place) : valueFrom place seed next i = seed := by
  cases i with
  | zero => rfl
  | succ i => exact if_pos before

theorem valueFrom_succ {i : ℕ} (after : place ≤ i) :
    valueFrom place seed next (i + 1) = next (i + 1) (valueFrom place seed next i) :=
  if_neg (by omega)

/-- What the seed has and the steps keep, the values have. -/
theorem valueFrom_induct {p : β → Prop} {i : ℕ} (begins : p seed)
    (kept : ∀ j, place < j → j ≤ i → ∀ b, p b → p (next j b)) :
    p (valueFrom place seed next i) := by
  induction i with
  | zero => exact begins
  | succ i ih =>
      by_cases before : i + 1 ≤ place
      · rw [valueFrom_of_le before]
        exact begins
      · rw [valueFrom_succ (by omega)]
        refine kept (i + 1) (by omega) le_rfl _ (ih fun j after upTo => ?_)
        exact kept j after (by omega)

/-- Recurrences with the same seed and the same steps up to a place agree up to there. -/
theorem valueFrom_congr {next' : ℕ → β → β} {i : ℕ}
    (same : ∀ j, place < j → j ≤ i → next j = next' j) :
    valueFrom place seed next i = valueFrom place seed next' i := by
  induction i with
  | zero => rfl
  | succ i ih =>
      by_cases before : i + 1 ≤ place
      · rw [valueFrom_of_le before, valueFrom_of_le before]
      · rw [valueFrom_succ (by omega), valueFrom_succ (by omega),
          ih fun j after upTo => same j after (by omega), same (i + 1) (by omega) le_rfl]

/-- **A recurrence on embedded values has the embedded values from its place on**, and before it
what was there. -/
theorem recurrence_eq_valueFrom {embed : β → α} {old : ℕ → α}
    {step : ℕ → α → Except ArrayError α} (next : ℕ → β → β) (inside : place < n)
    (stepped : ∀ i b, place < i → i < n → step i (embed b) = .ok (embed (next i b))) :
    recurrence (table n old) place (embed seed) step =
      .ok (table n fun i =>
        if i < place then old i else embed (valueFrom place seed next i)) := by
  refine recurrence_eq_table inside (fun i before => if_pos before) ?_ ?_
  · rw [if_neg (lt_irrefl place), valueFrom_of_le le_rfl]
  · intro i after within
    obtain ⟨k, rfl⟩ : ∃ k, i = k + 1 := ⟨i - 1, by omega⟩
    rw [if_neg (by omega), if_neg (by omega), Nat.add_sub_cancel, stepped (k + 1) _ after within,
      valueFrom_succ (by omega)]

end Recurrences

end TradeOS.CheckedArray
