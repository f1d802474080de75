import TradeOS.Data.Programs
import Mathlib.Data.List.MinMax

/-!
# Arrays with checked indices

An access outside an array is an error, and so is the minimum of no values. The rules say when an
access returns: `returns_readAt_iff` and `returns_writeAt_iff`.

A `fill` runs over the indices from a start to the end and writes each of them. It returns if every
value does. A `recurrence` writes a seed first, and then each value from the one before it: the seed
must have a place in the array (`place_lt_of_returns`), and that is enough
(`returns_recurrence`).
-/

set_option autoImplicit false

namespace TradeOS.CheckedArray

open Programs

/-- What an access to an array raises: an index outside, the smallest or largest of no values, or
values that do not fit their slots. -/
inductive ArrayError where
  | index (index size : ℕ)
  | empty
  | shape (values slots : ℕ)
  deriving DecidableEq, Repr

/-! ## Accesses -/

section Access

variable {α : Type} {xs : List α} {i : ℕ}

/-- `xs[i]`. -/
def readAt (xs : List α) (i : ℕ) : Except ArrayError α :=
  match xs[i]? with
  | some a => .ok a
  | none => .error (.index i xs.length)

/-- `xs[i] = value`. -/
def writeAt (xs : List α) (i : ℕ) (value : α) : Except ArrayError (List α) :=
  if i < xs.length then .ok (xs.set i value) else .error (.index i xs.length)

/-- `xs[start:stop]`, which is cut to the array. -/
def slice (xs : List α) (start stop : ℕ) : List α := (xs.take stop).drop start

/-- `xs[start:] = values`. -/
def writeFrom (xs : List α) (start : ℕ) (values : List α) : Except ArrayError (List α) :=
  if values.length = xs.length - start then .ok (xs.take start ++ values)
  else .error (.shape values.length (xs.length - start))

theorem returns_readAt_iff {post : α → Prop} :
    Returns (readAt xs i) post ↔ ∃ a, xs[i]? = some a ∧ post a := by
  unfold readAt
  cases xs[i]? with
  | none => simp
  | some a => simp

/-- A read inside the array returns one of its elements. -/
theorem returns_readAt {each : α → Prop} (inside : i < xs.length) (all : ∀ a ∈ xs, each a) :
    Returns (readAt xs i) each :=
  returns_readAt_iff.mpr ⟨xs[i], List.getElem?_eq_getElem inside, all _ (List.getElem_mem inside)⟩

theorem returns_readAt_total (inside : i < xs.length) :
    Returns (readAt xs i) fun _ => True :=
  returns_readAt inside fun _ _ => trivial

/-- A read inside the array goes on with the element at the index. -/
theorem returns_readAt_bind {β : Type} {next : α → Except ArrayError β} {post : β → Prop}
    (inside : i < xs.length) (rest : Returns (next xs[i]) post) :
    Returns (readAt xs i >>= next) post :=
  returns_bind_iff.mpr (returns_readAt_iff.mpr ⟨xs[i], List.getElem?_eq_getElem inside, rest⟩)

theorem returns_writeAt_iff {value : α} {post : List α → Prop} :
    Returns (writeAt xs i value) post ↔ i < xs.length ∧ post (xs.set i value) := by
  unfold writeAt
  split
  · rename_i inside
    simp [inside]
  · rename_i outside
    simp [outside]

theorem returns_writeAt {value : α} (inside : i < xs.length) :
    Returns (writeAt xs i value) fun ys => ys.length = xs.length :=
  returns_writeAt_iff.mpr ⟨inside, List.length_set⟩

theorem returns_writeFrom {start : ℕ} {values : List α} (inside : start ≤ xs.length)
    (fits : values.length = xs.length - start) :
    Returns (writeFrom xs start values) fun ys => ys.length = xs.length := by
  rw [writeFrom, if_pos fits, returns_ok_iff, List.length_append, List.length_take,
    min_eq_left inside, fits, Nat.add_sub_cancel' inside]

@[simp] theorem length_slice (xs : List α) (start stop : ℕ) :
    (slice xs start stop).length = min stop xs.length - start := by
  rw [slice, List.length_drop, List.length_take]

theorem slice_ne_nil {start stop : ℕ} (before : start < stop) (inside : start < xs.length) :
    slice xs start stop ≠ [] := by
  rw [← List.length_pos_iff, length_slice]
  omega

end Access

/-! ## Loops over the indices -/

section Loops

variable {α : Type} {xs : List α}

/-- `for i in range(start, len(xs)): xs[i] = value(i)`. -/
def fill (start : ℕ) (value : ℕ → List α → Except ArrayError α) (xs : List α) :
    Except ArrayError (List α) :=
  (List.range' start (xs.length - start)).foldlM (fun ys i => do
    let v ← value i ys
    writeAt ys i v) xs

/-- A loop over the rest of the array keeps its length. -/
theorem returns_fill {start : ℕ} {value : ℕ → List α → Except ArrayError α}
    (total : ∀ i ys, start ≤ i → i < xs.length → ys.length = xs.length →
      Returns (value i ys) fun _ => True) :
    Returns (fill start value xs) fun ys => ys.length = xs.length := by
  refine returns_foldlM rfl fun i member ys same => ?_
  obtain ⟨above, below⟩ := List.mem_range'_1.mp member
  have inside : i < xs.length := by omega
  refine (total i ys above inside same).bind fun v _ => ?_
  refine (returns_writeAt ?_).mono fun zs kept => kept.trans same
  exact same.symm ▸ inside

/-- A seed at a place of an array, and from there each value from the one before it. -/
def recurrence (xs : List α) (place : ℕ) (seed : α) (step : ℕ → α → Except ArrayError α) :
    Except ArrayError (List α) := do
  let seeded ← writeAt xs place seed
  fill (place + 1) (fun i ys => do
    let last ← readAt ys (i - 1)
    step i last) seeded

theorem place_lt_of_returns {place : ℕ} {seed : α} {step : ℕ → α → Except ArrayError α}
    {post : List α → Prop} (returns : Returns (recurrence xs place seed step) post) :
    place < xs.length := by
  rw [recurrence, returns_bind_iff, returns_writeAt_iff] at returns
  exact returns.1

theorem returns_recurrence {place : ℕ} {seed : α} {step : ℕ → α → Except ArrayError α}
    (inside : place < xs.length)
    (total : ∀ i last, place < i → i < xs.length → Returns (step i last) fun _ => True) :
    Returns (recurrence xs place seed step) fun ys => ys.length = xs.length := by
  refine (returns_writeAt inside).bind fun seeded same => ?_
  refine (returns_fill fun i ys after below kept => ?_).mono fun ys kept => kept.trans same
  rw [same] at below kept
  refine (returns_readAt_total ?_).bind fun last _ => total i last after below
  omega

end Loops

/-! ## The smallest and the largest value -/

section Extremes

variable {α : Type} [LinearOrder α] {xs : List α}

/-- The smallest value. -/
def smallest : List α → Except ArrayError α
  | [] => .error .empty
  | x :: xs => .ok (xs.foldl min x)

/-- The largest value. -/
def largest : List α → Except ArrayError α
  | [] => .error .empty
  | x :: xs => .ok (xs.foldl max x)

theorem returns_smallest (nonempty : xs ≠ []) : Returns (smallest xs) fun _ => True := by
  cases xs with
  | nil => exact absurd rfl nonempty
  | cons x xs => exact returns_ok_iff.mpr trivial

theorem returns_largest (nonempty : xs ≠ []) : Returns (largest xs) fun _ => True := by
  cases xs with
  | nil => exact absurd rfl nonempty
  | cons x xs => exact returns_ok_iff.mpr trivial

end Extremes

end TradeOS.CheckedArray
