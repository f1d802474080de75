import TradeOS.Numeric.Rounding

/-!
# Exact numbers with infinities and NaN

The values of a floating point column, read as exact numbers: a rational, an infinity,
or not a number. The operations follow the rules of IEEE arithmetic on the special
values, with one zero.

A column operation passes over NaN: a sum or a product is taken over the other
values, and a cumulative product or maximum has NaN where the column has it and goes
on behind it. On columns of rationals these are the operations of the rationals
(`prod_map_fin`, `cumprod_map_fin`, `cummax_map_fin`, `minimum_map_fin`).
-/

set_option autoImplicit false

namespace TradeOS.Numeric

/-- A rational, an infinity, or not a number. -/
inductive Extended where
  | nan
  | infinite (negative : Bool)
  | fin (q : ℚ)
  deriving DecidableEq

namespace Extended

def add : Extended → Extended → Extended
  | fin a, fin b => fin (a + b)
  | infinite s, infinite t => if s = t then infinite s else nan
  | infinite s, fin _ => infinite s
  | fin _, infinite t => infinite t
  | _, _ => nan

def neg : Extended → Extended
  | nan => nan
  | infinite s => infinite (!s)
  | fin q => fin (-q)

def mul : Extended → Extended → Extended
  | fin a, fin b => fin (a * b)
  | infinite s, infinite t => infinite (s != t)
  | infinite s, fin b => if b = 0 then nan else infinite (s != decide (b < 0))
  | fin a, infinite t => if a = 0 then nan else infinite (t != decide (a < 0))
  | _, _ => nan

def div : Extended → Extended → Extended
  | fin a, fin b =>
      if b = 0 then if a = 0 then nan else infinite (decide (a < 0)) else fin (a / b)
  | fin _, infinite _ => fin 0
  | infinite s, fin b => infinite (s != decide (b < 0))
  | _, _ => nan

instance : Add Extended := ⟨add⟩
instance : Neg Extended := ⟨neg⟩
instance : Sub Extended := ⟨fun x y => x + -y⟩
instance : Mul Extended := ⟨mul⟩
instance : Div Extended := ⟨div⟩

/-- The absolute value. -/
def abs : Extended → Extended
  | nan => nan
  | infinite _ => infinite false
  | fin q => fin |q|

/-- The order of the numbers; nothing is below or above NaN. -/
def lt : Extended → Extended → Bool
  | fin a, fin b => a < b
  | infinite s, infinite t => s && !t
  | infinite s, fin _ => s
  | fin _, infinite t => !t
  | _, _ => false

/-- The order with equality; not even NaN is at most NaN. -/
def le (x y : Extended) : Bool := lt x y || (x = y && x ≠ nan)

/-- The larger of two numbers, the first one on a tie or with NaN. -/
def larger (x y : Extended) : Extended := if lt x y then y else x

/-- The smaller of two numbers, the first one on a tie or with NaN. -/
def smaller (x y : Extended) : Extended := if lt y x then y else x

/-- Decimal rounding. -/
def round (digits : ℕ) : Extended → Extended
  | fin q => fin (roundTo digits q)
  | x => x

/-! ## Columns -/

/-- The value, or another one for NaN. -/
def fillNan (default x : Extended) : Extended := if x = nan then default else x

/-- The values of a column that are numbers. -/
def numbers (xs : List Extended) : List Extended := xs.filter fun x => x ≠ nan

/-- The sum of a column. -/
def sum (xs : List Extended) : Extended := (numbers xs).foldl (· + ·) (fin 0)

/-- The product of a column. -/
def prod (xs : List Extended) : Extended := (numbers xs).foldl (· * ·) (fin 1)

/-- The mean of a column. -/
def mean (xs : List Extended) : Extended := sum xs / fin (numbers xs).length

/-- The variance of a column, with the correction for a sample. -/
def variance (xs : List Extended) : Extended :=
  if (numbers xs).length ≤ 1 then nan
  else sum (xs.map fun x => (x - mean xs) * (x - mean xs)) / fin ((numbers xs).length - 1)

/-- The smallest value of a column, NaN if there is none. -/
def minimum (xs : List Extended) : Extended :=
  match numbers xs with
  | [] => nan
  | x :: rest => rest.foldl smaller x

/-- A cumulative operation from a running value on. -/
def cumulate (op : Extended → Extended → Extended) : Extended → List Extended → List Extended
  | _, [] => []
  | acc, x :: xs =>
      if x = nan then nan :: cumulate op acc xs else op acc x :: cumulate op (op acc x) xs

/-- The cumulative product. -/
def cumprod (xs : List Extended) : List Extended := cumulate (· * ·) (fin 1) xs

/-- The cumulative maximum. -/
def cummax (xs : List Extended) : List Extended := cumulate larger (infinite true) xs

/-! ## The rational numbers -/

@[simp] theorem fin_add (a b : ℚ) : fin a + fin b = fin (a + b) := rfl

@[simp] theorem fin_neg (a : ℚ) : -fin a = fin (-a) := rfl

@[simp] theorem fin_sub (a b : ℚ) : fin a - fin b = fin (a - b) :=
  congrArg fin (sub_eq_add_neg a b).symm

@[simp] theorem fin_mul (a b : ℚ) : fin a * fin b = fin (a * b) := rfl

theorem fin_div {a b : ℚ} (nonzero : b ≠ 0) : fin a / fin b = fin (a / b) := if_neg nonzero

@[simp] theorem nan_add (x : Extended) : nan + x = nan := by cases x <;> rfl

@[simp] theorem add_nan (x : Extended) : x + nan = nan := by cases x <;> rfl

@[simp] theorem neg_nan : -nan = nan := rfl

@[simp] theorem nan_sub (x : Extended) : nan - x = nan := nan_add (-x)

@[simp] theorem sub_nan (x : Extended) : x - nan = nan := add_nan x

@[simp] theorem mul_nan (x : Extended) : x * nan = nan := by cases x <;> rfl

@[simp] theorem nan_mul (x : Extended) : nan * x = nan := by cases x <;> rfl

@[simp] theorem nan_div (x : Extended) : nan / x = nan := by cases x <;> rfl

@[simp] theorem div_nan (x : Extended) : x / nan = nan := by cases x <;> rfl

@[simp] theorem fin_zero_div_zero : fin 0 / fin 0 = nan := rfl

@[simp] theorem lt_fin (a b : ℚ) : lt (fin a) (fin b) = decide (a < b) := rfl

theorem le_fin_iff (a b : ℚ) : le (fin a) (fin b) = true ↔ a ≤ b := by
  rw [le, lt_fin, Bool.or_eq_true, decide_eq_true_eq, Bool.and_eq_true, decide_eq_true_eq,
    decide_eq_true_eq, fin.injEq, le_iff_lt_or_eq]
  exact or_congr_right (and_iff_left nofun)

@[simp] theorem larger_fin (a b : ℚ) : larger (fin a) (fin b) = fin (max a b) := by
  rw [larger, lt_fin]
  by_cases below : a < b
  · rw [decide_eq_true below, if_pos rfl, max_eq_right below.le]
  · rw [decide_eq_false below, if_neg Bool.false_ne_true, max_eq_left (not_lt.mp below)]

@[simp] theorem smaller_fin (a b : ℚ) : smaller (fin a) (fin b) = fin (min a b) := by
  rw [smaller, lt_fin]
  by_cases below : b < a
  · rw [decide_eq_true below, if_pos rfl, min_eq_right below.le]
  · rw [decide_eq_false below, if_neg Bool.false_ne_true, min_eq_left (not_lt.mp below)]

@[simp] theorem fin_zero_add (x : Extended) : fin 0 + x = x := by
  cases x with
  | nan => rfl
  | infinite s => rfl
  | fin q => exact congrArg fin (zero_add q)

@[simp] theorem fin_one_mul (x : Extended) : fin 1 * x = x := by
  cases x with
  | nan => rfl
  | infinite s => cases s <;> rfl
  | fin q => exact congrArg fin (one_mul q)

/-- Zero times anything is zero, or NaN. -/
theorem fin_zero_mul (x : Extended) : fin 0 * x = fin 0 ∨ fin 0 * x = nan := by
  cases x with
  | nan => exact .inr rfl
  | infinite s => exact .inr rfl
  | fin q => exact .inl (congrArg fin (zero_mul q))

theorem mul_fin_zero (x : Extended) : x * fin 0 = fin 0 ∨ x * fin 0 = nan := by
  cases x with
  | nan => exact .inr rfl
  | infinite s => exact .inr rfl
  | fin q => exact .inl (congrArg fin (mul_zero q))

/-- The smallest value of a column is one of its values. -/
theorem minimum_mem (xs : List Extended) : minimum xs = nan ∨ minimum xs ∈ xs := by
  have folded : ∀ (ys : List Extended) (y : Extended), ys.foldl smaller y ∈ y :: ys := by
    intro ys
    induction ys with
    | nil => exact fun y => List.mem_cons_self
    | cons z zs ih =>
        intro y
        have member := ih (smaller y z)
        rw [List.foldl_cons]
        rcases List.mem_cons.mp member with same | later
        · rw [same, smaller]
          split
          · exact List.mem_cons_of_mem y List.mem_cons_self
          · exact List.mem_cons_self
        · exact List.mem_cons_of_mem y (List.mem_cons_of_mem z later)
  unfold minimum
  cases split : numbers xs with
  | nil => exact .inl rfl
  | cons y ys =>
      refine .inr (List.mem_of_mem_filter (p := fun x => decide (x ≠ nan)) ?_)
      have member := folded ys y
      rw [← split] at member
      exact member

/-! ## Sums -/

@[simp] theorem add_fin_zero (x : Extended) : x + fin 0 = x := by
  cases x with
  | nan => rfl
  | infinite s => rfl
  | fin q => exact congrArg fin (add_zero q)

theorem foldl_add_zeros {xs : List Extended} (zeros : ∀ x ∈ xs, x = fin 0) (start : Extended) :
    xs.foldl (· + ·) start = start := by
  induction xs generalizing start with
  | nil => rfl
  | cons x xs ih =>
      rw [List.foldl_cons, zeros x List.mem_cons_self, add_fin_zero]
      exact ih (fun y member => zeros y (List.mem_cons_of_mem x member)) start

theorem eq_zero_of_mem_numbers {xs : List Extended} (silent : ∀ x ∈ xs, x = fin 0 ∨ x = nan) :
    ∀ x ∈ numbers xs, x = fin 0 := by
  intro x member
  obtain ⟨listed, number⟩ := List.mem_filter.mp member
  exact (silent x listed).resolve_right (of_decide_eq_true number)

/-- A column with nothing but zeros and NaN adds up to zero. -/
theorem sum_eq_zero {xs : List Extended} (silent : ∀ x ∈ xs, x = fin 0 ∨ x = nan) :
    sum xs = fin 0 :=
  foldl_add_zeros (eq_zero_of_mem_numbers silent) (fin 0)

/-- A column with one number beside zeros and NaN adds up to this number. -/
theorem sum_append_cons {before after : List Extended} {x : Extended}
    (first : ∀ y ∈ before, y = fin 0 ∨ y = nan) (last : ∀ y ∈ after, y = fin 0 ∨ y = nan) :
    sum (before ++ x :: after) = if x = nan then fin 0 else x := by
  have before_zero := eq_zero_of_mem_numbers first
  have after_zero := eq_zero_of_mem_numbers last
  unfold sum
  have split : numbers (before ++ x :: after) = numbers before ++ numbers (x :: after) :=
    List.filter_append _ _
  rw [split, List.foldl_append, foldl_add_zeros before_zero]
  by_cases number : x = nan
  · have dropped : numbers (x :: after) = numbers after :=
      List.filter_cons_of_neg (by simpa using number)
    rw [dropped, foldl_add_zeros after_zero, if_pos number]
  · have kept : numbers (x :: after) = x :: numbers after :=
      List.filter_cons_of_pos (by simpa using number)
    rw [kept, List.foldl_cons, foldl_add_zeros after_zero, fin_zero_add, if_neg number]

/-! ## Columns of rationals -/

/-- The running values of an operation. -/
def running {β : Type} (op : β → β → β) : β → List β → List β
  | _, [] => []
  | acc, x :: xs => op acc x :: running op (op acc x) xs

@[simp] theorem length_running {β : Type} (op : β → β → β) (acc : β) (xs : List β) :
    (running op acc xs).length = xs.length := by
  induction xs generalizing acc with
  | nil => rfl
  | cons x xs ih => rw [running, List.length_cons, ih, List.length_cons]

/-- A running value is the one before it, operated on. -/
theorem running_succ {β : Type} {op : β → β → β} {acc a b x : β} {xs : List β} {k : ℕ}
    (before : (running op acc xs)[k]? = some a) (here : (running op acc xs)[k + 1]? = some b)
    (value : xs[k + 1]? = some x) : b = op a x := by
  induction xs generalizing acc k with
  | nil => cases value
  | cons y ys ih =>
      cases k with
      | zero =>
          obtain rfl : op acc y = a := Option.some.inj before
          cases ys with
          | nil => cases value
          | cons z zs =>
              obtain rfl : z = x := Option.some.inj value
              exact (Option.some.inj here).symm
      | succ k => exact ih before here value

theorem le_of_mem_running_max {acc b : ℚ} {xs : List ℚ} (member : b ∈ running max acc xs) :
    acc ≤ b := by
  induction xs generalizing acc with
  | nil => cases member
  | cons x xs ih =>
      rcases List.mem_cons.mp member with rfl | later
      · exact le_max_left acc x
      · exact (le_max_left acc x).trans (ih later)

/-- The last running product. -/
theorem getLast?_running_mul (acc x : ℚ) (xs : List ℚ) :
    (running (· * ·) acc (x :: xs)).getLast? = some (acc * (x :: xs).prod) := by
  induction xs generalizing acc x with
  | nil => simp [running]
  | cons y ys ih =>
      rw [running]
      have later := ih (acc * x) y
      rw [running] at later ⊢
      rw [List.getLast?_cons_cons, later, mul_assoc, ← List.prod_cons]

/-- The smallest element of a list. -/
theorem foldl_min_spec (x : ℚ) (xs : List ℚ) :
    xs.foldl min x ∈ x :: xs ∧ ∀ y ∈ x :: xs, xs.foldl min x ≤ y := by
  induction xs generalizing x with
  | nil => simp
  | cons z zs ih =>
      obtain ⟨member, least⟩ := ih (min x z)
      rw [List.foldl_cons]
      have below : zs.foldl min (min x z) ≤ min x z := least _ List.mem_cons_self
      refine ⟨?_, fun y listed => ?_⟩
      · rcases List.mem_cons.mp member with first | later
        · rw [first]
          rcases min_choice x z with left | right
          · rw [left]
            exact List.mem_cons_self
          · rw [right]
            exact List.mem_cons_of_mem x List.mem_cons_self
        · exact List.mem_cons_of_mem x (List.mem_cons_of_mem z later)
      · rcases List.mem_cons.mp listed with rfl | rest
        · exact below.trans (min_le_left _ _)
        · rcases List.mem_cons.mp rest with rfl | later
          · exact below.trans (min_le_right _ _)
          · exact least y (List.mem_cons_of_mem _ later)

theorem numbers_map_fin (xs : List ℚ) : numbers (xs.map fin) = xs.map fin := by
  refine List.filter_eq_self.mpr ?_
  intro x member
  obtain ⟨q, _, rfl⟩ := List.mem_map.mp member
  rfl

theorem prod_map_fin (xs : List ℚ) : prod (xs.map fin) = fin xs.prod := by
  have folded : ∀ acc : ℚ, (xs.map fin).foldl (· * ·) (fin acc) = fin (acc * xs.prod) := by
    induction xs with
    | nil =>
        intro acc
        exact congrArg fin (mul_one acc).symm
    | cons x xs ih =>
        intro acc
        rw [List.map_cons, List.foldl_cons, fin_mul, ih, List.prod_cons, mul_assoc]
  rw [prod, numbers_map_fin, folded, one_mul]

theorem sum_map_fin (xs : List ℚ) : sum (xs.map fin) = fin xs.sum := by
  have fold : ∀ (xs : List ℚ) (a : ℚ), (xs.map fin).foldl (· + ·) (fin a) = fin (a + xs.sum) := by
    intro xs
    induction xs with
    | nil => exact fun a => by simp
    | cons x xs ih =>
        intro a
        rw [List.map_cons, List.foldl_cons, fin_add, ih, List.sum_cons, add_assoc]
  rw [sum, numbers_map_fin, fold, zero_add]

theorem mean_map_fin {xs : List ℚ} (nonempty : xs ≠ []) :
    mean (xs.map fin) = fin (xs.sum / xs.length) := by
  have positive : (xs.length : ℚ) ≠ 0 :=
    Nat.cast_ne_zero.mpr (List.length_pos_iff.mpr nonempty).ne'
  rw [mean, sum_map_fin, numbers_map_fin, List.length_map, fin_div positive]

/-- The variance of rational numbers. -/
def sampleVariance (xs : List ℚ) : ℚ :=
  (xs.map fun x => (x - xs.sum / xs.length) * (x - xs.sum / xs.length)).sum / (xs.length - 1)

/-- The deviation of rational numbers, undefined for fewer than two of them. -/
def sampleStd (sqrt : ℚ → ℚ) (xs : List ℚ) : Option ℚ :=
  if xs.length ≤ 1 then none else some (sqrt (sampleVariance xs))

theorem variance_map_fin {xs : List ℚ} (several : 2 ≤ xs.length) :
    variance (xs.map fin) = fin (sampleVariance xs) := by
  have nonempty : xs ≠ [] := List.length_pos_iff.mp (by omega)
  have positive : (xs.length : ℚ) - 1 ≠ 0 := by
    have more : (2 : ℚ) ≤ xs.length := by exact_mod_cast several
    linarith
  have squares : (xs.map fin).map (fun x => (x - mean (xs.map fin)) * (x - mean (xs.map fin))) =
      (xs.map fun x => (x - xs.sum / xs.length) * (x - xs.sum / xs.length)).map fin := by
    rw [mean_map_fin nonempty, List.map_map, List.map_map]
    exact List.map_congr_left fun x _ => by simp
  rw [variance, numbers_map_fin, List.length_map, if_neg (by omega), squares, sum_map_fin,
    fin_div positive, sampleVariance]

theorem cumulate_map_fin {op : Extended → Extended → Extended} {rational : ℚ → ℚ → ℚ}
    (agrees : ∀ a b, op (fin a) (fin b) = fin (rational a b)) (acc : ℚ) (xs : List ℚ) :
    cumulate op (fin acc) (xs.map fin) = (running rational acc xs).map fin := by
  induction xs generalizing acc with
  | nil => rfl
  | cons x xs ih =>
      have number : fin x ≠ nan := fun impossible => by cases impossible
      rw [List.map_cons, cumulate, if_neg number, agrees, ih, running, List.map_cons]

theorem cumprod_map_fin (xs : List ℚ) :
    cumprod (xs.map fin) = (running (· * ·) 1 xs).map fin :=
  cumulate_map_fin fin_mul 1 xs

theorem cummax_map_fin (x : ℚ) (xs : List ℚ) :
    cummax ((x :: xs).map fin) = (x :: running max x xs).map fin := by
  have number : fin x ≠ nan := fun impossible => by cases impossible
  have first : larger (infinite true) (fin x) = fin x := rfl
  rw [cummax, List.map_cons, cumulate, if_neg number, first, cumulate_map_fin larger_fin]
  rfl

theorem zipWith_map_fin {op : Extended → Extended → Extended} (rational : ℚ → ℚ → ℚ)
    {xs ys : List ℚ} (agrees : ∀ a, ∀ b ∈ ys, op (fin a) (fin b) = fin (rational a b)) :
    List.zipWith op (xs.map fin) (ys.map fin) = (List.zipWith rational xs ys).map fin := by
  induction xs generalizing ys with
  | nil => rfl
  | cons x xs ih =>
      cases ys with
      | nil => rfl
      | cons y ys =>
          have rest := ih fun a b member => agrees a b (List.mem_cons_of_mem y member)
          rw [List.map_cons, List.map_cons, List.zipWith_cons_cons, agrees x y List.mem_cons_self,
            rest]
          rfl

theorem minimum_map_fin (x : ℚ) (xs : List ℚ) :
    minimum ((x :: xs).map fin) = fin (xs.foldl min x) := by
  have folded : ∀ acc : ℚ, (xs.map fin).foldl smaller (fin acc) = fin (xs.foldl min acc) := by
    induction xs with
    | nil =>
        intro acc
        rfl
    | cons y ys ih =>
        intro acc
        rw [List.map_cons, List.foldl_cons, smaller_fin, ih, List.foldl_cons]
  rw [minimum, numbers_map_fin, List.map_cons]
  exact folded x

end Extended

end TradeOS.Numeric
