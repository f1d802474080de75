import TradeOS.Data.Programs
import Mathlib.Data.List.Forall2
import Mathlib.Data.Rat.Floor

/-!
# Checked numbers and failing computations

A record field declared with bounds is checked when the record is built. `check`
is that check: it returns the number together with the proof of its bounds, or
the error that names the field (`returns_check_iff`). A computation that can fail is a value of
`Except RunError`; `bind_eq_ok_iff` takes a successful one apart, and `exists_mapM_iff` a table
of them.
-/

set_option autoImplicit false

namespace TradeOS

open Programs

/-- A number declared with `ge=0, le=1`. -/
abbrev UnitRational := {q : ℚ // 0 ≤ q ∧ q ≤ 1}

/-- A number declared with `gt=0, le=1`. -/
abbrev PositiveUnit := {q : ℚ // 0 < q ∧ q ≤ 1}

/-- A number declared with `ge=0`. -/
abbrev NonnegRational := {q : ℚ // 0 ≤ q}

/-- A number declared with `gt=0`. -/
abbrev PositiveRational := {q : ℚ // 0 < q}

def UnitRational.zero : UnitRational := ⟨0, le_refl 0, zero_le_one⟩

/-- The number of the unit interval that is nearest to `q`. -/
def UnitRational.clamp (q : ℚ) : UnitRational :=
  ⟨max 0 (min q 1), le_max_left 0 _, max_le zero_le_one (min_le_right q 1)⟩

theorem UnitRational.clamp_of_mem {q : ℚ} (nonneg : 0 ≤ q) (le_one : q ≤ 1) :
    (clamp q).val = q := by
  change max 0 (min q 1) = q
  rw [min_eq_left le_one, max_eq_right nonneg]

def NonnegRational.zero : NonnegRational := ⟨0, le_refl 0⟩

/-- What a call can raise: a failed field check, with the path of the first
field that fails, or a division by zero. -/
inductive RunError where
  | validation (path : String)
  | zeroDivision
  deriving DecidableEq, Repr

/-- The check of one field. -/
def check {p : ℚ → Prop} [DecidablePred p] (path : String) (q : ℚ) : Except RunError {q // p q} :=
  if holds : p q then .ok ⟨q, holds⟩ else .error (.validation path)

theorem check_eq_ok_iff {p : ℚ → Prop} [DecidablePred p] {path : String} {q : ℚ}
    {checked : {q // p q}} : check path q = .ok checked ↔ checked.val = q := by
  unfold check
  split
  · simp [Subtype.ext_iff, eq_comm]
  · rename_i fails
    refine iff_of_false (by simp) ?_
    rintro rfl
    exact fails checked.property

/-- A number within its bounds passes its check. -/
theorem check_of {p : ℚ → Prop} [DecidablePred p] {path : String} {q : ℚ} (holds : p q) :
    check path q = .ok ⟨q, holds⟩ :=
  dif_pos holds

/-- A check returns the number exactly if the number is within the bounds. -/
theorem returns_check_iff {p : ℚ → Prop} [DecidablePred p] {path : String} {q : ℚ}
    {post : {q // p q} → Prop} : Returns (check path q) post ↔ ∃ holds : p q, post ⟨q, holds⟩ := by
  unfold check
  split
  · rename_i holds
    rw [returns_ok_iff]
    exact ⟨fun after => ⟨holds, after⟩, fun ⟨_, after⟩ => after⟩
  · rename_i fails
    exact iff_of_false not_returns_error fun ⟨holds, _⟩ => fails holds

/-- The check of an optional field: an absent value passes. -/
def checkOption {p : ℚ → Prop} [DecidablePred p] (path : String) :
    Option ℚ → Except RunError (Option {q // p q})
  | none => .ok none
  | some q => do
      let checked ← check path q
      return some checked

theorem returns_checkOption_iff {p : ℚ → Prop} [DecidablePred p] {path : String}
    {value : Option ℚ} :
    (Returns (checkOption (p := p) path value) fun _ => True) ↔ ∀ q ∈ value, p q := by
  cases value with
  | none => simp [checkOption]
  | some q =>
      show Returns (check path q >>= fun checked => pure (some checked)) _ ↔ _
      rw [returns_bind_iff, returns_check_iff]
      simp

/-- A successful sequence of two computations. -/
theorem bind_eq_ok_iff {ε α β : Type} {x : Except ε α} {f : α → Except ε β} {b : β} :
    x >>= f = .ok b ↔ ∃ a, x = .ok a ∧ f a = .ok b := by
  cases x with
  | error e =>
      refine iff_of_false (by simp [bind, Except.bind]) ?_
      rintro ⟨a, absurdity, _⟩
      cases absurdity
  | ok a => simp [bind, Except.bind]

/-- The check of an optional field keeps its value. -/
theorem checkOption_eq_ok {p : ℚ → Prop} [DecidablePred p] {path : String} {value : Option ℚ}
    {checked : Option {q // p q}} (passed : checkOption path value = .ok checked) :
    checked.map Subtype.val = value := by
  cases value with
  | none =>
      cases passed
      rfl
  | some q =>
      obtain ⟨inner, held, rest⟩ := bind_eq_ok_iff.mp passed
      cases rest
      exact congrArg some (check_eq_ok_iff.mp held)

/-! ## Tables of computations -/

section Tables

variable {ε α β : Type}

/-- A table of computations has, for every entry of the list, what was computed there. -/
theorem forall₂_of_mapM {f : α → Except ε β} {xs : List α} {ys : List β}
    (made : xs.mapM f = .ok ys) : List.Forall₂ (fun x y => f x = .ok y) xs ys := by
  induction xs generalizing ys with
  | nil =>
      rw [List.mapM_nil] at made
      cases made
      exact .nil
  | cons x xs ih =>
      rw [List.mapM_cons] at made
      obtain ⟨y, first, rest⟩ := bind_eq_ok_iff.mp made
      obtain ⟨later, others, last⟩ := bind_eq_ok_iff.mp rest
      cases last
      exact .cons first (ih others)

theorem mapM_congr {f g : α → Except ε β} {xs : List α} (same : ∀ x ∈ xs, f x = g x) :
    xs.mapM f = xs.mapM g := by
  induction xs with
  | nil => rw [List.mapM_nil, List.mapM_nil]
  | cons x xs ih =>
      have rest := ih fun other member => same other (List.mem_cons_of_mem x member)
      rw [List.mapM_cons, List.mapM_cons, same x List.mem_cons_self, rest]

theorem mapM_eq_map {f : α → Except ε β} {g : α → β} {xs : List α}
    (computed : ∀ x ∈ xs, f x = .ok (g x)) : xs.mapM f = .ok (xs.map g) := by
  induction xs with
  | nil => exact List.mapM_nil
  | cons x xs ih =>
      have rest := ih fun other member => computed other (List.mem_cons_of_mem x member)
      rw [List.mapM_cons, computed x List.mem_cons_self, rest]
      rfl

/-- A table is made with entries of a kind exactly if every computation gives one. -/
theorem exists_mapM_iff {f : α → Except ε β} {p : β → Prop} {xs : List α} :
    (∃ ys, xs.mapM f = .ok ys ∧ ∀ y ∈ ys, p y) ↔ ∀ x ∈ xs, ∃ y, f x = .ok y ∧ p y :=
  returns_mapM_iff

/-- A table is made if every entry of it can be computed. -/
theorem mapM_total {f : α → Except ε β} {xs : List α} (total : ∀ x ∈ xs, ∃ y, f x = .ok y) :
    ∃ ys, xs.mapM f = .ok ys := by
  obtain ⟨ys, made, -⟩ := (exists_mapM_iff (p := fun _ => True)).mpr fun x member => by
    obtain ⟨y, computed⟩ := total x member
    exact ⟨y, computed, trivial⟩
  exact ⟨ys, made⟩

end Tables

/-- A computation with a readable result succeeds. -/
theorem exists_ok_of_read {ε α β : Type} (x : Except ε α) (read : α → β) (value : β)
    (reads : x.toOption.map read = some value) : ∃ a, x = .ok a ∧ read a = value := by
  cases x with
  | error e => cases reads
  | ok a => exact ⟨a, rfl, Option.some.inj reads⟩

/-- The error of a computation that fails. -/
def failure {ε α : Type} : Except ε α → Option ε
  | .error e => some e
  | .ok _ => none

theorem eq_error_of_failure {ε α : Type} {x : Except ε α} {e : ε} (fails : failure x = some e) :
    x = .error e := by
  cases x with
  | error other => exact congrArg Except.error (Option.some.inj fails)
  | ok a => cases fails

end TradeOS
