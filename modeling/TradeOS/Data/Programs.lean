import Mathlib.Data.List.Basic

/-!
# Programs that return

A program that can fail is a value of `Except`. `Returns program post` says that it returns a value
with a property: the weakest precondition of the program, as a statement about its result. The rules
follow the program: `returns_bind_iff` takes a sequence apart, in both directions, and
`returns_foldlM` is the rule of a loop with its invariant.

Three loops over a list come with their rules: a test of all elements (`allOf`), the elements that
pass a test (`select`), and what the elements contribute (`collect`).
-/

set_option autoImplicit false

namespace TradeOS.Programs

variable {ε α β : Type}

/-- The program returns a value with the property. -/
def Returns (program : Except ε α) (post : α → Prop) : Prop := ∃ a, program = .ok a ∧ post a

variable {program : Except ε α} {post : α → Prop}

@[simp] theorem returns_ok_iff {a : α} : Returns (ε := ε) (.ok a) post ↔ post a := by
  simp [Returns]

@[simp] theorem returns_pure_iff {a : α} : Returns (ε := ε) (pure a) post ↔ post a :=
  returns_ok_iff

@[simp] theorem not_returns_error {error : ε} : ¬ Returns (.error error) post := by
  simp [Returns]

@[simp] theorem returns_bind_iff {next : α → Except ε β} {post : β → Prop} :
    Returns (program >>= next) post ↔ Returns program fun a => Returns (next a) post := by
  cases program with
  | error error =>
      refine iff_of_false ?_ not_returns_error
      exact not_returns_error
  | ok a =>
      rw [returns_ok_iff]
      rfl

@[simp] theorem returns_ite_iff {p : Prop} [Decidable p] {other : Except ε α} :
    Returns (if p then program else other) post ↔
      if p then Returns program post else Returns other post := by
  split <;> rfl

@[simp] theorem returns_mapError_iff {ε' : Type} {f : ε → ε'} :
    Returns (program.mapError f) post ↔ Returns program post := by
  cases program with
  | error error => exact iff_of_false not_returns_error not_returns_error
  | ok a => exact returns_ok_iff.trans returns_ok_iff.symm

/-- A property that does not depend on what is returned. -/
theorem returns_const_iff {q : Prop} :
    (Returns program fun _ => q) ↔ (∃ a, program = .ok a) ∧ q := by
  constructor
  · rintro ⟨a, result, holds⟩
    exact ⟨⟨a, result⟩, holds⟩
  · rintro ⟨⟨a, result⟩, holds⟩
    exact ⟨a, result, holds⟩

theorem returns_true_iff : (Returns program fun _ => True) ↔ ∃ a, program = .ok a := by
  rw [returns_const_iff, and_true]

theorem Returns.mono {weaker : α → Prop} (returns : Returns program post)
    (implies : ∀ a, post a → weaker a) : Returns program weaker := by
  obtain ⟨a, result, holds⟩ := returns
  exact ⟨a, result, implies a holds⟩

theorem Returns.bind {next : α → Except ε β} {after : β → Prop} (first : Returns program post)
    (rest : ∀ a, post a → Returns (next a) after) : Returns (program >>= next) after :=
  returns_bind_iff.mpr (first.mono rest)

/-- The rule of a loop: the body keeps the invariant. -/
theorem returns_foldlM {body : β → α → Except ε β} {invariant : β → Prop} {xs : List α} {start : β}
    (holds : invariant start)
    (step : ∀ x ∈ xs, ∀ state, invariant state → Returns (body state x) invariant) :
    Returns (xs.foldlM body start) invariant := by
  induction xs generalizing start with
  | nil => exact returns_pure_iff.mpr holds
  | cons x xs ih =>
      rw [List.foldlM_cons]
      refine (step x List.mem_cons_self start holds).bind fun state kept => ?_
      exact ih kept fun y member => step y (List.mem_cons_of_mem x member)

/-- A table is made with entries of a kind exactly if every computation returns one. -/
theorem returns_mapM_iff {f : α → Except ε β} {xs : List α} {p : β → Prop} :
    (Returns (xs.mapM f) fun ys => ∀ y ∈ ys, p y) ↔ ∀ x ∈ xs, Returns (f x) p := by
  induction xs with
  | nil =>
      rw [List.mapM_nil, returns_pure_iff]
      exact iff_of_true nofun nofun
  | cons x xs ih =>
      rw [List.forall_mem_cons, ← ih, List.mapM_cons, returns_bind_iff]
      constructor
      · rintro ⟨y, first, rest⟩
        obtain ⟨ys, others, all⟩ := returns_bind_iff.mp rest
        obtain ⟨here, there⟩ := List.forall_mem_cons.mp (returns_pure_iff.mp all)
        exact ⟨⟨y, first, here⟩, ys, others, there⟩
      · rintro ⟨⟨y, first, here⟩, rest⟩
        refine ⟨y, first, rest.bind fun ys there => returns_pure_iff.mpr ?_⟩
        exact List.forall_mem_cons.mpr ⟨here, there⟩

theorem returns_mapM_total_iff {f : α → Except ε β} {xs : List α} :
    (Returns (xs.mapM f) fun _ => True) ↔ ∀ x ∈ xs, Returns (f x) fun _ => True := by
  rw [← returns_mapM_iff]
  simp

/-- The test of all elements, up to the first that fails. -/
def allOf (test : α → Except ε Bool) : List α → Except ε Bool
  | [] => .ok true
  | x :: xs => do
      let passed ← test x
      if passed then allOf test xs else .ok false

theorem returns_allOf {test : α → Except ε Bool} {xs : List α}
    (step : ∀ x ∈ xs, Returns (test x) fun _ => True) :
    Returns (allOf test xs) fun _ => True := by
  induction xs with
  | nil => exact returns_ok_iff.mpr trivial
  | cons x xs ih =>
      refine (step x List.mem_cons_self).bind fun passed _ => ?_
      cases passed with
      | true => exact ih fun y member => step y (List.mem_cons_of_mem x member)
      | false => exact returns_ok_iff.mpr trivial

/-- A test that always returns passes all elements if its results do. -/
theorem allOf_eq {test : α → Except ε Bool} {passes : α → Bool} {xs : List α}
    (computed : ∀ x ∈ xs, test x = .ok (passes x)) : allOf test xs = .ok (xs.all passes) := by
  induction xs with
  | nil => rfl
  | cons x xs ih =>
      rw [allOf, computed x List.mem_cons_self, List.all_cons]
      cases passes x with
      | true => exact ih fun y member => computed y (List.mem_cons_of_mem x member)
      | false => rfl

/-- The elements that pass a test. -/
def select (test : α → Except ε Bool) : List α → Except ε (List α)
  | [] => .ok []
  | x :: xs => do
      let passed ← test x
      let rest ← select test xs
      return if passed then x :: rest else rest

theorem returns_select {test : α → Except ε Bool} {xs : List α}
    (step : ∀ x ∈ xs, Returns (test x) fun _ => True) :
    Returns (select test xs) fun ys => ys.Sublist xs := by
  induction xs with
  | nil => exact returns_ok_iff.mpr (List.Sublist.refl [])
  | cons x xs ih =>
      refine (step x List.mem_cons_self).bind fun passed _ => ?_
      refine (ih fun y member => step y (List.mem_cons_of_mem x member)).bind fun ys part => ?_
      rw [returns_pure_iff]
      cases passed with
      | true => exact part.cons_cons x
      | false => exact part.cons x

theorem select_eq {test : α → Except ε Bool} {passes : α → Bool} {xs : List α}
    (computed : ∀ x ∈ xs, test x = .ok (passes x)) : select test xs = .ok (xs.filter passes) := by
  induction xs with
  | nil => rfl
  | cons x xs ih =>
      rw [select, computed x List.mem_cons_self,
        ih fun y member => computed y (List.mem_cons_of_mem x member), List.filter_cons]
      rfl

/-- A table of computations that all return. -/
theorem mapM_eq {f : α → Except ε β} {g : α → β} {xs : List α}
    (computed : ∀ x ∈ xs, f x = .ok (g x)) : xs.mapM f = .ok (xs.map g) := by
  induction xs with
  | nil => rfl
  | cons x xs ih =>
      rw [List.mapM_cons, computed x List.mem_cons_self,
        ih fun y member => computed y (List.mem_cons_of_mem x member)]
      rfl

/-- What the elements contribute, in their order. -/
def collect (step : α → Except ε (List β)) (xs : List α) : Except ε (List β) := do
  let found ← xs.mapM step
  return found.flatten

theorem collect_eq {step : α → Except ε (List β)} {found : α → List β} {xs : List α}
    (computed : ∀ x ∈ xs, step x = .ok (found x)) : collect step xs = .ok (xs.flatMap found) := by
  rw [collect, mapM_eq computed]
  rfl

/-- What is collected has a property that every contribution has. -/
theorem returns_collect {f : α → Except ε (List β)} {xs : List α} {p : β → Prop}
    (step : ∀ x ∈ xs, Returns (f x) fun ys => ∀ y ∈ ys, p y) :
    Returns (collect f xs) fun ys => ∀ y ∈ ys, p y := by
  refine (returns_mapM_iff.mpr step).bind fun found all => returns_pure_iff.mpr fun y member => ?_
  obtain ⟨ys, listed, inside⟩ := List.mem_flatten.mp member
  exact all ys listed y inside

theorem returns_collect_total {f : α → Except ε (List β)} {xs : List α}
    (step : ∀ x ∈ xs, Returns (f x) fun _ => True) :
    Returns (collect f xs) fun _ => True :=
  (returns_collect (p := fun _ => True) fun x member =>
    (step x member).mono fun _ _ _ _ => trivial).mono fun _ _ => trivial

theorem returns_collect_nil {f : α → Except ε (List β)} {xs : List α}
    (step : ∀ x ∈ xs, Returns (f x) fun ys => ys = []) :
    Returns (collect f xs) fun ys => ys = [] := by
  refine (returns_collect (p := fun _ => False) fun x member => ?_).mono fun ys none => ?_
  · exact (step x member).mono fun ys empty => by simp [empty]
  · exact List.eq_nil_iff_forall_not_mem.mpr none

end TradeOS.Programs
