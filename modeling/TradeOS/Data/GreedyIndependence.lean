import Mathlib.Data.List.Nodup
import Mathlib.Data.List.Pairwise

/-!
# Greedy independent sets

A greedy pruning goes through a list and keeps an element unless it conflicts with one that is kept
already. What it keeps is in the order of the list (`greedy_sublist`), no two kept elements conflict
(`greedy_independent`), and every other element conflicts with a kept one before it
(`kept_or_blocked`): a maximal independent set.

Which one it is depends on the order. The first element is always kept (`head_mem_greedy`), and so
is every element that conflicts with no other (`mem_greedy_of_isolated`).
-/

set_option autoImplicit false

namespace TradeOS.GreedyIndependence

variable {α : Type} (conflicts : α → α → Bool)

/-- What is kept of a list, in front of it what is kept already. -/
def keepFrom : List α → List α → List α
  | kept, [] => kept
  | kept, x :: xs =>
      if kept.any fun y => conflicts y x then keepFrom kept xs else keepFrom (kept ++ [x]) xs

/-- What a greedy pruning keeps. -/
def greedy (xs : List α) : List α := keepFrom conflicts [] xs

/-- No two elements of the list conflict. -/
def Independent (xs : List α) : Prop := xs.Pairwise fun x y => conflicts x y = false

section Kept

variable {conflicts} {kept xs : List α} {x y : α}

theorem keepFrom_blocked (blocked : kept.any (fun y => conflicts y x) = true) :
    keepFrom conflicts kept (x :: xs) = keepFrom conflicts kept xs := by
  rw [keepFrom, if_pos blocked]

theorem keepFrom_free (free : ¬ kept.any (fun y => conflicts y x) = true) :
    keepFrom conflicts kept (x :: xs) = keepFrom conflicts (kept ++ [x]) xs := by
  rw [keepFrom, if_neg free]

theorem keepFrom_append (kept xs ys : List α) :
    keepFrom conflicts kept (xs ++ ys) = keepFrom conflicts (keepFrom conflicts kept xs) ys := by
  induction xs generalizing kept with
  | nil => rfl
  | cons x xs ih =>
      rw [List.cons_append]
      by_cases blocked : kept.any (fun y => conflicts y x) = true
      · rw [keepFrom_blocked blocked, keepFrom_blocked blocked, ih]
      · rw [keepFrom_free blocked, keepFrom_free blocked, ih]

/-- What is kept already stays, and a part of the list comes behind it. -/
theorem exists_keepFrom_eq (conflicts : α → α → Bool) (kept xs : List α) :
    ∃ added, keepFrom conflicts kept xs = kept ++ added ∧ added.Sublist xs := by
  induction xs generalizing kept with
  | nil => exact ⟨[], (List.append_nil kept).symm, .slnil⟩
  | cons x xs ih =>
      by_cases blocked : kept.any (fun y => conflicts y x) = true
      · obtain ⟨added, result, sub⟩ := ih kept
        exact ⟨added, by rw [keepFrom_blocked blocked, result], sub.cons x⟩
      · obtain ⟨added, result, sub⟩ := ih (kept ++ [x])
        refine ⟨x :: added, ?_, sub.cons_cons x⟩
        rw [keepFrom_free blocked, result, List.append_assoc, List.singleton_append]

theorem mem_keepFrom (member : x ∈ kept) : x ∈ keepFrom conflicts kept xs := by
  obtain ⟨added, result, -⟩ := exists_keepFrom_eq conflicts kept xs
  rw [result]
  exact List.mem_append_left added member

theorem greedy_sublist (xs : List α) : (greedy conflicts xs).Sublist xs := by
  obtain ⟨added, result, sub⟩ := exists_keepFrom_eq conflicts [] xs
  rw [greedy, result]
  exact sub

theorem mem_of_mem_greedy (member : x ∈ greedy conflicts xs) : x ∈ xs :=
  (greedy_sublist xs).subset member

theorem keepFrom_independent (independent : Independent conflicts kept) :
    Independent conflicts (keepFrom conflicts kept xs) := by
  induction xs generalizing kept with
  | nil => exact independent
  | cons x xs ih =>
      by_cases blocked : kept.any (fun y => conflicts y x) = true
      · rw [keepFrom_blocked blocked]
        exact ih independent
      · rw [keepFrom_free blocked]
        refine ih (List.pairwise_append.mpr ⟨independent, List.pairwise_singleton _ x, ?_⟩)
        intro y member z last
        rw [List.mem_singleton] at last
        rw [List.any_eq_true, not_exists] at blocked
        rw [last]
        exact Bool.eq_false_iff.mpr fun conflict => blocked y ⟨member, conflict⟩

/-- Where nothing conflicts, everything is kept. -/
theorem keepFrom_eq_append (independent : Independent conflicts (kept ++ xs)) :
    keepFrom conflicts kept xs = kept ++ xs := by
  induction xs generalizing kept with
  | nil => exact (List.append_nil kept).symm
  | cons x xs ih =>
      have free : ¬ kept.any (fun y => conflicts y x) = true := by
        rw [List.any_eq_true]
        rintro ⟨y, member, conflict⟩
        have apart := (List.pairwise_append.mp independent).2.2 y member x List.mem_cons_self
        rw [conflict] at apart
        cases apart
      have moved : kept ++ x :: xs = (kept ++ [x]) ++ xs := by simp
      rw [moved] at independent
      rw [keepFrom_free free, ih independent, moved]

/-- Nothing is kept of elements that conflict with those kept already. -/
theorem keepFrom_eq_kept (blocked : ∀ x ∈ xs, kept.any (fun y => conflicts y x) = true) :
    keepFrom conflicts kept xs = kept := by
  induction xs with
  | nil => rfl
  | cons x xs ih =>
      rw [keepFrom_blocked (blocked x List.mem_cons_self)]
      exact ih fun y member => blocked y (List.mem_cons_of_mem x member)

theorem greedy_eq_self (independent : Independent conflicts xs) : greedy conflicts xs = xs :=
  keepFrom_eq_append independent

/-- **No two kept elements conflict.** -/
theorem greedy_independent (xs : List α) : Independent conflicts (greedy conflicts xs) :=
  keepFrom_independent .nil

/-- **An element of the list is kept, or it conflicts with a kept one before it.** -/
theorem kept_or_blocked (conflicts : α → α → Bool) (member : x ∈ xs) :
    x ∈ greedy conflicts xs ∨
      ∃ y ∈ greedy conflicts xs, [y, x].Sublist xs ∧ conflicts y x = true := by
  obtain ⟨before, after, rfl⟩ := List.append_of_mem member
  rw [greedy, keepFrom_append]
  by_cases blocked : (keepFrom conflicts [] before).any (fun y => conflicts y x) = true
  · right
    obtain ⟨y, kept, conflict⟩ := List.any_eq_true.mp blocked
    have earlier : y ∈ before := mem_of_mem_greedy kept
    exact ⟨y, mem_keepFrom kept, (List.singleton_sublist.mpr earlier).append
      (List.singleton_sublist.mpr List.mem_cons_self), conflict⟩
  · left
    rw [keepFrom_free blocked]
    exact mem_keepFrom (List.mem_append_right _ List.mem_cons_self)

theorem greedy_cons (x : α) (xs : List α) :
    greedy conflicts (x :: xs) = keepFrom conflicts [x] xs := rfl

/-- The first element is kept. -/
theorem head_mem_greedy (conflicts : α → α → Bool) (x : α) (xs : List α) :
    x ∈ greedy conflicts (x :: xs) := by
  rw [greedy_cons]
  exact mem_keepFrom List.mem_cons_self

/-- An element that conflicts with no other is kept. -/
theorem mem_greedy_of_isolated (member : x ∈ xs) (isolated : ∀ y ∈ xs, conflicts y x = false) :
    x ∈ greedy conflicts xs := by
  rcases kept_or_blocked conflicts member with kept | ⟨y, kept, -, conflict⟩
  · exact kept
  · rw [isolated y (mem_of_mem_greedy kept)] at conflict
    cases conflict

/-- Of two elements that conflict, one is not kept. -/
theorem not_mem_greedy (symmetric : ∀ a b, conflicts a b = conflicts b a) (differ : x ≠ y)
    (conflict : conflicts x y = true) (kept : x ∈ greedy conflicts xs) :
    y ∉ greedy conflicts xs := by
  intro both
  have : Std.Symm fun x y => conflicts x y = false := ⟨fun a b free => by rwa [symmetric]⟩
  have free := List.Pairwise.forall (greedy_independent xs) kept both differ
  rw [conflict] at free
  cases free

/-- Of two elements of a list without repetitions, only one comes first. -/
theorem not_before_of_before (distinct : xs.Nodup) (before : [x, y].Sublist xs) :
    ¬ [y, x].Sublist xs := by
  induction xs with
  | nil => cases before
  | cons z xs ih =>
      obtain ⟨fresh, rest⟩ := List.nodup_cons.mp distinct
      intro after
      cases before with
      | cons _ before =>
          cases after with
          | cons _ after => exact ih rest before after
          | cons_cons _ after => exact fresh (before.subset (by simp))
      | cons_cons _ before =>
          cases after with
          | cons _ after => exact fresh (after.subset (by simp))
          | cons_cons _ after => exact fresh (List.singleton_sublist.mp after)

/-- Of two elements that conflict with each other only, the one that comes first is kept. -/
theorem mem_greedy_iff_before (distinct : xs.Nodup)
    (symmetric : ∀ a b, conflicts a b = conflicts b a) (differ : x ≠ y) (first : x ∈ xs)
    (second : y ∈ xs) (conflict : conflicts x y = true)
    (alone : ∀ z ∈ xs, z ≠ x → z ≠ y → conflicts z x = false ∧ conflicts z y = false) :
    x ∈ greedy conflicts xs ↔ [x, y].Sublist xs := by
  have apart {a b : α} (before : [a, b].Sublist xs) : a ≠ b := by
    rintro rfl
    exact not_before_of_before distinct before before
  constructor
  · intro kept
    rcases kept_or_blocked conflicts second with both | ⟨z, own, before, blocks⟩
    · exact absurd both (not_mem_greedy symmetric differ conflict kept)
    · by_cases same : z = x
      · rwa [← same]
      · rw [(alone z (mem_of_mem_greedy own) same (apart before)).2] at blocks
        cases blocks
  · intro before
    rcases kept_or_blocked conflicts first with kept | ⟨z, own, after, blocks⟩
    · exact kept
    · by_cases same : z = y
      · rw [same] at after
        exact absurd after (not_before_of_before distinct before)
      · rw [(alone z (mem_of_mem_greedy own) (apart after) same).1] at blocks
        cases blocks

end Kept

end TradeOS.GreedyIndependence
