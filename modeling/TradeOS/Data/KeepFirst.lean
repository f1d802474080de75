import Mathlib.Data.List.Nodup
import Mathlib.Data.List.Perm.Basic

/-!
# Keeping the first element of every key

A list of keyed elements is merged by keeping, for every key, its first element.
What such a merge leaves is described up to order: the elements have distinct
keys, and every key has the same first element as in the source (`Settled`).

Being settled is stable under what a store does with a merged list: sorting
(`Settled.of_perm`), restriction to a set of keys (`Settled.filter`) and another
merge (`Settled.first_append`). A settled list is a permutation of its source
exactly when the source already had distinct keys (`Settled.perm_iff`).

A list that is collected piece by piece from a source, each piece by a set of keys,
may repeat elements but keeps the order of every key (`Selects`).
-/

set_option autoImplicit false

namespace TradeOS.KeepFirst

variable {α κ : Type} [DecidableEq κ] (key : α → κ)

/-- The first element of a key. -/
def first (k : κ) (xs : List α) : Option α := xs.find? fun x => key x = k

/-- The list without the later elements of a repeated key. -/
def keepFirst (xs : List α) : List α := xs.eraseDupsBy fun x earlier => key x = key earlier

/-- The rows have distinct keys, and the first elements of the source. -/
structure Settled (rows source : List α) : Prop where
  distinct : (rows.map key).Nodup
  same : ∀ k, first key k rows = first key k source

/-- Of the elements of a key, one that has the key is there as often as before. -/
theorem count_filter_key [DecidableEq α] (k : κ) (x : α) (xs : List α) :
    (xs.filter fun y => key y = k).count x = if key x = k then xs.count x else 0 := by
  split
  · rename_i own
    exact List.count_filter (decide_eq_true own)
  · rename_i other
    refine List.count_eq_zero.mpr fun member => other ?_
    exact of_decide_eq_true (List.mem_filter.mp member).2

/-! ## First elements -/

section First

variable {key}

theorem first_cons (k : κ) (x : α) (xs : List α) :
    first key k (x :: xs) = if key x = k then some x else first key k xs := by
  rw [first, List.find?_cons]
  by_cases own : key x = k
  · simp [own]
  · simp [own, first]

theorem first_append (k : κ) (xs ys : List α) :
    first key k (xs ++ ys) = (first key k xs).or (first key k ys) :=
  List.find?_append

theorem mem_of_first {k : κ} {xs : List α} {x : α} (found : first key k xs = some x) : x ∈ xs :=
  List.mem_of_find?_eq_some found

theorem key_of_first {k : κ} {xs : List α} {x : α} (found : first key k xs = some x) :
    key x = k := by
  have holds := List.find?_some found
  exact of_decide_eq_true holds

/-- Among distinct keys every element is the first of its own. -/
theorem first_of_mem {xs : List α} (distinct : (xs.map key).Nodup) {x : α} (member : x ∈ xs) :
    first key (key x) xs = some x := by
  cases found : first key (key x) xs with
  | none =>
      have absent := List.find?_eq_none.mp found x member
      exact absurd (decide_eq_true rfl) absent
  | some y =>
      have same : y = x :=
        List.inj_on_of_nodup_map distinct (mem_of_first found) member (key_of_first found)
      rw [same]

/-- The first element of a key, in the part of a list that a set of keys selects. -/
theorem first_filter (p : κ → Bool) (k : κ) (xs : List α) :
    first key k (xs.filter fun x => p (key x)) = if p k then first key k xs else none := by
  induction xs with
  | nil => simp [first]
  | cons x xs ih =>
      by_cases own : key x = k
      · subst own
        cases chosen : p (key x) with
        | true => simp [first, chosen]
        | false =>
            rw [List.filter_cons_of_neg (by simp [chosen]), ih, chosen]
            rfl
      · have later : first key k (x :: xs) = first key k xs :=
          List.find?_cons_of_neg (by simpa using own)
        rw [later, ← ih]
        cases chosen : p (key x) with
        | true =>
            rw [List.filter_cons_of_pos (p := fun x => p (key x)) chosen]
            exact List.find?_cons_of_neg (by simpa using own)
        | false => rw [List.filter_cons_of_neg (by simp [chosen])]

end First

/-! ## The merge -/

/-- An induction that follows the merge: it goes on without the elements of the first
key. -/
theorem filter_induction {motive : List α → Prop} (nil : motive [])
    (cons : ∀ x xs, motive (xs.filter fun y => key y ≠ key x) → motive (x :: xs)) (xs : List α) :
    motive xs := by
  induction length : xs.length using Nat.strongRecOn generalizing xs with
  | _ n ih =>
      cases xs with
      | nil => exact nil
      | cons x xs =>
          refine cons x xs (ih _ ?_ _ rfl)
          rw [← length, List.length_cons]
          exact Nat.lt_succ_of_le (List.length_filter_le _ _)

theorem keepFirst_cons (x : α) (xs : List α) :
    keepFirst key (x :: xs) = x :: keepFirst key (xs.filter fun y => key y ≠ key x) := by
  rw [keepFirst, List.eraseDupsBy_cons]
  simp [keepFirst]

/-- **The merge settles its source.** -/
theorem settled_keepFirst (xs : List α) : Settled key (keepFirst key xs) xs := by
  induction xs using filter_induction key with
  | nil => exact ⟨List.nodup_nil, fun k => rfl⟩
  | cons x xs ih =>
      have others : ∀ k, first key k (keepFirst key (xs.filter fun y => key y ≠ key x)) =
          if k ≠ key x then first key k xs else none := by
        intro k
        rw [ih.same, first_filter fun k => decide (k ≠ key x)]
        simp
      rw [keepFirst_cons]
      constructor
      · rw [List.map_cons, List.nodup_cons]
        refine ⟨fun repeated => ?_, ih.distinct⟩
        obtain ⟨y, member, same⟩ := List.mem_map.mp repeated
        have found := first_of_mem ih.distinct member
        rw [others, same, if_neg (not_not.mpr rfl)] at found
        cases found
      · intro k
        by_cases own : key x = k
        · simp [first, own]
        · have skip : ∀ ys, first key k (x :: ys) = first key k ys := fun ys =>
            List.find?_cons_of_neg (by simpa using own)
          rw [skip, skip, others, if_pos (Ne.symm own)]

/-! ## What settled lists allow -/

namespace Settled

variable {key} {rows source : List α}

theorem mem_iff (settled : Settled key rows source) (x : α) :
    x ∈ rows ↔ first key (key x) source = some x := by
  rw [← settled.same]
  exact ⟨first_of_mem settled.distinct, mem_of_first⟩

theorem of_perm (settled : Settled key rows source) {sorted : List α} (perm : sorted.Perm rows) :
    Settled key sorted source := by
  have distinct : (sorted.map key).Nodup := (perm.map key).nodup_iff.mpr settled.distinct
  refine ⟨distinct, fun k => ?_⟩
  rw [← settled.same]
  refine Option.ext ?_
  intro x
  constructor
  · intro found
    obtain rfl := key_of_first found
    exact first_of_mem settled.distinct (perm.mem_iff.mp (mem_of_first found))
  · intro found
    obtain rfl := key_of_first found
    exact first_of_mem distinct (perm.mem_iff.mpr (mem_of_first found))

/-- Another merge may start from the settled rows in place of their source. -/
theorem first_append (settled : Settled key rows source) (k : κ) (xs : List α) :
    first key k (rows ++ xs) = first key k (source ++ xs) := by
  rw [KeepFirst.first_append, KeepFirst.first_append, settled.same]

theorem filter (settled : Settled key rows source) (p : κ → Bool) :
    Settled key (rows.filter fun x => p (key x)) (source.filter fun x => p (key x)) where
  distinct := settled.distinct.sublist (List.filter_sublist.map key)
  same k := by rw [first_filter, first_filter, settled.same]

/-- **A settled list is a permutation of its source exactly when nothing was merged.** -/
theorem perm_iff (settled : Settled key rows source) :
    rows.Perm source ↔ (source.map key).Nodup := by
  constructor
  · intro perm
    exact (perm.map key).nodup_iff.mp settled.distinct
  · intro distinct
    refine (List.perm_ext_iff_of_nodup settled.distinct.of_map distinct.of_map).mpr ?_
    intro x
    rw [settled.mem_iff]
    exact ⟨mem_of_first, first_of_mem distinct⟩

end Settled

/-! ## Selections -/

/-- The list has the elements of a source with certain keys, those of one key in the
order of the source; an element may be there more than once. -/
structure Selects (source : List α) (keys : κ → Prop) (xs : List α) : Prop where
  mem_iff : ∀ x, x ∈ xs ↔ x ∈ source ∧ keys (key x)
  first_iff : ∀ k x, first key k xs = some x ↔ keys k ∧ first key k source = some x

section Selects

variable {key} {source xs ys : List α} {keys others : κ → Prop}

theorem selects_nil (none : ∀ k, ¬ keys k) : Selects key source keys [] where
  mem_iff x := iff_of_false List.not_mem_nil fun both => none _ both.2
  first_iff k x := iff_of_false (fun found => by cases found) fun both => none _ both.1

theorem selects_filter (source : List α) (p : κ → Bool) :
    Selects key source (fun k => p k = true) (source.filter fun x => p (key x)) where
  mem_iff x := List.mem_filter
  first_iff k x := by
    rw [first_filter]
    split
    · rename_i chosen
      exact (and_iff_right chosen).symm
    · rename_i dropped
      exact iff_of_false (fun found => by cases found) fun both => dropped both.1

theorem Selects.congr (selects : Selects key source keys xs) (same : ∀ k, keys k ↔ others k) :
    Selects key source others xs := by
  obtain rfl : keys = others := funext fun k => propext (same k)
  exact selects

theorem Selects.append (left : Selects key source keys xs) (right : Selects key source others ys) :
    Selects key source (fun k => keys k ∨ others k) (xs ++ ys) where
  mem_iff x := by rw [List.mem_append, left.mem_iff, right.mem_iff, and_or_left]
  first_iff k x := by
    rw [KeepFirst.first_append, Option.or_eq_some_iff, left.first_iff, right.first_iff]
    constructor
    · rintro (⟨chosen, found⟩ | ⟨_, chosen, found⟩)
      · exact ⟨.inl chosen, found⟩
      · exact ⟨.inr chosen, found⟩
    · rintro ⟨chosen | chosen, found⟩
      · exact .inl ⟨chosen, found⟩
      · cases head : first key k xs with
        | none => exact .inr ⟨rfl, chosen, found⟩
        | some y => exact .inl ⟨((left.first_iff k y).mp head).1, found⟩

end Selects

end TradeOS.KeepFirst
