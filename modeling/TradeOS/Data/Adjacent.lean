import Mathlib.Data.List.Infix
import Mathlib.Data.List.Chain
import Mathlib.Data.List.Nodup
import Mathlib.Algebra.Group.Nat.Even
import Mathlib.Order.Lattice

/-!
# Adjacent entries of a list

A loop that looks back by one entry works on the pairs of adjacent entries. A table
with one row per pair, under the second entry of the pair, is looked up in
`lookup_rows_iff`: for an increasing list there is a row exactly for the entries with one
before them, and the entry before is the largest one below (`le_of_adjacent`).

Such a loop may drop pairs. What comes next to one another then is said by
`isChain_filterMap_iff`, and `even_changes_iff` counts the changes of a two-valued key
over the pairs in between.
-/

set_option autoImplicit false

namespace TradeOS.Adjacent

variable {α β : Type}

/-- The pairs of adjacent entries. -/
def pairs (xs : List α) : List (α × α) := xs.zip xs.tail

@[simp] theorem pairs_cons_cons (x y : α) (xs : List α) :
    pairs (x :: y :: xs) = (x, y) :: pairs (y :: xs) :=
  rfl

theorem mem_pairs_iff {xs : List α} {x y : α} : (x, y) ∈ pairs xs ↔ [x, y] <:+: xs := by
  induction xs with
  | nil => simp [pairs]
  | cons a rest ih =>
      cases rest with
      | nil => simp [pairs, List.infix_cons_iff]
      | cons b rest =>
          have first : [x, y] <:+: a :: b :: rest ↔ (x = a ∧ y = b) ∨ [x, y] <:+: b :: rest := by
            refine List.infix_cons_iff.trans (or_congr_left ?_)
            simp
          rw [pairs_cons_cons, List.mem_cons, ih, first, Prod.mk.injEq]

/-- The second entries of the pairs are all entries but the first. -/
theorem map_snd_pairs (xs : List α) : (pairs xs).map Prod.snd = xs.tail :=
  List.map_snd_zip (by simp)

/-- Adjacent entries of a chain are related. -/
theorem rel_of_adjacent {R : α → α → Prop} {xs : List α} (chain : xs.IsChain R) {x y : α}
    (adjacent : [x, y] <:+: xs) : R x y := by
  obtain ⟨before, after, rfl⟩ := adjacent
  exact (List.isChain_cons_cons.mp chain.left_of_append.right_of_append).1

theorem lt_of_adjacent [LinearOrder α] {xs : List α} (increasing : xs.Pairwise (· < ·)) {x y : α}
    (adjacent : [x, y] <:+: xs) : x < y := by
  have ordered := increasing.sublist adjacent.sublist
  exact (List.pairwise_cons.mp ordered).1 y List.mem_cons_self

/-- In an increasing list the entry before an entry is the largest one below it. -/
theorem le_of_adjacent [LinearOrder α] {xs : List α} (increasing : xs.Pairwise (· < ·)) {x y z : α}
    (adjacent : [x, y] <:+: xs) (member : z ∈ xs) (below : z < y) : z ≤ x := by
  obtain ⟨before, after, rfl⟩ := adjacent
  rw [List.append_assoc, List.pairwise_append] at increasing
  obtain ⟨_, rest, ordered⟩ := increasing
  rw [List.append_assoc] at member
  rcases List.mem_append.mp member with early | late
  · exact (ordered z early x List.mem_cons_self).le
  · rcases List.mem_cons.mp late with rfl | late
    · exact le_refl z
    · rcases List.mem_cons.mp late with rfl | late
      · exact absurd below (lt_irrefl z)
      · have above := (List.pairwise_cons.mp (List.pairwise_cons.mp rest).2).1 z late
        exact absurd below above.asymm

/-- In an ordered list a pair starts with the entry at which an earlier pair ends, or behind
it. -/
theorem pairwise_pairs {R : α → α → Prop} {xs : List α} (ordered : xs.Pairwise R) :
    (pairs xs).Pairwise fun p q => p.2 = q.1 ∨ R p.2 q.1 := by
  induction xs with
  | nil => exact .nil
  | cons x rest ih =>
      cases rest with
      | nil => exact .nil
      | cons y rest =>
          obtain ⟨-, later⟩ := List.pairwise_cons.mp ordered
          rw [pairs_cons_cons]
          refine List.pairwise_cons.mpr ⟨?_, ih later⟩
          intro pair member
          have entry : pair.1 ∈ y :: rest := (mem_pairs_iff.mp member).subset List.mem_cons_self
          rcases List.mem_cons.mp entry with same | behind
          · exact .inl same.symm
          · exact .inr ((List.pairwise_cons.mp later).1 pair.1 behind)

/-! ## Tables by the second entry -/

/-- With distinct keys every entry of a table is found. -/
theorem lookup_eq_some_of_mem [DecidableEq α] {table : List (α × β)}
    (distinct : (table.map Prod.fst).Nodup) {k : α} {b : β} (member : (k, b) ∈ table) :
    table.lookup k = some b := by
  obtain ⟨before, after, rfl⟩ := List.append_of_mem member
  refine List.lookup_eq_some_iff.mpr ⟨before, after, rfl, fun entry listed => ?_⟩
  rw [List.map_append, List.map_cons, List.nodup_append] at distinct
  have other := distinct.2.2 entry.1 (List.mem_map_of_mem listed) k List.mem_cons_self
  simpa using other.symm

/-- The table with one row per pair, under its second entry. -/
def rows (f : α → α → β) (xs : List α) : List (α × β) :=
  (pairs xs).map fun pair => (pair.2, f pair.1 pair.2)

theorem lookup_rows_iff [DecidableEq α] {f : α → α → β} {xs : List α} (distinct : xs.Nodup) {y : α}
    {b : β} : (rows f xs).lookup y = some b ↔ ∃ x, [x, y] <:+: xs ∧ f x y = b := by
  constructor
  · intro found
    obtain ⟨before, after, split, _⟩ := List.lookup_eq_some_iff.mp found
    have member : (y, b) ∈ rows f xs := by
      rw [split]
      exact List.mem_append_right before List.mem_cons_self
    obtain ⟨⟨x, y'⟩, adjacent, same⟩ := List.mem_map.mp member
    obtain ⟨rfl, value⟩ := Prod.mk.inj same
    exact ⟨x, mem_pairs_iff.mp adjacent, value⟩
  · rintro ⟨x, adjacent, rfl⟩
    have keys : (rows f xs).map Prod.fst = xs.tail := by
      rw [rows, List.map_map, ← map_snd_pairs]
      rfl
    refine lookup_eq_some_of_mem (by rw [keys]; exact distinct.tail) ?_
    exact List.mem_map.mpr ⟨(x, y), mem_pairs_iff.mpr adjacent, rfl⟩

/-! ## Pairs that are left out -/

/-- A pair starts with the entry at which the pair before it ends. -/
theorem isChain_pairs (xs : List α) : (pairs xs).IsChain fun p q => p.2 = q.1 := by
  induction xs with
  | nil => exact List.isChain_nil
  | cons x rest ih =>
      match rest with
      | [] => exact List.isChain_nil
      | [y] => exact List.isChain_singleton (x, y)
      | y :: z :: rest => exact List.isChain_cons_cons.mpr ⟨rfl, ih⟩

/-- What is kept of a list is a chain if every two entries that are kept, with none kept in
between, are related. -/
theorem isChain_filterMap_iff {f : α → Option β} {R : β → β → Prop} {xs : List α} :
    (xs.filterMap f).IsChain R ↔
      ∀ before x gap y after, xs = before ++ x :: (gap ++ y :: after) → (∀ z ∈ gap, f z = none) →
        ∀ b c, f x = some b → f y = some c → R b c := by
  rw [List.isChain_iff_forall_rel_of_append_cons_cons]
  constructor
  · rintro related before x gap y after rfl dropped b c first second
    have nothing : gap.filterMap f = [] := List.filterMap_eq_nil_iff.mpr dropped
    refine @related b c (before.filterMap f) (after.filterMap f) ?_
    rw [List.filterMap_append, List.filterMap_cons_some first, List.filterMap_append, nothing,
      List.nil_append, List.filterMap_cons_some second]
  · intro related b c kept kept' split
    obtain ⟨before, rest, rfl, -, split⟩ := List.filterMap_eq_append_iff.mp split
    obtain ⟨skipped, x, rest, rfl, -, first, split⟩ := List.filterMap_eq_cons_iff.mp split
    obtain ⟨gap, y, after, rfl, dropped, second, -⟩ := List.filterMap_eq_cons_iff.mp split
    exact related (before ++ skipped) x gap y after (List.append_assoc _ _ _).symm dropped b c
      first second

/-- Over linked pairs, a two-valued key has changed an even number of times if it is back at
its value. -/
theorem even_changes_iff (key : α → Bool) (first last : α × α) (gap : List (α × α))
    (linked : (first :: (gap ++ [last])).IsChain fun p q => p.2 = q.1) :
    Even (gap.countP fun p => key p.1 != key p.2) ↔ key first.2 = key last.1 := by
  induction gap generalizing first with
  | nil =>
      have meets : first.2 = last.1 := by simpa using linked
      simp [meets]
  | cons next rest ih =>
      obtain ⟨meets, linked⟩ := List.isChain_cons_cons.mp linked
      rw [List.countP_cons, meets]
      cases changed : key next.1 != key next.2 with
      | false =>
          have same : key next.1 = key next.2 := by simpa using changed
          rw [same, ← ih next linked]
          simp
      | true =>
          have other : key next.1 = !key next.2 := by
            cases start : key next.1 <;> cases finish : key next.2 <;> simp_all
          rw [if_pos rfl, Nat.even_add_one, ih next linked, other]
          cases key next.2 <;> cases key last.1 <;> simp

end TradeOS.Adjacent
