import Mathlib.Data.List.Perm.Basic
import Mathlib.Data.List.Perm.Lattice

/-!
# The first match in a set

A search through a set returns the first match in the order in which the set is run through, and
this order is not specified. Every match is the first one in some order (`find?_withFirst`), and
whether there is a match does not depend on the order (`find?_eq_none_iff`).
-/

set_option autoImplicit false

namespace TradeOS.FirstMatch

variable {α : Type}

/-- The orders in which sets may be run through, a set being given by a list of its elements. -/
abbrev SetOrder (α : Type) := {order : List α → List α // ∀ xs, (order xs).Perm xs}

/-- The order of the lists. -/
def asListed : SetOrder α := ⟨id, List.Perm.refl⟩

/-- The order that runs through an element first. -/
def withFirst [DecidableEq α] (x : α) : SetOrder α :=
  ⟨fun xs => if x ∈ xs then x :: xs.erase x else xs, fun xs => by
    dsimp only
    by_cases member : x ∈ xs
    · rw [if_pos member]
      exact (List.perm_cons_erase member).symm
    · rw [if_neg member]⟩

variable {p : α → Bool} {xs : List α}

theorem find?_eq_none_iff (order : SetOrder α) :
    (order.val xs).find? p = none ↔ ∀ x ∈ xs, ¬ p x := by
  rw [List.find?_eq_none]
  exact forall_congr' fun x => imp_congr_left (order.property xs).mem_iff

theorem of_find?_eq_some {order : SetOrder α} {x : α} (found : (order.val xs).find? p = some x) :
    x ∈ xs ∧ p x :=
  ⟨(order.property xs).mem_iff.mp (List.mem_of_find?_eq_some found), List.find?_some found⟩

variable [DecidableEq α]

theorem find?_withFirst {x : α} (member : x ∈ xs) (matched : p x) :
    ((withFirst x).val xs).find? p = some x := by
  have order : (withFirst x).val xs = x :: xs.erase x := if_pos member
  rw [order, List.find?_cons_of_pos matched]

end TradeOS.FirstMatch
