import TradeOS.Data.GreedyIndependence
import Mathlib.Data.Finset.Max

/-!
# The best of a greedy independent set

Of what a greedy pruning keeps, the best eligible elements are chosen, by a score. A single element
is chosen as it is (`Chosen`).

The pruning depends on the order of the list, and mostly so does the choice. It does not in two
cases only (`chosen_perm_iff`). Either no two elements conflict, so that nothing is pruned. Or the
choice is `Steady`: no element conflicts with all others, and every eligible element that conflicts
with another is outranked by enough eligible ones without a conflict, which every order keeps.
-/

set_option autoImplicit false

namespace TradeOS.GreedyIndependence

variable {α β : Type} [LinearOrder β] (conflicts : α → α → Bool) (eligible : α → Bool)
  (score : α → β) (k : ℕ)

/-- The elements of a list that are eligible and better than a given one. -/
def numBetter (xs : List α) (x : α) : ℕ :=
  xs.countP fun y => eligible y && decide (score x < score y)

/-- The element is one of the `k` best eligible ones. -/
def Best (xs : List α) (x : α) : Prop :=
  x ∈ xs ∧ eligible x = true ∧ numBetter eligible score xs x < k

/-- A single element is chosen as it is, of several the best ones are. -/
def Chosen (kept : List α) (x : α) : Prop :=
  if kept.length ≤ 1 then x ∈ kept else Best eligible score k kept x

/-- The element conflicts with none of the list. -/
def isolated (xs : List α) (x : α) : Bool := xs.all fun y => !conflicts x y

/-- No element conflicts with all others, and the best ones conflict with none. -/
structure Steady (xs : List α) : Prop where
  undominated : ∀ a ∈ xs, ∃ b ∈ xs, b ≠ a ∧ conflicts a b = false
  outranked : ∀ a ∈ xs, isolated conflicts xs a = false → eligible a = true →
    k ≤ numBetter (fun b => isolated conflicts xs b && eligible b) score xs a

section Counting

variable {conflicts eligible score k} {xs ys : List α} {x y : α}

theorem isolated_iff : isolated conflicts xs x = true ↔ ∀ y ∈ xs, conflicts x y = false := by
  simp [isolated]

theorem not_isolated_iff :
    isolated conflicts xs x = false ↔ ∃ y ∈ xs, conflicts x y = true := by
  simp [isolated]

theorem mem_of_chosen (chosen : Chosen eligible score k xs x) : x ∈ xs := by
  rw [Chosen] at chosen
  split at chosen
  · exact chosen
  · exact chosen.1

theorem chosen_iff_best (several : 1 < xs.length) :
    Chosen eligible score k xs x ↔ Best eligible score k xs x := by
  rw [Chosen, if_neg (not_le.mpr several)]

theorem numBetter_perm (perm : ys.Perm xs) (x : α) :
    numBetter eligible score ys x = numBetter eligible score xs x :=
  perm.countP_eq _

theorem isolated_perm (perm : ys.Perm xs) : isolated conflicts ys = isolated conflicts xs :=
  funext fun _ => perm.all_eq

theorem chosen_perm (perm : ys.Perm xs) :
    Chosen eligible score k ys x ↔ Chosen eligible score k xs x := by
  rw [Chosen, Chosen, Best, Best, perm.length_eq, perm.mem_iff, numBetter_perm perm]

theorem Steady.perm (steady : Steady conflicts eligible score k xs) (perm : ys.Perm xs) :
    Steady conflicts eligible score k ys where
  undominated a member := by
    obtain ⟨b, other, differ, free⟩ := steady.undominated a (perm.mem_iff.mp member)
    exact ⟨b, perm.mem_iff.mpr other, differ, free⟩
  outranked a member blocked able := by
    rw [isolated_perm perm] at blocked ⊢
    rw [numBetter_perm perm]
    exact steady.outranked a (perm.mem_iff.mp member) blocked able

/-- Among the eligible elements alone. -/
theorem numBetter_eq_countP_filter (xs : List α) (x : α) :
    numBetter eligible score xs x =
      (xs.filter eligible).countP fun y => decide (score x < score y) := by
  rw [List.countP_filter, numBetter]
  congr 1
  funext y
  rw [Bool.and_comm]

theorem numBetter_anti (le : score x ≤ score y) :
    numBetter eligible score xs y ≤ numBetter eligible score xs x :=
  List.countP_mono_left fun z _ better => by
    rw [Bool.and_eq_true, decide_eq_true_eq] at better ⊢
    exact ⟨better.1, le.trans_lt better.2⟩

theorem numBetter_and_le (kind eligible : α → Bool) (score : α → β) (xs : List α) (x : α) :
    numBetter (fun y => kind y && eligible y) score xs x ≤ numBetter eligible score xs x :=
  List.countP_mono_left fun z _ better => by
    simp only [Bool.and_eq_true] at better ⊢
    exact ⟨better.1.2, better.2⟩

/-- If all better elements are of a kind, they are counted as such. -/
theorem numBetter_eq_of_kind (kind : α → Bool)
    (all : ∀ y ∈ xs, eligible y = true → score x < score y → kind y = true) :
    numBetter eligible score xs x = numBetter (fun y => kind y && eligible y) score xs x := by
  refine le_antisymm (List.countP_mono_left fun y member better => ?_)
    (numBetter_and_le kind eligible score xs x)
  rw [Bool.and_eq_true, decide_eq_true_eq] at better
  simp [better.1, better.2, all y member better.1 better.2]

end Counting

/-! ## The choice of a greedy pruning -/

section Pruning

variable {conflicts eligible score k} {xs : List α} {x : α}

/-- The elements without a conflict are kept, so that their number stays. -/
theorem numBetter_isolated [DecidableEq α] (distinct : xs.Nodup)
    (symmetric : ∀ a b, conflicts a b = conflicts b a) (x : α) :
    numBetter (fun y => isolated conflicts xs y && eligible y) score (greedy conflicts xs) x =
      numBetter (fun y => isolated conflicts xs y && eligible y) score xs x := by
  have same : ((greedy conflicts xs).filter (isolated conflicts xs)).Perm
      (xs.filter (isolated conflicts xs)) := by
    refine (List.perm_ext_iff_of_nodup ((distinct.sublist (greedy_sublist xs)).filter _)
      (distinct.filter _)).mpr fun y => ?_
    rw [List.mem_filter, List.mem_filter]
    refine and_congr_left fun alone => ⟨mem_of_mem_greedy, fun member => ?_⟩
    refine mem_greedy_of_isolated member fun z other => ?_
    rw [symmetric]
    exact isolated_iff.mp alone z other
  have counts := same.countP_eq fun y => eligible y && decide (score x < score y)
  have reorder : (fun y => isolated conflicts xs y && eligible y && decide (score x < score y)) =
      fun y => (eligible y && decide (score x < score y)) && isolated conflicts xs y := by
    funext y
    rw [Bool.and_assoc, Bool.and_comm]
  rw [List.countP_filter, List.countP_filter, ← reorder] at counts
  exact counts

/-- If no element conflicts with all others, several are kept. -/
theorem one_lt_length_greedy (nonempty : xs ≠ [])
    (undominated : ∀ a ∈ xs, ∃ b ∈ xs, b ≠ a ∧ conflicts a b = false) :
    1 < (greedy conflicts xs).length := by
  by_contra few
  cases xs with
  | nil => exact nonempty rfl
  | cons a xs =>
      have kept := head_mem_greedy conflicts a xs
      obtain ⟨c, single⟩ : ∃ c, greedy conflicts (a :: xs) = [c] :=
        List.length_eq_one_iff.mp (le_antisymm (not_lt.mp few) (List.length_pos_of_mem kept))
      rw [single, List.mem_singleton] at kept
      subst kept
      obtain ⟨b, member, differ, free⟩ := undominated a List.mem_cons_self
      rcases kept_or_blocked conflicts member with other | ⟨y, own, -, conflict⟩
      · rw [single, List.mem_singleton] at other
        exact differ other
      · rw [single, List.mem_singleton] at own
        rw [own, free] at conflict
        cases conflict

/-- A steady choice is that of the best elements without a conflict. -/
theorem Steady.chosen_iff [DecidableEq α] (steady : Steady conflicts eligible score k xs)
    (distinct : xs.Nodup) (symmetric : ∀ a b, conflicts a b = conflicts b a) (nonempty : xs ≠ []) :
    Chosen eligible score k (greedy conflicts xs) x ↔
      Best (fun y => isolated conflicts xs y && eligible y) score k xs x := by
  rw [chosen_iff_best (one_lt_length_greedy nonempty steady.undominated), Best, Best,
    Bool.and_eq_true, ← numBetter_isolated distinct symmetric]
  constructor
  · rintro ⟨kept, able, few⟩
    have better := numBetter_and_le (isolated conflicts xs) eligible score (greedy conflicts xs) x
    refine ⟨mem_of_mem_greedy kept, ⟨?_, able⟩, better.trans_lt few⟩
    by_contra blocked
    have enough := steady.outranked x (mem_of_mem_greedy kept) (Bool.eq_false_iff.mpr blocked) able
    rw [← numBetter_isolated distinct symmetric] at enough
    omega
  · rintro ⟨member, ⟨alone, able⟩, few⟩
    have free := isolated_iff.mp alone
    refine ⟨mem_greedy_of_isolated member fun y other => ?_, able, ?_⟩
    · rw [symmetric]
      exact free y other
    · rw [numBetter_eq_of_kind (isolated conflicts xs)]
      · exact few
      · -- An element with a conflict that is better would itself be outranked.
        intro y kept able higher
        by_contra blocked
        have enough := steady.outranked y (mem_of_mem_greedy kept) (Bool.eq_false_iff.mpr blocked)
          able
        rw [← numBetter_isolated distinct symmetric] at enough
        have fewer : numBetter (fun y => isolated conflicts xs y && eligible y) score
            (greedy conflicts xs) y ≤ _ := numBetter_anti higher.le
        omega

/-- An element that conflicts with the first one is not kept. -/
theorem not_mem_greedy_cons (symmetric : ∀ a b, conflicts a b = conflicts b a)
    (irreflexive : ∀ a, conflicts a a = false) {a b : α} (conflict : conflicts a b = true) :
    b ∉ greedy conflicts (a :: xs) := by
  refine not_mem_greedy symmetric ?_ conflict (head_mem_greedy conflicts a xs)
  rintro rfl
  rw [irreflexive] at conflict
  cases conflict

/-- The choice does not depend on the order of the list. -/
def IgnoresOrder (conflicts : α → α → Bool) (eligible : α → Bool) (score : α → β) (k : ℕ)
    (xs : List α) : Prop :=
  ∀ ys : List α, ys.Perm xs → ∀ x,
    Chosen eligible score k (greedy conflicts ys) x ↔
      Chosen eligible score k (greedy conflicts xs) x

section Necessary

variable [DecidableEq α]

/-- Any element may come first. -/
theorem IgnoresOrder.first (ignores : IgnoresOrder conflicts eligible score k xs) {a : α}
    (member : a ∈ xs) :
    Chosen eligible score k (greedy conflicts (a :: xs.erase a)) x ↔
      Chosen eligible score k (greedy conflicts xs) x :=
  ignores _ (List.perm_cons_erase member).symm x

/-- An element that another one conflicts with is not chosen, if the order does not matter and the
other one can be first. -/
theorem IgnoresOrder.not_chosen (ignores : IgnoresOrder conflicts eligible score k xs)
    (symmetric : ∀ a b, conflicts a b = conflicts b a) (irreflexive : ∀ a, conflicts a a = false)
    {a b : α} (member : a ∈ xs) (conflict : conflicts a b = true) :
    ¬ Chosen eligible score k (greedy conflicts xs) b := fun chosen =>
  not_mem_greedy_cons symmetric irreflexive conflict
    (mem_of_chosen ((ignores.first member).mpr chosen))

/-- An element that conflicts with all others would be chosen alone when it is first. -/
theorem IgnoresOrder.undominated (ignores : IgnoresOrder conflicts eligible score k xs)
    (distinct : xs.Nodup) (symmetric : ∀ a b, conflicts a b = conflicts b a)
    (irreflexive : ∀ a, conflicts a a = false) {c d : α} (first : c ∈ xs) (second : d ∈ xs)
    (conflict : conflicts c d = true) :
    ∀ a ∈ xs, ∃ b ∈ xs, b ≠ a ∧ conflicts a b = false := by
  intro a member
  by_contra dominates
  have others (b : α) (other : b ∈ xs) (differ : b ≠ a) : conflicts a b = true := by
    by_contra free
    exact dominates ⟨b, other, differ, Bool.eq_false_iff.mpr free⟩
  obtain ⟨b, other, differ⟩ : ∃ b ∈ xs, b ≠ a := by
    by_cases own : c = a
    · refine ⟨d, second, fun same => ?_⟩
      rw [own, same, irreflexive] at conflict
      cases conflict
    · exact ⟨c, first, own⟩
  have alone : greedy conflicts (a :: xs.erase a) = [a] := by
    rw [greedy_cons]
    refine keepFrom_eq_kept fun x rest => ?_
    obtain ⟨apart, inside⟩ := (distinct.mem_erase_iff).mp rest
    rw [List.any_cons, others x inside apart, Bool.true_or]
  have chosen : Chosen eligible score k (greedy conflicts (a :: xs.erase a)) a := by
    rw [alone, Chosen, if_pos List.length_singleton.le]
    exact List.mem_singleton.mpr rfl
  have blocked : conflicts b a = true := by
    rw [symmetric]
    exact others b other differ
  exact ignores.not_chosen symmetric irreflexive other blocked ((ignores.first member).mp chosen)

/-- The best of the eligible elements with a conflict would be chosen when it is first, if too few
without a conflict were better. -/
theorem IgnoresOrder.outranked (ignores : IgnoresOrder conflicts eligible score k xs)
    (distinct : xs.Nodup) (symmetric : ∀ a b, conflicts a b = conflicts b a)
    (irreflexive : ∀ a, conflicts a a = false)
    (undominated : ∀ a ∈ xs, ∃ b ∈ xs, b ≠ a ∧ conflicts a b = false) {a : α} (member : a ∈ xs)
    (blocked : isolated conflicts xs a = false) (able : eligible a = true) :
    k ≤ numBetter (fun b => isolated conflicts xs b && eligible b) score xs a := by
  by_contra few
  obtain ⟨w, rival, top⟩ := (xs.filter fun y => !isolated conflicts xs y && eligible y).toFinset
    |>.exists_max_image score ⟨a, by simp [member, blocked, able]⟩
  simp only [List.mem_toFinset, List.mem_filter, Bool.and_eq_true, Bool.not_eq_true'] at rival top
  obtain ⟨inside, conflicted, strong⟩ := rival
  obtain ⟨u, other, conflict⟩ := not_isolated_iff.mp conflicted
  rw [symmetric] at conflict
  refine ignores.not_chosen symmetric irreflexive other conflict ((ignores.first inside).mp ?_)
  have perm := (List.perm_cons_erase inside).symm
  have apart := perm.nodup_iff.mpr distinct
  have several : 1 < (greedy conflicts (w :: xs.erase w)).length := by
    refine one_lt_length_greedy (List.cons_ne_nil _ _) fun c listed => ?_
    obtain ⟨b, found, rest⟩ := undominated c (perm.mem_iff.mp listed)
    exact ⟨b, perm.mem_iff.mpr found, rest⟩
  rw [chosen_iff_best several]
  refine ⟨head_mem_greedy conflicts w _, strong, ?_⟩
  rw [numBetter_eq_of_kind (isolated conflicts (w :: xs.erase w)),
    numBetter_isolated apart symmetric, isolated_perm perm, numBetter_perm perm]
  · exact (numBetter_anti (top a ⟨member, blocked, able⟩)).trans_lt (not_le.mp few)
  · intro y kept able higher
    by_contra worse
    rw [isolated_perm perm] at worse
    have listed := perm.mem_iff.mp (mem_of_mem_greedy kept)
    exact absurd higher (not_lt.mpr (top y ⟨listed, Bool.eq_false_iff.mpr worse, able⟩))

end Necessary

theorem greedy_eq_of_free (free : ∀ a ∈ xs, ∀ b ∈ xs, conflicts a b = false) {ys : List α}
    (perm : ys.Perm xs) : greedy conflicts ys = ys :=
  greedy_eq_self (List.pairwise_of_forall_mem_list fun a first b second =>
    free a (perm.mem_iff.mp first) b (perm.mem_iff.mp second))

/-- **What is kept does not depend on the order exactly when nothing conflicts.** -/
theorem greedy_perm_iff [DecidableEq α] (symmetric : ∀ a b, conflicts a b = conflicts b a)
    (irreflexive : ∀ a, conflicts a a = false) :
    (∀ ys : List α, ys.Perm xs → ∀ x, x ∈ greedy conflicts ys ↔ x ∈ greedy conflicts xs) ↔
      ∀ a ∈ xs, ∀ b ∈ xs, conflicts a b = false := by
  constructor
  · intro same a first b second
    by_contra conflict
    have kept := (same _ (List.perm_cons_erase second).symm b).mp (head_mem_greedy conflicts b _)
    exact not_mem_greedy_cons symmetric irreflexive (Bool.eq_true_of_not_eq_false conflict)
      ((same _ (List.perm_cons_erase first).symm b).mpr kept)
  · intro free ys perm x
    rw [greedy_eq_of_free free perm, greedy_eq_of_free free (.refl xs), perm.mem_iff]

/-- **The choice does not depend on the order exactly when nothing conflicts or it is steady.** -/
theorem ignoresOrder_iff [DecidableEq α] (distinct : xs.Nodup)
    (symmetric : ∀ a b, conflicts a b = conflicts b a) (irreflexive : ∀ a, conflicts a a = false) :
    IgnoresOrder conflicts eligible score k xs ↔
      (∀ a ∈ xs, ∀ b ∈ xs, conflicts a b = false) ∨ Steady conflicts eligible score k xs := by
  constructor
  · intro ignores
    by_cases free : ∀ a ∈ xs, ∀ b ∈ xs, conflicts a b = false
    · exact .inl free
    · right
      push Not at free
      obtain ⟨c, first, d, second, conflict⟩ := free
      have undominated := ignores.undominated distinct symmetric irreflexive first second
        (Bool.eq_true_of_not_eq_false conflict)
      exact ⟨undominated, fun a member blocked able =>
        ignores.outranked distinct symmetric irreflexive undominated member blocked able⟩
  · rintro (free | steady) ys perm x
    · rw [greedy_eq_of_free free perm, greedy_eq_of_free free (.refl xs), chosen_perm perm]
    · by_cases empty : xs = []
      · subst empty
        rw [perm.eq_nil]
      · have nonempty : ys ≠ [] := by
          rintro rfl
          exact empty perm.symm.eq_nil
        rw [(steady.perm perm).chosen_iff (perm.nodup_iff.mpr distinct) symmetric nonempty,
          steady.chosen_iff distinct symmetric empty, isolated_perm perm, Best, Best,
          perm.mem_iff, numBetter_perm perm]

end Pruning

end TradeOS.GreedyIndependence
