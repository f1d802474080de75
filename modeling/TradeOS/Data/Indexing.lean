import TradeOS.Data.Validation

/-!
# Indices, slices and loops over positions

The indexing of Python lists: a negative index counts from the end of the list, and the bounds of
a slice are cut to the list. An index from the front reads the same from a list and from every
extension of it (`item_append_left`, `slice_append_left`); a negative index does not.

`emit` is a loop over positions that appends what some of them yield and may stop at an error.
What it appends in the positions of a shorter range does not depend on the longer one
(`emit_prefix`).
-/

set_option autoImplicit false

namespace TradeOS.Indexing

variable {α β ε : Type}

/-! ## Items and slices -/

/-- `xs[i]`. -/
def item (xs : List α) (i : ℤ) : Option α :=
  if 0 ≤ i then xs[i.toNat]?
  else if 0 ≤ xs.length + i then xs[(xs.length + i).toNat]?
  else none

/-- A bound of a slice of a list of some length. -/
def bound (length : ℕ) (i : ℤ) : ℕ := if 0 ≤ i then min i.toNat length else (length + i).toNat

/-- `xs[start:stop]`. -/
def slice (xs : List α) (start stop : ℤ) : List α :=
  (xs.take (bound xs.length stop)).drop (bound xs.length start)

theorem item_append_left {xs : List α} (ys : List α) {i : ℤ} (nonneg : 0 ≤ i)
    (inside : i < xs.length) : item (xs ++ ys) i = item xs i := by
  rw [item, item, if_pos nonneg, if_pos nonneg]
  exact List.getElem?_append_left (by omega)

/-- A negative index that does not reach beyond the second list reads from it alone. -/
theorem item_append_right {xs ys : List α} {i : ℤ} (negative : i < 0) (inside : -ys.length ≤ i) :
    item (xs ++ ys) i = item ys i := by
  rw [item, item, if_neg (not_le.mpr negative), if_neg (not_le.mpr negative), List.length_append,
    if_pos (by omega), if_pos (by omega), List.getElem?_append_right (by omega)]
  congr 1
  omega

theorem item_eq_some (xs : List α) (i : ℤ) (lower : -xs.length ≤ i) (inside : i < xs.length) :
    ∃ x ∈ xs, item xs i = some x := by
  have found : (if 0 ≤ i then i else xs.length + i).toNat < xs.length := by
    split <;> omega
  refine ⟨_, List.getElem_mem found, ?_⟩
  unfold item
  by_cases front : 0 ≤ i
  · simp only [if_pos front] at found ⊢
    exact List.getElem?_eq_getElem found
  · simp only [if_neg front] at found ⊢
    rw [if_pos (by omega)]
    exact List.getElem?_eq_getElem found

theorem slice_append_left {xs : List α} (ys : List α) {start stop : ℤ} (nonneg : 0 ≤ start)
    (inside : stop ≤ xs.length) (forward : 0 ≤ stop) :
    slice (xs ++ ys) start stop = slice xs start stop := by
  have stops : ∀ length : ℕ, stop ≤ length → bound length stop = stop.toNat := by
    intro length reached
    rw [bound, if_pos forward]
    omega
  have whole : stop ≤ (xs ++ ys).length := by
    rw [List.length_append]
    omega
  rw [slice, slice, stops _ whole, stops _ inside, List.take_append_of_le_length (by omega), bound,
    bound, if_pos nonneg, if_pos nonneg, List.length_append]
  by_cases early : start ≤ xs.length
  · rw [min_eq_left (by omega), min_eq_left (by omega)]
  · have short : (xs.take stop.toNat).length ≤ xs.length := List.length_take_le' ..
    rw [List.drop_eq_nil_of_le (by omega), List.drop_eq_nil_of_le (by omega)]

/-- A slice that starts behind its end is empty. -/
theorem slice_eq_nil {xs : List α} {start stop : ℤ}
    (behind : bound xs.length stop ≤ bound xs.length start) : slice xs start stop = [] := by
  refine List.drop_eq_nil_of_le ?_
  exact (List.length_take_le ..).trans behind

theorem length_slice (xs : List α) (start stop : ℤ) (nonneg : 0 ≤ start)
    (ordered : start ≤ stop) (inside : stop ≤ xs.length) : ((slice xs start stop).length : ℤ) = stop - start := by
  rw [slice, List.length_drop, List.length_take, bound, bound, if_pos nonneg,
    if_pos (nonneg.trans ordered)]
  omega

theorem item_map (f : α → β) (xs : List α) (i : ℤ) : item (xs.map f) i = (item xs i).map f := by
  unfold item
  rw [List.length_map]
  split_ifs
  · exact List.getElem?_map
  · exact List.getElem?_map
  · rfl

theorem slice_map (f : α → β) (xs : List α) (start stop : ℤ) :
    slice (xs.map f) start stop = (slice xs start stop).map f := by
  rw [slice, slice, List.length_map, ← List.map_take, ← List.map_drop]

/-! ## Ranges -/

/-- `range(start, stop)`. -/
def range (start stop : ℤ) : List ℤ :=
  (List.range (stop - start).toNat).map fun step : ℕ => start + step

theorem mem_range_iff {start stop i : ℤ} : i ∈ range start stop ↔ start ≤ i ∧ i < stop := by
  rw [range, List.mem_map]
  constructor
  · rintro ⟨step, member, rfl⟩
    have := List.mem_range.mp member
    omega
  · intro between
    refine ⟨(i - start).toNat, List.mem_range.mpr ?_, ?_⟩ <;> omega

theorem range_append {start middle stop : ℤ} (first : start ≤ middle) (second : middle ≤ stop) :
    range start stop = range start middle ++ range middle stop := by
  have total : (stop - start).toNat = (middle - start).toNat + (stop - middle).toNat := by omega
  rw [range, range, range, total, List.range_add, List.map_append, List.map_map]
  congr 1
  refine List.map_congr_left fun step _ => ?_
  simp only [Function.comp_apply, Nat.cast_add]
  omega

theorem range_cons {start stop : ℤ} (nonempty : start < stop) :
    range start stop = start :: range (start + 1) stop := by
  have one : range start (start + 1) = [start] := by simp [range]
  rw [range_append (show start ≤ start + 1 by omega) (show start + 1 ≤ stop by omega), one]
  rfl

theorem length_range (n : ℕ) : (range 0 n).length = n := by
  rw [range, List.length_map, List.length_range]
  omega

theorem get_range {n k : ℕ} (inside : k < (range 0 n).length) :
    (range 0 n).get ⟨k, inside⟩ = k := by
  simp [range]

/-! ## Tables -/

/-- **A table over the positions of a list holds at a position what was computed there.** -/
theorem item_of_mapM {f : ℤ → Except ε β} {n : ℕ} {ys : List β}
    (made : (range 0 n).mapM f = .ok ys) {i : ℤ} (nonneg : 0 ≤ i) (inside : i < n) :
    ∃ y, item ys i = some y ∧ f i = .ok y := by
  obtain ⟨lengths, entries⟩ := List.forall₂_iff_get.mp (forall₂_of_mapM made)
  have position : i.toNat < (range 0 n).length := by
    rw [length_range]
    omega
  have entry := entries i.toNat position (lengths ▸ position)
  rw [get_range, Int.toNat_of_nonneg nonneg] at entry
  refine ⟨_, ?_, entry⟩
  rw [item, if_pos nonneg]
  exact List.getElem?_eq_getElem _

/-! ## Loops -/

/-- A loop over positions that appends what a position yields, up to the first error. -/
def emit (body : ℤ → Except ε (Option β)) : List ℤ → List (ℤ × β) × Option ε
  | [] => ([], none)
  | i :: rest =>
      match body i with
      | .error error => ([], some error)
      | .ok none => emit body rest
      | .ok (some x) => ((i, x) :: (emit body rest).1, (emit body rest).2)

theorem emit_congr {body other : ℤ → Except ε (Option β)} {positions : List ℤ}
    (same : ∀ i ∈ positions, body i = other i) : emit body positions = emit other positions := by
  induction positions with
  | nil => rfl
  | cons i rest ih =>
      have later := ih fun j member => same j (List.mem_cons_of_mem i member)
      rw [emit, emit, same i List.mem_cons_self, later]

theorem emit_append (body : ℤ → Except ε (Option β)) (first second : List ℤ) :
    emit body (first ++ second) =
      match (emit body first).2 with
      | some error => ((emit body first).1, some error)
      | none => ((emit body first).1 ++ (emit body second).1, (emit body second).2) := by
  induction first with
  | nil => rfl
  | cons i rest ih =>
      rw [List.cons_append, emit, emit]
      cases body i with
      | error error => rfl
      | ok yielded =>
          cases yielded with
          | none => exact ih
          | some x =>
              simp only
              rw [ih]
              cases (emit body rest).2 with
              | none => rfl
              | some error => rfl

/-- A loop whose body raises nothing appends what the positions yield. -/
theorem emit_of_ok {body : ℤ → Except ε (Option β)} {yield : ℤ → Option β} {positions : List ℤ}
    (total : ∀ i ∈ positions, body i = .ok (yield i)) :
    emit body positions = (positions.filterMap fun i => (yield i).map fun x => (i, x), none) := by
  induction positions with
  | nil => rfl
  | cons i rest ih =>
      have later := ih fun j member => total j (List.mem_cons_of_mem i member)
      rw [emit, total i List.mem_cons_self, List.filterMap_cons]
      cases yield i with
      | none => exact later
      | some x =>
          simp only [later]
          rfl

/-- Two loops append the same exactly if every position yields the same. -/
theorem filterMap_positions_eq_iff {positions : List ℤ} {f g : ℤ → Option β} :
    (positions.filterMap fun i => (f i).map fun x => (i, x)) =
        (positions.filterMap fun i => (g i).map fun x => (i, x)) ↔
      ∀ i ∈ positions, f i = g i := by
  have mem_iff : ∀ (h : ℤ → Option β) (i : ℤ) (x : β),
      (i, x) ∈ positions.filterMap (fun i => (h i).map fun x => (i, x)) ↔
        i ∈ positions ∧ h i = some x := by
    intro h i x
    rw [List.mem_filterMap]
    constructor
    · rintro ⟨j, member, tagged⟩
      obtain ⟨y, found, same⟩ := Option.map_eq_some_iff.mp tagged
      cases same
      exact ⟨member, found⟩
    · rintro ⟨member, found⟩
      exact ⟨i, member, by rw [found]; rfl⟩
  constructor
  · intro same i member
    refine Option.ext fun x => ?_
    have listed := mem_iff f i x
    rw [same, mem_iff g, and_iff_right member, and_iff_right member] at listed
    exact listed.symm
  · intro same
    exact List.filterMap_congr fun i member => by rw [same i member]

/-- A loop ends without an error exactly if no position raises one. -/
theorem emit_ends_iff {body : ℤ → Except ε (Option β)} {positions : List ℤ} :
    (emit body positions).2 = none ↔ ∀ i ∈ positions, ∃ yielded, body i = .ok yielded := by
  induction positions with
  | nil => exact iff_of_true rfl fun i member => absurd member List.not_mem_nil
  | cons i rest ih =>
      rw [List.forall_mem_cons, ← ih, emit]
      cases body i with
      | error error => exact iff_of_false nofun fun ⟨⟨_, absurdity⟩, _⟩ => nomatch absurdity
      | ok yielded =>
          cases yielded with
          | none => exact (and_iff_right ⟨_, rfl⟩).symm
          | some x => exact (and_iff_right ⟨_, rfl⟩).symm

theorem mem_of_emit {body : ℤ → Except ε (Option β)} {positions : List ℤ} {entry : ℤ × β}
    (emitted : entry ∈ (emit body positions).1) : entry.1 ∈ positions := by
  induction positions with
  | nil => cases emitted
  | cons i rest ih =>
      rw [emit] at emitted
      split at emitted
      · cases emitted
      · exact List.mem_cons_of_mem i (ih emitted)
      · rcases List.mem_cons.mp emitted with rfl | later
        · exact List.mem_cons_self
        · exact List.mem_cons_of_mem i (ih later)

/-- **Two loops that agree up to a position append the same in the positions before it**, and an
error of the shorter one is the error of the longer one. -/
theorem emit_prefix {body other : ℤ → Except ε (Option β)} {start middle stop : ℤ}
    (same : ∀ i, start ≤ i → i < middle → body i = other i) (first : start ≤ middle)
    (second : middle ≤ stop) :
    (emit body (range start stop)).1.filter (fun entry => entry.1 < middle) =
        (emit other (range start middle)).1 ∧
      ∀ error, (emit other (range start middle)).2 = some error →
        (emit body (range start stop)).2 = some error := by
  have early : emit body (range start middle) = emit other (range start middle) :=
    emit_congr fun i member => by
      obtain ⟨lower, upper⟩ := mem_range_iff.mp member
      exact same i lower upper
  have kept : (emit other (range start middle)).1.filter (fun entry => entry.1 < middle) =
      (emit other (range start middle)).1 := by
    refine List.filter_eq_self.mpr fun entry emitted => ?_
    exact decide_eq_true (mem_range_iff.mp (mem_of_emit emitted)).2
  have dropped : (emit body (range middle stop)).1.filter (fun entry => entry.1 < middle) = [] := by
    refine List.filter_eq_nil_iff.mpr fun entry emitted => ?_
    have late := (mem_range_iff.mp (mem_of_emit emitted)).1
    simpa using late
  rw [range_append first second, emit_append, early]
  cases stopped : (emit other (range start middle)).2 with
  | some error => exact ⟨kept, fun other same => same⟩
  | none =>
      refine ⟨?_, nofun⟩
      rw [List.filter_append, kept, dropped, List.append_nil]

end TradeOS.Indexing
