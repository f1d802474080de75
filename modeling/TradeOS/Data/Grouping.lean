import Mathlib.Data.List.Induction
import Mathlib.Data.List.Perm.Basic
import Mathlib.Data.List.Nodup

/-!
# Grouping by keys in the order of insertion

A dictionary that keeps its insertion order collects keyed values: a new key is added at
the end, and a value of a known key updates what is stored for it. `tally` runs an
update over a list of keyed values, and `group` is the case where the values themselves
are collected.

What is stored for a key depends on the values of that key alone, in their order
(`tally_eq`). A permutation of the keyed values permutes the keys and the values of every
key, so a report that is made group by group, and does not depend on the order within a
group, is permuted (`flatMap_tally_perm`).
-/

set_option autoImplicit false

namespace TradeOS.Grouping

variable {κ α β γ : Type} [DecidableEq κ]

/-- The dictionary after one keyed value. -/
def update (start : β) (step : β → α → β) (key : κ) (value : α) : List (κ × β) → List (κ × β)
  | [] => [(key, step start value)]
  | (other, total) :: rest =>
      if other = key then (other, step total value) :: rest
      else (other, total) :: update start step key value rest

/-- The dictionary after a list of keyed values. -/
def tally (start : β) (step : β → α → β) (pairs : List (κ × α)) : List (κ × β) :=
  pairs.foldl (fun totals pair => update start step pair.1 pair.2 totals) []

/-- The values of every key. -/
def group (pairs : List (κ × α)) : List (κ × List α) :=
  tally [] (fun values value => values ++ [value]) pairs

/-- The keys, in the order in which they appear first. -/
def keysOf (pairs : List (κ × α)) : List κ :=
  pairs.foldl (fun keys pair => if pair.1 ∈ keys then keys else keys ++ [pair.1]) []

/-- The values of one key. -/
def valuesOf (key : κ) (pairs : List (κ × α)) : List α :=
  (pairs.filter fun pair => pair.1 = key).map Prod.snd

/-! ## Keys -/

theorem keysOf_concat (pairs : List (κ × α)) (pair : κ × α) :
    keysOf (pairs ++ [pair]) =
      if pair.1 ∈ keysOf pairs then keysOf pairs else keysOf pairs ++ [pair.1] := by
  rw [keysOf, List.foldl_append]
  rfl

theorem mem_keysOf_iff {pairs : List (κ × α)} {key : κ} :
    key ∈ keysOf pairs ↔ ∃ pair ∈ pairs, pair.1 = key := by
  induction pairs using List.reverseRecOn with
  | nil => simp [keysOf]
  | append_singleton pairs pair ih =>
      rw [keysOf_concat]
      simp only [List.mem_append, List.mem_singleton, or_and_right, exists_or, exists_eq_left]
      split
      · rename_i known
        rw [ih]
        refine ⟨Or.inl, ?_⟩
        rintro (before | rfl)
        · exact before
        · exact ih.mp known
      · rw [List.mem_append, List.mem_singleton, ih, eq_comm]

theorem nodup_keysOf (pairs : List (κ × α)) : (keysOf pairs).Nodup := by
  induction pairs using List.reverseRecOn with
  | nil => exact List.nodup_nil
  | append_singleton pairs pair ih =>
      rw [keysOf_concat]
      split
      · exact ih
      · rename_i fresh
        rw [List.nodup_append]
        refine ⟨ih, List.nodup_singleton _, ?_⟩
        rintro key known _ last rfl
        exact fresh (List.mem_singleton.mp last ▸ known)

/-- A permutation of the keyed values permutes the keys. -/
theorem keysOf_perm {pairs pairs' : List (κ × α)} (same : pairs.Perm pairs') :
    (keysOf pairs).Perm (keysOf pairs') := by
  rw [List.perm_ext_iff_of_nodup (nodup_keysOf pairs) (nodup_keysOf pairs')]
  intro key
  rw [mem_keysOf_iff, mem_keysOf_iff]
  simp only [same.mem_iff]

/-! ## Values -/

theorem valuesOf_concat (key : κ) (pairs : List (κ × α)) (pair : κ × α) :
    valuesOf key (pairs ++ [pair]) =
      if pair.1 = key then valuesOf key pairs ++ [pair.2] else valuesOf key pairs := by
  rw [valuesOf, List.filter_append, List.map_append, List.filter_cons]
  split
  · rename_i own
    rw [if_pos (of_decide_eq_true own)]
    rfl
  · rename_i other
    rw [if_neg (by simpa using other)]
    exact List.append_nil _

theorem valuesOf_perm (key : κ) {pairs pairs' : List (κ × α)} (same : pairs.Perm pairs') :
    (valuesOf key pairs).Perm (valuesOf key pairs') :=
  (same.filter _).map _

theorem valuesOf_eq_nil {key : κ} {pairs : List (κ × α)} (fresh : key ∉ keysOf pairs) :
    valuesOf key pairs = [] := by
  rw [valuesOf, List.map_eq_nil_iff, List.filter_eq_nil_iff]
  intro pair member own
  exact fresh (mem_keysOf_iff.mpr ⟨pair, member, of_decide_eq_true own⟩)

/-! ## What is stored -/

/-- One keyed value changes what is stored for its key, and adds the key if it is new. -/
theorem update_map (start : β) (step : β → α → β) (key : κ) (value : α) {keys : List κ}
    (distinct : keys.Nodup) (stored : κ → β) (fresh : key ∉ keys → stored key = start) :
    update start step key value (keys.map fun k => (k, stored k)) =
      (if key ∈ keys then keys else keys ++ [key]).map fun k =>
        (k, if k = key then step (stored key) value else stored k) := by
  induction keys with
  | nil => simp [update, fresh List.not_mem_nil]
  | cons first rest ih =>
      obtain ⟨single, distinct'⟩ := List.nodup_cons.mp distinct
      rw [List.map_cons, update]
      by_cases own : first = key
      · subst own
        have others : ∀ k ∈ rest, (k, stored k) =
            (k, if k = first then step (stored first) value else stored k) := by
          intro k member
          have other : k ≠ first := by
            rintro rfl
            exact single member
          rw [if_neg other]
        rw [if_pos rfl, if_pos List.mem_cons_self, List.map_cons, if_pos rfl,
          List.map_congr_left others]
      · have known : key ∈ first :: rest ↔ key ∈ rest := by simp [Ne.symm own]
        rw [if_neg own, ih distinct' fun absent => fresh (mt known.mp absent),
          if_congr known rfl rfl]
        split
        · rw [List.map_cons, if_neg own]
        · rw [List.cons_append, List.map_cons, if_neg own]

/-- **What is stored for a key comes from the values of that key.** -/
theorem tally_eq (start : β) (step : β → α → β) (pairs : List (κ × α)) :
    tally start step pairs =
      (keysOf pairs).map fun key => (key, (valuesOf key pairs).foldl step start) := by
  induction pairs using List.reverseRecOn with
  | nil => rfl
  | append_singleton pairs pair ih =>
      have next : tally start step (pairs ++ [pair]) =
          update start step pair.1 pair.2 (tally start step pairs) := by
        rw [tally, List.foldl_append]
        rfl
      rw [next, ih, update_map start step pair.1 pair.2 (nodup_keysOf pairs) _
        (fun fresh => by rw [valuesOf_eq_nil fresh, List.foldl_nil]), keysOf_concat]
      refine List.map_congr_left ?_
      intro key _
      rw [valuesOf_concat]
      by_cases own : key = pair.1
      · subst own
        rw [if_pos rfl, if_pos rfl, List.foldl_append]
        rfl
      · rw [if_neg own, if_neg (Ne.symm own)]

/-- Collecting the values one by one gives the list of the values. -/
theorem foldl_concat (values : List α) :
    values.foldl (fun values value => values ++ [value]) [] = values := by
  induction values using List.reverseRecOn with
  | nil => rfl
  | append_singleton values value ih =>
      rw [List.foldl_append, ih]
      rfl

/-- The groups are the keys with their values. -/
theorem group_eq (pairs : List (κ × α)) :
    group pairs = (keysOf pairs).map fun key => (key, valuesOf key pairs) := by
  rw [group, tally_eq]
  simp only [foldl_concat]

/-- The values of a key, where an element is listed under the keys of its own entries: the
element is there once for every entry of that key. -/
theorem valuesOf_flatMap (key : κ) (keyOf : γ → κ) (entries : α → List γ) (xs : List α) :
    valuesOf key (xs.flatMap fun x => (entries x).map fun entry => (keyOf entry, x)) =
      xs.flatMap fun x => List.replicate ((entries x).countP fun entry => keyOf entry = key) x := by
  have own : ∀ (x : α) (ys : List γ), valuesOf key (ys.map fun entry => (keyOf entry, x)) =
      List.replicate (ys.countP fun entry => keyOf entry = key) x := by
    intro x ys
    refine List.eq_replicate_iff.mpr ⟨?_, ?_⟩
    · rw [valuesOf, List.length_map, ← List.countP_eq_length_filter, List.countP_map]
      rfl
    · intro y member
      obtain ⟨pair, listed, rfl⟩ := List.mem_map.mp member
      obtain ⟨entry, -, rfl⟩ := List.mem_map.mp (List.mem_filter.mp listed).1
      rfl
  induction xs with
  | nil => rfl
  | cons x xs ih =>
      rw [List.flatMap_cons, List.flatMap_cons, ← ih, ← own x (entries x), valuesOf,
        List.filter_append, List.map_append]
      rfl

/-! ## Reports -/

section Members

variable {pairs : List (κ × α)} {line : γ}

/-- The lines of a report are those of the values of every key, if no values make no line. -/
theorem mem_flatMap_group_iff {report : κ → List α → List γ}
    (silent : ∀ key, report key [] = []) :
    (line ∈ (group pairs).flatMap fun entry => report entry.1 entry.2) ↔
      ∃ key, line ∈ report key (valuesOf key pairs) := by
  rw [group_eq, List.flatMap_map, List.mem_flatMap]
  constructor
  · rintro ⟨key, -, listed⟩
    exact ⟨key, listed⟩
  · rintro ⟨key, listed⟩
    by_cases known : key ∈ keysOf pairs
    · exact ⟨key, known, listed⟩
    · rw [valuesOf_eq_nil known, silent] at listed
      cases listed

/-- The case of at most one line for a group. -/
theorem mem_filterMap_group_iff {report : κ → List α → Option γ}
    (silent : ∀ key, report key [] = none) :
    (line ∈ (group pairs).filterMap fun entry => report entry.1 entry.2) ↔
      ∃ key, report key (valuesOf key pairs) = some line := by
  rw [group_eq, List.filterMap_map, List.mem_filterMap]
  constructor
  · rintro ⟨key, -, made⟩
    exact ⟨key, made⟩
  · rintro ⟨key, made⟩
    by_cases known : key ∈ keysOf pairs
    · exact ⟨key, known, made⟩
    · rw [valuesOf_eq_nil known, silent] at made
      cases made

end Members

section Reports

variable {start : β} {step : β → α → β} {pairs pairs' : List (κ × α)}

/-- **A report made group by group is permuted with the keyed values**, if it does not depend
on the order within a group. -/
theorem flatMap_tally_perm (report : κ → β → List γ)
    (unordered : ∀ key (values values' : List α), values.Perm values' →
      (report key (values.foldl step start)).Perm (report key (values'.foldl step start)))
    (same : pairs.Perm pairs') :
    ((tally start step pairs).flatMap fun entry => report entry.1 entry.2).Perm
      ((tally start step pairs').flatMap fun entry => report entry.1 entry.2) := by
  rw [tally_eq, tally_eq, List.flatMap_map, List.flatMap_map]
  refine List.Perm.flatMap (keysOf_perm same) ?_
  intro key _
  exact unordered key _ _ (valuesOf_perm key same)

/-- The case of at most one line for a group. -/
theorem filterMap_tally_perm (report : κ → β → Option γ)
    (unordered : ∀ key (values values' : List α), values.Perm values' →
      report key (values.foldl step start) = report key (values'.foldl step start))
    (same : pairs.Perm pairs') :
    ((tally start step pairs).filterMap fun entry => report entry.1 entry.2).Perm
      ((tally start step pairs').filterMap fun entry => report entry.1 entry.2) := by
  rw [List.filterMap_eq_flatMap_toList, List.filterMap_eq_flatMap_toList]
  refine flatMap_tally_perm (fun key total => (report key total).toList) ?_ same
  intro key values values' reordered
  rw [unordered key values values' reordered]

/-- The case of the values themselves. -/
theorem flatMap_group_perm (report : κ → List α → List γ)
    (unordered : ∀ key (values values' : List α), values.Perm values' →
      (report key values).Perm (report key values'))
    (same : pairs.Perm pairs') :
    ((group pairs).flatMap fun entry => report entry.1 entry.2).Perm
      ((group pairs').flatMap fun entry => report entry.1 entry.2) := by
  refine flatMap_tally_perm report ?_ same
  intro key values values' reordered
  rw [foldl_concat, foldl_concat]
  exact unordered key values values' reordered

theorem filterMap_group_perm (report : κ → List α → Option γ)
    (unordered : ∀ key (values values' : List α), values.Perm values' →
      report key values = report key values')
    (same : pairs.Perm pairs') :
    ((group pairs).filterMap fun entry => report entry.1 entry.2).Perm
      ((group pairs').filterMap fun entry => report entry.1 entry.2) := by
  refine filterMap_tally_perm report ?_ same
  intro key values values' reordered
  rw [foldl_concat, foldl_concat]
  exact unordered key values values' reordered

end Reports

end TradeOS.Grouping
