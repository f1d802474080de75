import TradeOS.Data.LastWrite
import Mathlib.Data.List.Nodup

/-!
# Dictionaries as lists of entries

An assignment to a key of a dictionary takes the place of the entry of the key, or is put at the
end if there is none. Which entries are there does not depend on their order
(`mem_assign_iff`): after a list of assignments a key has the last value assigned to it
(`mem_update_iff`), and this is what a lookup finds (`lookup_eq_of_mem_iff`). The keys are in the
order in which they were assigned first (`pairwise_keys_update`).
-/

set_option autoImplicit false

namespace TradeOS.Dictionary

open LastWrite

variable {κ β : Type} [DecidableEq κ]

/-- The dictionary after an assignment. -/
def assign (dict : List (κ × β)) (entry : κ × β) : List (κ × β) :=
  if ∃ other ∈ dict, other.1 = entry.1 then
    dict.map fun other => if other.1 = entry.1 then entry else other
  else dict ++ [entry]

/-- The dictionary after a list of assignments. -/
def update (dict entries : List (κ × β)) : List (κ × β) := entries.foldl assign dict

theorem update_concat (dict entries : List (κ × β)) (entry : κ × β) :
    update dict (entries ++ [entry]) = assign (update dict entries) entry := by
  rw [update, List.foldl_append]
  rfl

/-- The value of a key in a list of assignments. -/
def assigned (entries : List (κ × β)) (key : κ) : Option β :=
  lastWrite (fun entry => if entry.1 = key then some entry.2 else none) entries

theorem assigned_concat (entries : List (κ × β)) (entry : κ × β) (key : κ) :
    assigned (entries ++ [entry]) key =
      if entry.1 = key then some entry.2 else assigned entries key := by
  rw [assigned, lastWrite_concat]
  by_cases same : entry.1 = key
  · rw [if_pos same, if_pos same, Option.some_or]
  · rw [if_neg same, if_neg same, Option.none_or]
    rfl

/-- The value of a key is the one of an assignment to it with none to it behind. -/
theorem assigned_eq_some_iff {entries : List (κ × β)} {key : κ} {value : β} :
    assigned entries key = some value ↔ ∃ before after,
      entries = before ++ (key, value) :: after ∧ ∀ later ∈ after, later.1 ≠ key := by
  constructor
  · intro last
    induction entries using List.reverseRecOn with
    | nil => cases last
    | append_singleton entries entry ih =>
        rw [assigned_concat] at last
        split_ifs at last with own
        · refine ⟨entries, [], ?_, nofun⟩
          rw [← own, ← Option.some.inj last]
        · obtain ⟨before, after, split, last⟩ := ih last
          refine ⟨before, after ++ [entry], by rw [split]; simp, fun later member => ?_⟩
          rcases List.mem_append.mp member with earlier | final
          · exact last later earlier
          · rwa [List.mem_singleton.mp final]
  · rintro ⟨before, after, rfl, last⟩
    have silent : lastWrite (fun entry : κ × β => if entry.1 = key then some entry.2 else none)
        after = none :=
      lastWrite_eq_none_iff.mpr fun later member => if_neg (last later member)
    rw [assigned, lastWrite_append, ← List.singleton_append, lastWrite_append, silent,
      lastWrite_singleton, if_pos rfl]
    rfl

/-- **An assignment changes the entry of its key and no other.** -/
theorem mem_assign_iff {dict : List (κ × β)} {entry : κ × β} {key : κ} {value : β} :
    (key, value) ∈ assign dict entry ↔
      if entry.1 = key then value = entry.2 else (key, value) ∈ dict := by
  unfold assign
  split_ifs with known own own
  · obtain ⟨other, member, same⟩ := known
    constructor
    · intro listed
      obtain ⟨found, -, replaced⟩ := List.mem_map.mp listed
      split_ifs at replaced with here
      · rw [replaced]
      · rw [replaced, own] at here
        exact absurd rfl here
    · rintro rfl
      refine List.mem_map.mpr ⟨other, member, ?_⟩
      rw [if_pos same, ← own]
  · constructor
    · intro listed
      obtain ⟨found, member, replaced⟩ := List.mem_map.mp listed
      split_ifs at replaced with here
      · rw [replaced] at own
        exact absurd rfl own
      · rwa [← replaced]
    · intro member
      exact List.mem_map.mpr ⟨(key, value), member, if_neg fun same => own same.symm⟩
  · rw [List.mem_append, List.mem_singleton]
    constructor
    · rintro (member | same)
      · exact absurd ⟨_, member, own.symm⟩ known
      · rw [← same]
    · rintro rfl
      exact .inr (by rw [← own])
  · rw [List.mem_append, List.mem_singleton]
    refine or_iff_left fun same => own ?_
    rw [← same]

/-- **After a list of assignments every key has its last value.** -/
theorem mem_update_iff {entries : List (κ × β)} {key : κ} {value : β} :
    (key, value) ∈ update [] entries ↔ assigned entries key = some value := by
  induction entries using List.reverseRecOn with
  | nil => exact iff_of_false List.not_mem_nil nofun
  | append_singleton entries entry ih =>
      rw [update_concat, assigned_concat, mem_assign_iff]
      split_ifs with own
      · rw [Option.some.injEq, eq_comm]
      · exact ih

/-- A dictionary whose values are made from the keys. -/
theorem mem_update_map_iff {keys : List κ} {f : κ → β} {key : κ} {value : β} :
    (key, value) ∈ update [] (keys.map fun key => (key, f key)) ↔ key ∈ keys ∧ value = f key := by
  induction keys using List.reverseRecOn with
  | nil => exact iff_of_false List.not_mem_nil fun both => List.not_mem_nil both.1
  | append_singleton keys last ih =>
      rw [List.map_append, List.map_singleton, update_concat, mem_assign_iff, List.mem_append,
        List.mem_singleton]
      split_ifs with own
      · rw [← own]
        exact (and_iff_right (.inr rfl)).symm
      · rw [ih, or_iff_left (Ne.symm own)]

/-- The keys of a dictionary stay distinct. -/
theorem nodup_assign {dict : List (κ × β)} (distinct : (dict.map Prod.fst).Nodup)
    (entry : κ × β) : ((assign dict entry).map Prod.fst).Nodup := by
  unfold assign
  split_ifs with known
  · have keys : (dict.map fun other => if other.1 = entry.1 then entry else other).map Prod.fst =
        dict.map Prod.fst := by
      rw [List.map_map]
      refine List.map_congr_left fun other _ => ?_
      rw [Function.comp_apply]
      split_ifs with same
      · exact same.symm
      · rfl
    rwa [keys]
  · rw [List.map_append, List.map_singleton]
    refine List.Nodup.append distinct (List.nodup_singleton _) fun key here there => known ?_
    obtain ⟨other, member, rfl⟩ := List.mem_map.mp here
    exact ⟨other, member, List.mem_singleton.mp there⟩

theorem nodup_update (entries : List (κ × β)) : ((update [] entries).map Prod.fst).Nodup := by
  induction entries using List.reverseRecOn with
  | nil => exact List.nodup_nil
  | append_singleton entries entry ih =>
      rw [update_concat]
      exact nodup_assign ih entry

/-- A dictionary with distinct keys. -/
structure Dict (κ β : Type) where
  entries : List (κ × β)
  nodup : (entries.map Prod.fst).Nodup

/-- The dictionary of a list of assignments. -/
def Dict.of (entries : List (κ × β)) : Dict κ β := ⟨update [] entries, nodup_update entries⟩

/-- A lookup finds what the entries say, if they say one thing for every key. -/
theorem lookup_eq_of_mem_iff {dict : List (κ × β)} {read : κ → Option β}
    (entries : ∀ key value, (key, value) ∈ dict ↔ read key = some value) (key : κ) :
    dict.lookup key = read key := by
  cases found : dict.lookup key with
  | none =>
      rw [List.lookup_eq_none_iff] at found
      refine (Option.eq_none_iff_forall_ne_some.mpr fun value stored => ?_).symm
      have silent := found _ ((entries key value).mpr stored)
      exact absurd silent (by simp)
  | some value =>
      obtain ⟨before, after, split, -⟩ := List.lookup_eq_some_iff.mp found
      refine ((entries key value).mp ?_).symm
      rw [split]
      exact List.mem_append_right _ List.mem_cons_self

/-! ## Keys and lookups -/

theorem assign_of_notMem {dict : List (κ × β)} {entry : κ × β}
    (absent : entry.1 ∉ dict.map Prod.fst) : assign dict entry = dict ++ [entry] := by
  refine if_neg ?_
  rintro ⟨other, member, same⟩
  exact absent (List.mem_map.mpr ⟨other, member, same⟩)

/-- The keys after an assignment. -/
theorem keys_assign (dict : List (κ × β)) (entry : κ × β) :
    (assign dict entry).map Prod.fst =
      if entry.1 ∈ dict.map Prod.fst then dict.map Prod.fst
      else dict.map Prod.fst ++ [entry.1] := by
  by_cases known : entry.1 ∈ dict.map Prod.fst
  · rw [if_pos known]
    obtain ⟨other, member, same⟩ := List.mem_map.mp known
    rw [assign, if_pos ⟨other, member, same⟩, List.map_map]
    refine List.map_congr_left fun other _ => ?_
    rw [Function.comp_apply]
    by_cases here : other.1 = entry.1
    · rw [if_pos here, here]
    · rw [if_neg here]
  · rw [if_neg known, assign_of_notMem known, List.map_append]
    rfl

theorem mem_keys_assign {dict : List (κ × β)} {entry : κ × β} {key : κ} :
    key ∈ (assign dict entry).map Prod.fst ↔ key = entry.1 ∨ key ∈ dict.map Prod.fst := by
  rw [keys_assign]
  by_cases known : entry.1 ∈ dict.map Prod.fst
  · rw [if_pos known]
    refine ⟨.inr, fun either => either.elim (fun same => ?_) id⟩
    rwa [same]
  · rw [if_neg known, List.mem_append, List.mem_singleton, or_comm]

/-- A lookup fails on the keys that are not there. -/
theorem lookup_eq_none_iff_notMem {dict : List (κ × β)} {key : κ} :
    dict.lookup key = none ↔ key ∉ dict.map Prod.fst := by
  rw [List.lookup_eq_none_iff]
  constructor
  · intro silent member
    obtain ⟨entry, listed, rfl⟩ := List.mem_map.mp member
    simpa using silent entry listed
  · intro absent entry listed
    simp only [bne_iff_ne]
    rintro rfl
    exact absent (List.mem_map.mpr ⟨entry, listed, rfl⟩)

theorem mem_keys_of_lookup {dict : List (κ × β)} {key : κ} {value : β}
    (found : dict.lookup key = some value) : key ∈ dict.map Prod.fst := by
  by_contra absent
  rw [lookup_eq_none_iff_notMem.mpr absent] at found
  cases found

/-- A lookup in a dictionary with distinct keys finds its entries. -/
theorem lookup_eq_some_iff {dict : List (κ × β)} (distinct : (dict.map Prod.fst).Nodup) {key : κ}
    {value : β} : dict.lookup key = some value ↔ (key, value) ∈ dict := by
  induction dict with
  | nil => simp
  | cons entry rest ih =>
      obtain ⟨name, first⟩ := entry
      rw [List.map_cons, List.nodup_cons] at distinct
      by_cases here : key = name
      · subst here
        rw [List.lookup_cons_self, List.mem_cons]
        constructor
        · intro same
          rw [Option.some.inj same]
          exact .inl rfl
        · rintro (same | later)
          · rw [(Prod.mk.inj same).2]
          · exact absurd (List.mem_map.mpr ⟨_, later, rfl⟩) distinct.1
      · have other : (key == name) = false := beq_eq_false_iff_ne.mpr here
        rw [List.lookup_cons, other, ih distinct.2, List.mem_cons]
        exact (or_iff_right fun same => here (Prod.mk.inj same).1).symm

theorem lookup_assign (dict : List (κ × β)) (distinct : (dict.map Prod.fst).Nodup)
    (entry : κ × β) (key : κ) :
    (assign dict entry).lookup key =
      if entry.1 = key then some entry.2 else dict.lookup key := by
  refine Option.ext fun value => ?_
  rw [lookup_eq_some_iff (nodup_assign distinct entry), mem_assign_iff]
  by_cases own : entry.1 = key
  · rw [if_pos own, if_pos own, Option.some.injEq, eq_comm]
  · rw [if_neg own, if_neg own, lookup_eq_some_iff distinct]

/-- **A dictionary built by assignments looks up what was assigned last.** -/
theorem lookup_update (entries : List (κ × β)) (key : κ) :
    (update [] entries).lookup key = assigned entries key :=
  lookup_eq_of_mem_iff (fun _ _ => mem_update_iff) key

/-! ## The order of the keys -/

theorem mem_keys_update {entries : List (κ × β)} {key : κ} :
    key ∈ (update [] entries).map Prod.fst ↔ key ∈ entries.map Prod.fst := by
  induction entries using List.reverseRecOn with
  | nil => rfl
  | append_singleton entries entry ih =>
      rw [update_concat, mem_keys_assign, ih, List.map_append, List.mem_append, or_comm]
      exact or_congr_right List.mem_singleton.symm

/-- The keys are in the order in which they were assigned first. -/
theorem pairwise_keys_update (entries : List (κ × β)) :
    ((update [] entries).map Prod.fst).Pairwise fun first second =>
      (entries.map Prod.fst).idxOf first < (entries.map Prod.fst).idxOf second := by
  induction entries using List.reverseRecOn with
  | nil => exact .nil
  | append_singleton entries entry ih =>
      have still : ((update [] entries).map Prod.fst).Pairwise fun first second =>
          ((entries ++ [entry]).map Prod.fst).idxOf first <
            ((entries ++ [entry]).map Prod.fst).idxOf second := by
        refine ih.imp_of_mem fun inFirst inSecond earlier => ?_
        rw [List.map_append, List.idxOf_append_of_mem (mem_keys_update.mp inFirst),
          List.idxOf_append_of_mem (mem_keys_update.mp inSecond)]
        exact earlier
      rw [update_concat, keys_assign]
      split
      · exact still
      · next unknown =>
          refine List.pairwise_append.mpr ⟨still, List.pairwise_singleton _ _, ?_⟩
          intro first inFirst second inSecond
          rw [List.mem_singleton.mp inSecond, List.map_append,
            List.idxOf_append_of_mem (mem_keys_update.mp inFirst),
            List.idxOf_append_of_notMem fun known => unknown (mem_keys_update.mpr known)]
          exact Nat.lt_add_right _ (List.idxOf_lt_length_iff.mpr (mem_keys_update.mp inFirst))

end TradeOS.Dictionary
