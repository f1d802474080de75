import TradeOS.Data.SharedStore

/-!
# Dictionaries over dictionaries

Assignments to a dictionary that is there already overlay it: they win where they say something
(`lookup_overlay`), and their new keys come behind. It makes no difference whether the assignments
are made one by one or collected in a dictionary first (`update_update`).
-/

set_option autoImplicit false

namespace TradeOS.Dictionary

open SharedStore LastWrite

variable {κ β : Type} [DecidableEq κ]

/-- A dictionary is known by its keys, in order, and its lookups. -/
theorem eq_of_keys_of_lookup {first second : List (κ × β)} (distinct : (first.map Prod.fst).Nodup)
    (keys : first.map Prod.fst = second.map Prod.fst)
    (lookups : ∀ key, first.lookup key = second.lookup key) : first = second := by
  have others : (second.map Prod.fst).Nodup := keys ▸ distinct
  rw [← load_lookup distinct, ← load_lookup others, keys]
  apply congrArg (fun store => load store (second.map Prod.fst))
  funext key
  exact lookups key

/-! ## Keys -/

/-- The keys after an assignment to a key. -/
def addKey (keys : List κ) (key : κ) : List κ := if key ∈ keys then keys else keys ++ [key]

theorem keys_overlay (dict entries : List (κ × β)) :
    (update dict entries).map Prod.fst =
      (entries.map Prod.fst).foldl addKey (dict.map Prod.fst) := by
  induction entries using List.reverseRecOn with
  | nil => rfl
  | append_singleton entries entry ih =>
      rw [update_concat, keys_assign, ih, List.map_append, List.foldl_append]
      rfl

theorem mem_foldl_addKey {keys added : List κ} {key : κ} :
    key ∈ added.foldl addKey keys ↔ key ∈ keys ∨ key ∈ added := by
  induction added using List.reverseRecOn with
  | nil => simp
  | append_singleton added last ih =>
      rw [List.foldl_append, List.mem_append, ← or_assoc, ← ih]
      change key ∈ addKey (added.foldl addKey keys) last ↔ _
      unfold addKey
      split
      · next known =>
          refine ⟨.inl, fun either => either.elim id fun same => ?_⟩
          rwa [List.mem_singleton.mp same]
      · exact List.mem_append

/-- Keys that are added twice are added once. -/
theorem foldl_addKey_foldl (keys added : List κ) :
    (added.foldl addKey []).foldl addKey keys = added.foldl addKey keys := by
  induction added using List.reverseRecOn with
  | nil => rfl
  | append_singleton added last ih =>
      rw [List.foldl_append, List.foldl_append]
      change (addKey (added.foldl addKey []) last).foldl addKey keys =
        addKey (added.foldl addKey keys) last
      by_cases known : last ∈ added.foldl addKey []
      · have later : last ∈ added.foldl addKey keys := by
          rw [← ih]
          exact mem_foldl_addKey.mpr (.inr known)
        rw [addKey, if_pos known, ih, addKey, if_pos later]
      · rw [addKey, if_neg known, List.foldl_append, ih]
        rfl

/-! ## Values that name their keys -/

section Named

variable {f : β → κ}

/-- A dictionary of values under their own keys has each value under its key. -/
theorem key_of_mem_update {values : List β} {entry : κ × β}
    (member : entry ∈ update [] (values.map fun value => (f value, value))) :
    f entry.2 = entry.1 := by
  obtain ⟨before, after, split, -⟩ := assigned_eq_some_iff.mp (mem_update_iff.mp member)
  have listed : (entry.1, entry.2) ∈ values.map fun value => (f value, value) := by
    rw [split]
    exact List.mem_append_right _ List.mem_cons_self
  obtain ⟨value, -, same⟩ := List.mem_map.mp listed
  obtain ⟨key, own⟩ := Prod.mk.inj same
  rw [← key, ← own]

omit [DecidableEq κ] in
/-- The values under their keys are the dictionary. -/
theorem map_values {dict : List (κ × β)} (named : ∀ entry ∈ dict, f entry.2 = entry.1) :
    (dict.map Prod.snd).map (fun value => (f value, value)) = dict := by
  rw [List.map_map]
  refine (List.map_congr_left fun entry member => ?_).trans (List.map_id dict)
  exact Prod.ext (named entry member) rfl

/-- A search for a value by its key is a lookup. -/
theorem find?_values {dict : List (κ × β)} (named : ∀ entry ∈ dict, f entry.2 = entry.1)
    (key : κ) : ((dict.map Prod.snd).find? fun value => f value = key) = dict.lookup key := by
  induction dict with
  | nil => rfl
  | cons entry rest ih =>
      have own := named entry List.mem_cons_self
      rw [List.map_cons, List.find?_cons, own, List.lookup_cons,
        ih fun other member => named other (List.mem_cons_of_mem _ member)]
      by_cases here : entry.1 = key
      · rw [decide_eq_true here, beq_iff_eq.mpr here.symm]
      · rw [decide_eq_false here, beq_eq_false_iff_ne.mpr (Ne.symm here)]

/-- The value assigned last is the last one of its key. -/
theorem assigned_values (values : List β) (key : κ) :
    assigned (values.map fun value => (f value, value)) key =
      lastWhere (fun value => f value = key) values := by
  rw [assigned, lastWrite, List.filterMap_map]
  rfl

end Named

/-! ## Overlays -/

/-- A dictionary, read as a list of assignments, is itself. -/
theorem assigned_of_nodup {dict : List (κ × β)} (distinct : (dict.map Prod.fst).Nodup) (key : κ) :
    assigned dict key = dict.lookup key := by
  induction dict using List.reverseRecOn with
  | nil => rfl
  | append_singleton dict entry ih =>
      rw [List.map_append] at distinct
      obtain ⟨before, -, apart⟩ := List.nodup_append.mp distinct
      have absent : entry.1 ∉ dict.map Prod.fst :=
        fun known => apart _ known _ (List.mem_map.mpr ⟨entry, List.mem_singleton.mpr rfl, rfl⟩) rfl
      rw [assigned_concat, ih before, ← assign_of_notMem absent, lookup_assign dict before]

section Overlays

variable {dict : List (κ × β)} (distinct : (dict.map Prod.fst).Nodup) (entries : List (κ × β))

include distinct

theorem nodup_overlay : ((update dict entries).map Prod.fst).Nodup := by
  induction entries using List.reverseRecOn with
  | nil => exact distinct
  | append_singleton entries entry ih =>
      rw [update_concat]
      exact nodup_assign ih entry

/-- The assignments win, and what they leave alone is as it was. -/
theorem lookup_overlay (key : κ) :
    (update dict entries).lookup key = (assigned entries key).or (dict.lookup key) := by
  induction entries using List.reverseRecOn with
  | nil => rfl
  | append_singleton entries entry ih =>
      rw [update_concat, lookup_assign _ (nodup_overlay distinct entries), ih, assigned_concat]
      split <;> rfl

/-- **Assignments can be collected in a dictionary first.** -/
theorem update_update : update dict (update [] entries) = update dict entries := by
  have collected := nodup_update entries
  refine eq_of_keys_of_lookup (nodup_overlay distinct _) ?_ fun key => ?_
  · rw [keys_overlay, keys_overlay, keys_overlay, List.map_nil, foldl_addKey_foldl]
  · rw [lookup_overlay distinct, lookup_overlay distinct, assigned_of_nodup collected,
      lookup_update]

end Overlays

end TradeOS.Dictionary
