import TradeOS.Data.Dictionary

/-!
# Caches over a shared store

A store maps keys to values, and a client keeps a dictionary of what it has read. It fetches a key
that it does not have (`fetch`), fetches a list of keys (`fetchAll`), or starts over with the
values of a list of keys (`load`).

A fetch never replaces what a client has, so a cache may be behind its store. What is in a cache
after a list of fetches is `mem_fetchAll_iff`. A client that starts over has the values of the
store (`load_eq`), and from the keys of a dictionary it gets the dictionary back (`load_lookup`).
-/

set_option autoImplicit false

namespace TradeOS.SharedStore

open Dictionary

variable {κ β : Type} [DecidableEq κ]

/-- The cache after a key was asked for. -/
def fetch (store : κ → Option β) (cache : List (κ × β)) (key : κ) : List (κ × β) :=
  if key ∈ cache.map Prod.fst then cache
  else (store key).elim cache fun value => assign cache (key, value)

/-- The cache after a list of keys was asked for. -/
def fetchAll (store : κ → Option β) (cache : List (κ × β)) (keys : List κ) : List (κ × β) :=
  keys.foldl (fetch store) cache

/-- The cache of a client that starts over with a list of keys. -/
def load (store : κ → Option β) (keys : List κ) : List (κ × β) :=
  keys.foldl (fun cache key => (store key).elim cache fun value => assign cache (key, value)) []

variable {store : κ → Option β} {cache : List (κ × β)}

/-! ## Fetching -/

theorem mem_fetch_iff {key : κ} {entry : κ × β} :
    entry ∈ fetch store cache key ↔
      entry ∈ cache ∨ entry.1 = key ∧ key ∉ cache.map Prod.fst ∧ store key = some entry.2 := by
  unfold fetch
  by_cases known : key ∈ cache.map Prod.fst
  · rw [if_pos known]
    exact ⟨.inl, fun either => either.elim id fun fetched => absurd known fetched.2.1⟩
  · rw [if_neg known]
    cases stored : store key with
    | none => simp
    | some value =>
        rw [Option.elim_some, assign_of_notMem known, List.mem_append, List.mem_singleton]
        refine or_congr_right ⟨?_, ?_⟩
        · rintro rfl
          exact ⟨rfl, known, rfl⟩
        · rintro ⟨own, -, same⟩
          exact Prod.ext own (Option.some.inj same).symm

theorem nodup_fetch (distinct : (cache.map Prod.fst).Nodup) (key : κ) :
    ((fetch store cache key).map Prod.fst).Nodup := by
  unfold fetch
  by_cases known : key ∈ cache.map Prod.fst
  · rwa [if_pos known]
  · rw [if_neg known]
    cases store key with
    | none => exact distinct
    | some value => exact nodup_assign distinct _

/-- **After a list of fetches a cache has what it had, and the values of the keys that it did not
have.** -/
theorem mem_fetchAll_iff {keys : List κ} {entry : κ × β} :
    entry ∈ fetchAll store cache keys ↔
      entry ∈ cache ∨
        entry.1 ∈ keys ∧ entry.1 ∉ cache.map Prod.fst ∧ store entry.1 = some entry.2 := by
  induction keys generalizing cache with
  | nil => simp [fetchAll]
  | cons key keys ih =>
      have keysAfter : ∀ name, name ∈ (fetch store cache key).map Prod.fst ↔
          name ∈ cache.map Prod.fst ∨ name = key ∧ (store key).isSome := by
        intro name
        constructor
        · intro member
          obtain ⟨other, found, rfl⟩ := List.mem_map.mp member
          rcases mem_fetch_iff.mp found with old | ⟨own, -, stored⟩
          · exact .inl (List.mem_map.mpr ⟨other, old, rfl⟩)
          · exact .inr ⟨own, Option.isSome_iff_exists.mpr ⟨_, stored⟩⟩
        · rintro (old | ⟨rfl, some⟩)
          · obtain ⟨other, found, rfl⟩ := List.mem_map.mp old
            exact List.mem_map.mpr ⟨other, mem_fetch_iff.mpr (.inl found), rfl⟩
          · by_cases known : name ∈ cache.map Prod.fst
            · obtain ⟨other, found, rfl⟩ := List.mem_map.mp known
              exact List.mem_map.mpr ⟨other, mem_fetch_iff.mpr (.inl found), rfl⟩
            · obtain ⟨value, stored⟩ := Option.isSome_iff_exists.mp some
              exact List.mem_map.mpr
                ⟨(name, value), mem_fetch_iff.mpr (.inr ⟨rfl, known, stored⟩), rfl⟩
      have unfolded : fetchAll store cache (key :: keys) = fetchAll store (fetch store cache key)
        keys := rfl
      rw [unfolded, ih, mem_fetch_iff, List.mem_cons]
      constructor
      · rintro ((old | ⟨own, new, stored⟩) | ⟨later, new, stored⟩)
        · exact .inl old
        · exact .inr ⟨.inl own, own ▸ new, own ▸ stored⟩
        · exact .inr ⟨.inr later, fun known => new ((keysAfter _).mpr (.inl known)), stored⟩
      · rintro (old | ⟨own | later, new, stored⟩)
        · exact .inl (.inl old)
        · exact .inl (.inr ⟨own, own ▸ new, own ▸ stored⟩)
        · by_cases own : entry.1 = key
          · exact .inl (.inr ⟨own, own ▸ new, own ▸ stored⟩)
          · refine .inr ⟨later, fun known => ?_, stored⟩
            rcases (keysAfter _).mp known with known | ⟨same, -⟩
            · exact new known
            · exact own same

/-! ## Starting over -/

theorem nodup_load (keys : List κ) : ((load store keys).map Prod.fst).Nodup := by
  induction keys using List.reverseRecOn with
  | nil => exact List.nodup_nil
  | append_singleton keys key ih =>
      rw [load, List.foldl_append, List.foldl_cons, List.foldl_nil, ← load]
      cases store key with
      | none => exact ih
      | some value => exact nodup_assign ih _

/-- What a client starts over with is from the store. -/
theorem mem_load {keys : List κ} {entry : κ × β} (member : entry ∈ load store keys) :
    store entry.1 = some entry.2 := by
  induction keys using List.reverseRecOn with
  | nil => exact absurd member List.not_mem_nil
  | append_singleton keys key ih =>
      rw [load, List.foldl_append, List.foldl_cons, List.foldl_nil, ← load] at member
      cases stored : store key with
      | none =>
          rw [stored] at member
          exact ih member
      | some value =>
          rw [stored, Option.elim_some] at member
          have either := mem_assign_iff.mp member
          by_cases own : key = entry.1
          · rw [if_pos own] at either
            rw [← own, stored, either]
          · rw [if_neg own] at either
            exact ih either

/-- **A client that starts over has the value of every key that the store has.** -/
theorem load_eq {keys : List κ} (distinct : keys.Nodup) :
    load store keys = keys.filterMap fun key => (store key).map fun value => (key, value) := by
  induction keys using List.reverseRecOn with
  | nil => rfl
  | append_singleton keys key ih =>
      obtain ⟨before, -, apart⟩ := List.nodup_append.mp distinct
      rw [load, List.foldl_append, ← load, ih before, List.filterMap_append]
      have absent : key ∉ (keys.filterMap fun key =>
          (store key).map fun value => (key, value)).map Prod.fst := by
        intro member
        obtain ⟨entry, found, same⟩ := List.mem_map.mp member
        obtain ⟨other, listed, read⟩ := List.mem_filterMap.mp found
        obtain ⟨value, -, rfl⟩ := Option.map_eq_some_iff.mp read
        exact apart other listed key List.mem_cons_self same
      cases stored : store key with
      | none => simp [stored]
      | some value =>
          rw [List.foldl_cons, List.foldl_nil, stored, Option.elim_some, assign_of_notMem absent]
          simp [stored]

/-- It has the keys in their order, if the store has them all. -/
theorem keys_load {keys : List κ} (distinct : keys.Nodup)
    (stored : ∀ key ∈ keys, (store key).isSome) : (load store keys).map Prod.fst = keys := by
  rw [load_eq distinct, List.map_filterMap]
  have each : ∀ key ∈ keys, ((store key).map fun value => (key, value)).map Prod.fst =
      some key := by
    intro key member
    obtain ⟨value, found⟩ := Option.isSome_iff_exists.mp (stored key member)
    rw [found]
    rfl
  rw [List.filterMap_congr each, List.filterMap_some]

theorem mem_load_iff {keys : List κ} (distinct : keys.Nodup) {key : κ} {value : β} :
    (key, value) ∈ load store keys ↔ (if key ∈ keys then store key else none) = some value := by
  rw [load_eq distinct, List.mem_filterMap]
  constructor
  · rintro ⟨other, listed, read⟩
    obtain ⟨found, stored, same⟩ := Option.map_eq_some_iff.mp read
    cases same
    rw [if_pos listed, stored]
  · intro read
    by_cases listed : key ∈ keys
    · rw [if_pos listed] at read
      exact ⟨key, listed, by rw [read]; rfl⟩
    · rw [if_neg listed] at read
      cases read

theorem lookup_load {keys : List κ} (distinct : keys.Nodup) (key : κ) :
    (load store keys).lookup key = if key ∈ keys then store key else none :=
  lookup_eq_of_mem_iff (fun _ _ => mem_load_iff distinct) key

/-- **The keys of a dictionary give the dictionary back.** -/
theorem load_lookup {dict : List (κ × β)} (distinct : (dict.map Prod.fst).Nodup) :
    load (fun key => dict.lookup key) (dict.map Prod.fst) = dict := by
  rw [load_eq distinct, List.filterMap_map]
  have each : ∀ entry ∈ dict, ((fun key => (dict.lookup key).map fun value => (key, value)) ∘
      Prod.fst) entry = some entry := by
    intro entry member
    rw [Function.comp_apply, (lookup_eq_some_iff distinct).mpr member]
    rfl
  rw [List.filterMap_congr each, List.filterMap_some]

end TradeOS.SharedStore
