import TradeOS.Data.KeepFirst
import Mathlib.Data.List.Induction
import Mathlib.Order.Lattice

/-!
# The latest version of every key

A log of keyed and stamped records is read into a dictionary of versions. A record
with a new key is put at the end; a record of a known key takes the place of the
version there if its stamp is later, and is passed over if it is not.

`version_concat` says what one more record does to the version of a key. When the
stamps of a key increase along the log, its version is its last record
(`version_eq_getLast?_concat`).
-/

set_option autoImplicit false

namespace TradeOS.Latest

open TradeOS.KeepFirst

variable {α κ τ : Type} [DecidableEq κ] [LinearOrder τ] (key : α → κ) (stamp : α → τ)

/-- The versions after one more record. -/
def note (latest : List α) (x : α) : List α :=
  match first key (key x) latest with
  | none => latest ++ [x]
  | some existing =>
      if stamp existing < stamp x then latest.map fun y => if key y = key x then x else y
      else latest

/-- The versions of a log. -/
def versions (log : List α) : List α := log.foldl (note key stamp) []

/-- The version of a key. -/
def version (k : κ) (log : List α) : Option α := first key k (versions key stamp log)

/-- The later of a version, if there is one, and a record. -/
def later (current : Option α) (x : α) : α :=
  match current with
  | none => x
  | some existing => if stamp existing < stamp x then x else existing

variable {key stamp}

/-! ## One more record -/

/-- The version of a key after the record of a known key has taken its place. -/
theorem first_map_replace (latest : List α) (x : α) (k : κ) :
    first key k (latest.map fun y => if key y = key x then x else y) =
      if key x = k then (first key k latest).map fun _ => x else first key k latest := by
  induction latest with
  | nil => simp [first]
  | cons y latest ih =>
      rw [List.map_cons, first_cons, first_cons, ih]
      by_cases own : key y = key x
      · by_cases same : key x = k
        · simp [own, same]
        · simp [own, same]
      · rw [if_neg own]
        by_cases here : key y = k
        · have other : key x ≠ k := fun equal => own (here.trans equal.symm)
          rw [if_pos here, if_pos here, if_neg other]
        · rw [if_neg here, if_neg here]

theorem first_note (latest : List α) (x : α) (k : κ) :
    first key k (note key stamp latest x) =
      if key x = k then some (later stamp (first key k latest) x) else first key k latest := by
  unfold note
  cases found : first key (key x) latest with
  | none =>
      rw [KeepFirst.first_append]
      by_cases own : key x = k
      · subst own
        rw [found, if_pos rfl]
        simp [first, later]
      · rw [if_neg own]
        simp [first, own]
  | some existing =>
      by_cases own : key x = k
      · subst own
        rw [if_pos rfl, found, later]
        dsimp only
        split
        · rw [first_map_replace, if_pos rfl, found]
          rfl
        · exact found
      · rw [if_neg own]
        dsimp only
        split
        · rw [first_map_replace, if_neg own]
        · rfl

theorem map_key_note (latest : List α) (x : α) :
    (note key stamp latest x).map key =
      if (first key (key x) latest).isSome then latest.map key else latest.map key ++ [key x] := by
  unfold note
  cases found : first key (key x) latest with
  | none => simp
  | some existing =>
      rw [Option.isSome_some, if_pos rfl]
      dsimp only
      split
      · rw [List.map_map]
        refine List.map_congr_left ?_
        intro y _
        simp only [Function.comp_apply]
        split
        · rename_i same
          exact same.symm
        · rfl
      · rfl

theorem versions_concat (log : List α) (x : α) :
    versions key stamp (log ++ [x]) = note key stamp (versions key stamp log) x :=
  List.foldl_concat _ _ _ _

/-- **What one more record does to the version of a key.** -/
theorem version_concat (log : List α) (x : α) (k : κ) :
    version key stamp k (log ++ [x]) =
      if key x = k then some (later stamp (version key stamp k log) x)
      else version key stamp k log := by
  unfold version
  rw [versions_concat, first_note]

/-! ## The versions of a log -/

theorem isSome_first_iff (k : κ) (xs : List α) : (first key k xs).isSome ↔ ∃ x ∈ xs, key x = k := by
  rw [first, List.find?_isSome]
  simp

/-- **Every key of the log has one version.** -/
theorem nodup_versions (log : List α) : ((versions key stamp log).map key).Nodup := by
  induction log using List.reverseRecOn with
  | nil => exact List.nodup_nil
  | append_singleton log x ih =>
      rw [versions_concat, map_key_note]
      split
      · exact ih
      · rename_i fresh
        rw [isSome_first_iff] at fresh
        refine ih.append (List.nodup_singleton _) ?_
        intro k member single
        obtain ⟨y, listed, rfl⟩ := List.mem_map.mp member
        exact fresh ⟨y, listed, List.mem_singleton.mp single⟩

/-- The keys of the versions are the keys of the log. -/
theorem mem_map_key_versions (log : List α) (k : κ) :
    k ∈ (versions key stamp log).map key ↔ k ∈ log.map key := by
  induction log using List.reverseRecOn with
  | nil => rfl
  | append_singleton log x ih =>
      rw [versions_concat, map_key_note, List.map_append, List.mem_append, ← ih]
      split
      · rename_i known
        refine ⟨.inl, ?_⟩
        rintro (member | single)
        · exact member
        · obtain rfl : k = key x := by simpa using single
          obtain ⟨y, listed, same⟩ := (isSome_first_iff _ _).mp known
          exact List.mem_map.mpr ⟨y, listed, same⟩
      · rw [List.mem_append]
        rfl

/-- The version of a key stays its last record as long as the stamps increase. -/
theorem version_eq_getLast?_concat {log : List α} {x : α}
    (current : ∀ k, version key stamp k log = (log.filter fun y => key y = k).getLast?)
    (increases : ∀ y, version key stamp (key x) log = some y → stamp y < stamp x) (k : κ) :
    version key stamp k (log ++ [x]) = ((log ++ [x]).filter fun y => key y = k).getLast? := by
  rw [version_concat, List.filter_append]
  by_cases own : key x = k
  · subst own
    have single : [x].filter (fun y => key y = key x) = [x] :=
      List.filter_cons_of_pos (decide_eq_true rfl)
    rw [if_pos rfl, single, List.getLast?_concat]
    cases found : version key stamp (key x) log with
    | none => rfl
    | some y => rw [later, if_pos (increases y found)]
  · rw [if_neg own, List.filter_cons_of_neg (by simpa using own), List.filter_nil, List.append_nil]
    exact current k

end TradeOS.Latest
