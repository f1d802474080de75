import TradeOS.Data.Chain
import TradeOS.Data.Latest
import Mathlib.Data.List.Sort

/-!
# The strategy registry

`StrategyRegistry` keeps its records in files by date and only appends. The current
version of a strategy is found by reading all files and comparing the registration
times, where a later record counts only if its time is strictly later. A status change
copies the current version, gives it the readings of the clock and appends it.

With equal readings of the clock the appended record is not the one that is read:
`read_your_writes_iff` says which calls read their own record back. A deprecated
strategy can be deactivated, and activated from there: `deprecation_permanent_iff`
says in which runs a deprecated strategy stays deprecated.

The other fields of a record are copied along, so they are one component here. Points
in time have two views, the date that names a file and the value of `timestamp`.
-/

set_option autoImplicit false

namespace TradeOS.Strategy

open TradeOS.Chain TradeOS.KeepFirst

/-! ## Records -/

/-- The status of a strategy. -/
inductive StrategyStatus where
  | candidate
  | active
  | inactive
  | deprecated
  deriving DecidableEq

/-- A record of a strategy. -/
structure StrategySpec (μ δ : Type) where
  strategyId : String
  status : StrategyStatus := .candidate
  registeredAt : μ
  activatedAt : Option μ := none
  deactivatedAt : Option μ := none
  deprecationReason : Option String := none
  details : δ
  deriving DecidableEq

/-- What the registry gets from outside: the successive readings of the clock, the date
and the timestamp of a point in time, and what a record is read back as from its JSON
line, if it is valid. -/
structure Host (μ δ : Type) where
  utcnow : ℕ → μ
  date : μ → ℕ
  timestamp : μ → ℤ
  readBack : StrategySpec μ δ → Option (StrategySpec μ δ)

variable {μ δ : Type}

namespace Host

variable (host : Host μ δ)

/-- JSON round-trips: a record is read back as it was written. -/
def RoundTrips : Prop := ∀ spec, host.readBack spec = some spec

/-- The clock does not go back: its readings come in the order of their dates. -/
structure NonDecreasing : Prop where
  date : ∀ m n, m ≤ n → host.date (host.utcnow m) ≤ host.date (host.utcnow n)

/-- The clock goes forward at every reading, in the timestamps that versions are
compared by. The timestamp of a naive reading is that of the local time it shows, so
where local time skips an hour a later reading can have an earlier timestamp. -/
structure Increasing : Prop where
  date : ∀ m n, m ≤ n → host.date (host.utcnow m) ≤ host.date (host.utcnow n)
  timestamp : ∀ m n, m < n → host.timestamp (host.utcnow m) < host.timestamp (host.utcnow n)

theorem Increasing.nonDecreasing {host : Host μ δ} (clock : host.Increasing) :
    host.NonDecreasing where
  date := clock.date

/-- The time that versions are compared by. -/
def stamp (spec : StrategySpec μ δ) : ℤ := host.timestamp spec.registeredAt

end Host

/-! ## The registry -/

/-- The registry: the records with the dates of their files, in the order in which they
were appended, and the number of readings of the clock so far. -/
structure Registry (μ δ : Type) where
  entries : List (ℕ × StrategySpec μ δ)
  reads : ℕ

namespace Registry

/-- A registry without files. -/
def empty : Registry μ δ := ⟨[], 0⟩

variable (host : Host μ δ)

/-- `_append`: the record goes to the file of the date. -/
def append (registry : Registry μ δ) (spec : StrategySpec μ δ) : Registry μ δ where
  entries := registry.entries ++ [(host.date (host.utcnow registry.reads), spec)]
  reads := registry.reads + 1

/-- `read_all`: the files in the order of their names, each from its start. -/
def readAll (registry : Registry μ δ) : List (StrategySpec μ δ) :=
  ((registry.entries.insertionSort fun entry other => entry.1 ≤ other.1).map
    Prod.snd).filterMap host.readBack

/-- `_latest_versions`. -/
def latestVersions (registry : Registry μ δ) : List (StrategySpec μ δ) :=
  Latest.versions StrategySpec.strategyId host.stamp (registry.readAll host)

/-- `get`. -/
def get (registry : Registry μ δ) (strategyId : String) : Option (StrategySpec μ δ) :=
  first StrategySpec.strategyId strategyId (registry.latestVersions host)

/-- `list_all`. -/
def listAll (registry : Registry μ δ) : List (StrategySpec μ δ) := registry.latestVersions host

/-- `list_by_status`. -/
def listByStatus (registry : Registry μ δ) (status : StrategyStatus) : List (StrategySpec μ δ) :=
  (registry.latestVersions host).filter fun spec => spec.status = status

/-- The current status of a strategy. -/
def status (registry : Registry μ δ) (strategyId : String) : Option StrategyStatus :=
  (registry.get host strategyId).map StrategySpec.status

/-- `register`. -/
def register (registry : Registry μ δ) (spec : StrategySpec μ δ) :
    Registry μ δ × Except String (StrategySpec μ δ) :=
  if (registry.latestVersions host).any fun other => other.strategyId = spec.strategyId then
    (registry, .error ("Strategy '" ++ spec.strategyId ++
      "' already exists. Use update() or a new strategy_id."))
  else (registry.append host spec, .ok spec)

end Registry

/-- A status change: the statuses for which it is refused, the number of readings of the
clock before the record is appended, and the record for the current version and these
readings. It keeps the id, and the last reading is the registration time. -/
structure Change (μ δ : Type) where
  refuses : StrategyStatus → Bool
  target : StrategyStatus
  earlier : ℕ
  update : (ℕ → μ) → StrategySpec μ δ → StrategySpec μ δ
  strategyId_update : ∀ now spec, (update now spec).strategyId = spec.strategyId
  status_update : ∀ now spec, (update now spec).status = target
  registeredAt_update : ∀ now spec, (update now spec).registeredAt = now earlier

/-- The change of `activate`. -/
def activation : Change μ δ where
  refuses status := status = .deprecated
  target := .active
  earlier := 1
  update now spec :=
    { spec with status := .active, activatedAt := some (now 0), registeredAt := now 1 }
  strategyId_update _ _ := rfl
  status_update _ _ := rfl
  registeredAt_update _ _ := rfl

/-- The change of `deactivate`. -/
def deactivation : Change μ δ where
  refuses _ := false
  target := .inactive
  earlier := 1
  update now spec :=
    { spec with status := .inactive, deactivatedAt := some (now 0), registeredAt := now 1 }
  strategyId_update _ _ := rfl
  status_update _ _ := rfl
  registeredAt_update _ _ := rfl

/-- The change of `deprecate`. -/
def deprecation (reason : String) : Change μ δ where
  refuses _ := false
  target := .deprecated
  earlier := 0
  update now spec :=
    { spec with status := .deprecated, deprecationReason := some reason, registeredAt := now 0 }
  strategyId_update _ _ := rfl
  status_update _ _ := rfl
  registeredAt_update _ _ := rfl

/-- The change of `reactivate`. -/
def reactivation : Change μ δ where
  refuses status := status ≠ .inactive
  target := .active
  earlier := 1
  update now spec :=
    { spec with
      status := .active
      activatedAt := some (now 0)
      deprecationReason := none
      registeredAt := now 1 }
  strategyId_update _ _ := rfl
  status_update _ _ := rfl
  registeredAt_update _ _ := rfl

namespace Registry

variable (host : Host μ δ)

/-- The record that a change writes for the current version. -/
def updated (registry : Registry μ δ) (change : Change μ δ) (spec : StrategySpec μ δ) :
    StrategySpec μ δ :=
  change.update (fun n => host.utcnow (registry.reads + n)) spec

/-- A status change of a strategy. -/
def applyChange (registry : Registry μ δ) (change : Change μ δ) (strategyId : String) :
    Registry μ δ × Option (StrategySpec μ δ) :=
  match registry.get host strategyId with
  | none => (registry, none)
  | some spec =>
      if change.refuses spec.status then (registry, none)
      else
        ({ registry with reads := registry.reads + (change.earlier + 1) }.append host
            (registry.updated host change spec),
          some (registry.updated host change spec))

/-- `activate`. -/
def activate (registry : Registry μ δ) (strategyId : String) :
    Registry μ δ × Option (StrategySpec μ δ) :=
  registry.applyChange host activation strategyId

/-- `deactivate`. -/
def deactivate (registry : Registry μ δ) (strategyId : String) :
    Registry μ δ × Option (StrategySpec μ δ) :=
  registry.applyChange host deactivation strategyId

/-- `deprecate`. -/
def deprecateStrategy (registry : Registry μ δ) (strategyId reason : String) :
    Registry μ δ × Option (StrategySpec μ δ) :=
  registry.applyChange host (deprecation reason) strategyId

/-- `reactivate`. -/
def reactivate (registry : Registry μ δ) (strategyId : String) :
    Registry μ δ × Option (StrategySpec μ δ) :=
  registry.applyChange host reactivation strategyId

end Registry

/-! ## What the registry reads -/

namespace Registry

/-- The records were appended in the order of their files, and no later record goes to an
earlier file. -/
structure Orderly (host : Host μ δ) (registry : Registry μ δ) : Prop where
  sorted : registry.entries.Pairwise fun entry other => entry.1 ≤ other.1
  upcoming : ∀ entry ∈ registry.entries, ∀ n, registry.reads ≤ n →
    entry.1 ≤ host.date (host.utcnow n)

theorem orderly_empty (host : Host μ δ) : (empty : Registry μ δ).Orderly host where
  sorted := List.Pairwise.nil
  upcoming _ member := absurd member List.not_mem_nil

variable {host : Host μ δ} {registry : Registry μ δ}

theorem Orderly.advance (orderly : registry.Orderly host) (count : ℕ) :
    ({ registry with reads := registry.reads + count } : Registry μ δ).Orderly host where
  sorted := orderly.sorted
  upcoming entry member n later :=
    orderly.upcoming entry member n ((Nat.le_add_right _ _).trans later)

theorem Orderly.append (clock : host.NonDecreasing) (orderly : registry.Orderly host)
    (spec : StrategySpec μ δ) : (registry.append host spec).Orderly host where
  sorted := by
    refine List.pairwise_append.mpr ⟨orderly.sorted, List.pairwise_singleton _ _, ?_⟩
    intro entry member other single
    rw [List.mem_singleton.mp single]
    exact orderly.upcoming entry member _ (le_refl _)
  upcoming entry member n later := by
    rcases List.mem_append.mp member with old | single
    · exact orderly.upcoming entry old n (Nat.le_of_succ_le later)
    · rw [List.mem_singleton.mp single]
      exact clock.date _ _ (Nat.le_of_succ_le later)

/-- The log is read in the order of the appends. -/
theorem readAll_eq (roundTrips : host.RoundTrips) (orderly : registry.Orderly host) :
    registry.readAll host = registry.entries.map Prod.snd := by
  have same : host.readBack = some := funext roundTrips
  rw [readAll, orderly.sorted.insertionSort_eq, same, List.filterMap_some]

theorem readAll_append (roundTrips : host.RoundTrips) (clock : host.NonDecreasing)
    (orderly : registry.Orderly host) (spec : StrategySpec μ δ) :
    (registry.append host spec).readAll host = registry.readAll host ++ [spec] := by
  rw [readAll_eq roundTrips (orderly.append clock spec), readAll_eq roundTrips orderly, append,
    List.map_append]
  rfl

/-- **What an append does to the current version of a strategy.** -/
theorem get_append (roundTrips : host.RoundTrips) (clock : host.NonDecreasing)
    (orderly : registry.Orderly host) (spec : StrategySpec μ δ) (strategyId : String) :
    (registry.append host spec).get host strategyId =
      if spec.strategyId = strategyId then
        some (Latest.later host.stamp (registry.get host strategyId) spec)
      else registry.get host strategyId := by
  have concat : Latest.version StrategySpec.strategyId host.stamp strategyId
      (registry.readAll host ++ [spec]) = _ := Latest.version_concat _ _ _
  rw [← readAll_append roundTrips clock orderly] at concat
  exact concat

theorem get_strategyId {spec : StrategySpec μ δ} {strategyId : String}
    (found : registry.get host strategyId = some spec) : spec.strategyId = strategyId :=
  key_of_first found

/-- `register` appends the record of an unknown strategy. -/
theorem register_eq (registry : Registry μ δ) (spec : StrategySpec μ δ) :
    (registry.register host spec).1 =
      if (registry.get host spec.strategyId).isSome then registry else registry.append host spec := by
  have known : ((registry.latestVersions host).any fun other =>
      decide (other.strategyId = spec.strategyId)) = true ↔
      (registry.get host spec.strategyId).isSome = true := by
    rw [get, Latest.isSome_first_iff]
    simp
  unfold register
  by_cases present : (registry.get host spec.strategyId).isSome = true
  · rw [if_pos (known.mpr present), if_pos present]
  · rw [if_neg fun found => present (known.mp found), if_neg present]

/-- **What a status change does**: it appends the updated current version, or nothing. -/
theorem applyChange_cases (host : Host μ δ) (registry : Registry μ δ) (change : Change μ δ)
    (strategyId : String) :
    (∃ spec, registry.get host strategyId = some spec ∧ change.refuses spec.status = false ∧
        (registry.applyChange host change strategyId).1 =
          ({ registry with reads := registry.reads + (change.earlier + 1) } : Registry μ δ).append
            host (registry.updated host change spec)) ∨
      ((∀ spec, registry.get host strategyId = some spec → change.refuses spec.status = true) ∧
        (registry.applyChange host change strategyId).1 = registry) := by
  unfold applyChange
  cases found : registry.get host strategyId with
  | none => exact .inr ⟨fun _ impossible => (by cases impossible), rfl⟩
  | some spec =>
      dsimp only
      by_cases refused : change.refuses spec.status = true
      · rw [if_pos refused]
        refine .inr ⟨fun other same => ?_, rfl⟩
        obtain rfl := Option.some.inj same
        exact refused
      · rw [if_neg refused]
        exact .inl ⟨spec, rfl, Bool.eq_false_iff.mpr refused, rfl⟩

/-- The version of a strategy after a change that is not refused. -/
theorem get_applied (roundTrips : host.RoundTrips) (clock : host.NonDecreasing)
    (orderly : registry.Orderly host) (change : Change μ δ) {strategyId : String}
    {spec : StrategySpec μ δ} (found : registry.get host strategyId = some spec) (other : String) :
    (({ registry with reads := registry.reads + (change.earlier + 1) } : Registry μ δ).append
        host (registry.updated host change spec)).get host other =
      if strategyId = other then
        some (if host.stamp spec < host.timestamp (host.utcnow (registry.reads + change.earlier))
          then registry.updated host change spec else spec)
      else registry.get host other := by
  have id : (registry.updated host change spec).strategyId = strategyId :=
    (change.strategyId_update _ spec).trans (get_strategyId found)
  have stamp : host.stamp (registry.updated host change spec) =
      host.timestamp (host.utcnow (registry.reads + change.earlier)) :=
    congrArg host.timestamp (change.registeredAt_update _ spec)
  rw [get_append roundTrips clock (orderly.advance _), id]
  by_cases own : strategyId = other
  · subst own
    rw [if_pos rfl, if_pos rfl]
    have current : ({ registry with reads := registry.reads + (change.earlier + 1) } :
        Registry μ δ).get host strategyId = some spec := found
    rw [current, Latest.later, stamp]
  · rw [if_neg own, if_neg own]
    rfl

end Registry

/-! ## Runs -/

/-- A call of the registry that can write. -/
inductive Call (μ δ : Type) where
  | register (spec : StrategySpec μ δ)
  | activate (strategyId : String)
  | deactivate (strategyId : String)
  | deprecateStrategy (strategyId reason : String)
  | reactivate (strategyId : String)

namespace Call

/-- The registry after a call. -/
def perform (host : Host μ δ) (call : Call μ δ) (registry : Registry μ δ) : Registry μ δ :=
  match call with
  | register spec => (registry.register host spec).1
  | activate strategyId => (registry.activate host strategyId).1
  | deactivate strategyId => (registry.deactivate host strategyId).1
  | deprecateStrategy strategyId reason => (registry.deprecateStrategy host strategyId reason).1
  | reactivate strategyId => (registry.reactivate host strategyId).1

/-- The strategy and the change of a call other than a registration. -/
def change? : Call μ δ → Option (String × Change μ δ)
  | register _ => none
  | activate strategyId => some (strategyId, activation)
  | deactivate strategyId => some (strategyId, deactivation)
  | deprecateStrategy strategyId reason => some (strategyId, deprecation reason)
  | reactivate strategyId => some (strategyId, reactivation)

/-- A call registers a strategy or changes the status of one. -/
theorem perform_cases (call : Call μ δ) :
    (∃ spec, call = register spec) ∨
      ∃ strategyId change, call.change? = some (strategyId, change) ∧
        ∀ host registry, call.perform host registry =
          (registry.applyChange host change strategyId).1 := by
  cases call with
  | register spec => exact .inl ⟨spec, rfl⟩
  | activate strategyId => exact .inr ⟨strategyId, activation, rfl, fun _ _ => rfl⟩
  | deactivate strategyId => exact .inr ⟨strategyId, deactivation, rfl, fun _ _ => rfl⟩
  | deprecateStrategy strategyId reason =>
      exact .inr ⟨strategyId, deprecation reason, rfl, fun _ _ => rfl⟩
  | reactivate strategyId => exact .inr ⟨strategyId, reactivation, rfl, fun _ _ => rfl⟩

end Call

variable {host : Host μ δ}

/-- Every call keeps the records in the order of their files. -/
theorem Registry.Orderly.perform (clock : host.NonDecreasing) {registry : Registry μ δ}
    (orderly : registry.Orderly host) (call : Call μ δ) :
    (call.perform host registry).Orderly host := by
  rcases call.perform_cases with ⟨spec, rfl⟩ | ⟨strategyId, change, _, performed⟩
  · rw [Call.perform, Registry.register_eq]
    split
    · exact orderly
    · exact orderly.append clock spec
  · rw [performed]
    rcases Registry.applyChange_cases host registry change strategyId with
      ⟨spec, _, _, applied⟩ | ⟨_, unchanged⟩
    · rw [applied]
      exact (orderly.advance _).append clock _
    · rw [unchanged]
      exact orderly

/-- Before every step of a run the records are in the order of their files. -/
theorem orderly_of_mem_steps (clock : host.NonDecreasing) {calls : List (Call μ δ)}
    {step : Step (Call μ δ) (Registry μ δ)}
    (member : step ∈ steps (Call.perform host) calls Registry.empty) :
    step.before.Orderly host := by
  refine (invariant_of_steps (Registry.orderly_empty host) ?_).1 step member
  intro other listed orderly
  rw [(step_eq listed).2]
  exact orderly.perform clock other.stage

/-! ## Reading back what was written -/

/-- A call that appended a record for a strategy is followed by a registry that returns
this record. -/
def ReadsOwnWrite (host : Host μ δ) (step : Step (Call μ δ) (Registry μ δ)) : Prop :=
  ∀ entry, step.after.entries = step.before.entries ++ [entry] →
    step.after.get host entry.2.strategyId = some entry.2

/-- The registration time that a call reads is later than the one of the current version,
unless the call is refused, or writes what is there. -/
def Supersedes (host : Host μ δ) (call : Call μ δ) (registry : Registry μ δ) : Prop :=
  ∀ strategyId change, call.change? = some (strategyId, change) →
    ∀ spec, registry.get host strategyId = some spec → change.refuses spec.status = false →
      host.stamp spec < host.timestamp (host.utcnow (registry.reads + change.earlier)) ∨
        registry.updated host change spec = spec

/-- A registration reads its own record back. -/
theorem readsOwnWrite_register (roundTrips : host.RoundTrips) (clock : host.NonDecreasing)
    {registry : Registry μ δ} (orderly : registry.Orderly host) (spec : StrategySpec μ δ) :
    ReadsOwnWrite host ⟨.register spec, registry, (Call.register spec).perform host registry⟩ := by
  unfold ReadsOwnWrite
  dsimp only [Call.perform]
  rw [Registry.register_eq]
  intro entry appended
  split at appended
  · exact absurd appended (by simp)
  · rename_i unknown
    rw [if_neg unknown]
    have none : registry.get host spec.strategyId = none := by simpa using unknown
    obtain rfl : (host.date (host.utcnow registry.reads), spec) = entry :=
      List.singleton_inj.mp (List.append_cancel_left appended)
    rw [Registry.get_append roundTrips clock orderly, if_pos rfl, none]
    rfl

/-- **A call reads its own record back exactly when it supersedes the current version.** -/
theorem readsOwnWrite_iff (roundTrips : host.RoundTrips) (clock : host.NonDecreasing)
    {registry : Registry μ δ} (orderly : registry.Orderly host) (call : Call μ δ) :
    ReadsOwnWrite host ⟨call, registry, call.perform host registry⟩ ↔
      Supersedes host call registry := by
  rcases call.perform_cases with ⟨spec, rfl⟩ | ⟨strategyId, change, calls, performed⟩
  · refine iff_of_true (readsOwnWrite_register roundTrips clock orderly spec) ?_
    intro strategyId change impossible
    cases impossible
  · unfold ReadsOwnWrite Supersedes
    dsimp only
    rw [performed]
    rcases Registry.applyChange_cases host registry change strategyId with
      ⟨spec, found, accepted, applied⟩ | ⟨refused, unchanged⟩
    · rw [applied]
      have version := Registry.get_applied roundTrips clock orderly change found strategyId
      rw [if_pos rfl] at version
      have id : (registry.updated host change spec).strategyId = strategyId :=
        (change.strategyId_update _ spec).trans (Registry.get_strategyId found)
      constructor
      · intro reads other otherChange same current present _
        rw [calls] at same
        obtain ⟨rfl, rfl⟩ := Prod.mk.inj (Option.some.inj same)
        obtain rfl := Option.some.inj (found.symm.trans present)
        have read := reads _ rfl
        dsimp only at read
        rw [id, version] at read
        by_cases later : host.stamp spec <
            host.timestamp (host.utcnow (registry.reads + change.earlier))
        · exact .inl later
        · rw [if_neg later] at read
          exact .inr (Option.some.inj read).symm
      · intro supersedes entry appended
        obtain rfl := List.singleton_inj.mp (List.append_cancel_left appended)
        dsimp only
        rw [id, version]
        rcases supersedes strategyId change calls spec found accepted with later | same
        · rw [if_pos later]
        · rw [same, ite_self]
    · rw [unchanged]
      refine iff_of_true (fun entry appended => absurd appended (by simp)) ?_
      intro other otherChange same current present accepted
      rw [calls] at same
      obtain ⟨rfl, rfl⟩ := Prod.mk.inj (Option.some.inj same)
      rw [refused current present] at accepted
      cases accepted

/-- **In a run every call reads its own record back exactly when every call supersedes
the version it finds.** -/
theorem read_your_writes_iff (roundTrips : host.RoundTrips) (clock : host.NonDecreasing)
    (calls : List (Call μ δ)) :
    (∀ step ∈ steps (Call.perform host) calls Registry.empty, ReadsOwnWrite host step) ↔
      ∀ step ∈ steps (Call.perform host) calls Registry.empty,
        Supersedes host step.stage step.before := by
  refine forall₂_congr ?_
  intro step member
  have performed := readsOwnWrite_iff roundTrips clock (orderly_of_mem_steps clock member) step.stage
  rw [← (step_eq member).2] at performed
  exact performed

/-- A host whose clock counts microseconds. -/
def sampleHost (utcnow : ℕ → ℕ) : Host ℕ Unit where
  utcnow := utcnow
  date time := time / 86400000000
  timestamp time := time
  readBack := some

/-- A candidate, registered at the start of the clock. -/
def sampleSpec : StrategySpec ℕ Unit where
  strategyId := "trend"
  registeredAt := 0
  details := ()

theorem sampleHost_roundTrips (utcnow : ℕ → ℕ) : (sampleHost utcnow).RoundTrips := fun _ => rfl

/-- A clock that counts its readings. -/
theorem sampleHost_increasing : (sampleHost id).Increasing where
  date _ _ ordered := Nat.div_le_div_right ordered
  timestamp _ _ before := Int.ofNat_lt.mpr before

/-- A clock that stands still. -/
theorem sampleHost_nonDecreasing : (sampleHost fun _ => 0).NonDecreasing where
  date _ _ _ := le_refl _

/-- With a clock that goes on, a registration and an activation are read back. -/
theorem read_your_writes_sample :
    (sampleHost id).NonDecreasing ∧
      ∀ step ∈ steps (Call.perform (sampleHost id)) [.register sampleSpec, .activate "trend"]
        Registry.empty, ReadsOwnWrite (sampleHost id) step := by
  refine ⟨sampleHost_increasing.nonDecreasing, ?_⟩
  refine (read_your_writes_iff (sampleHost_roundTrips id) sampleHost_increasing.nonDecreasing
    _).mpr ?_
  intro step member strategyId change calls spec found _
  rcases List.mem_cons.mp member with rfl | later
  · cases calls
  · obtain rfl := List.mem_singleton.mp later
    obtain ⟨rfl, rfl⟩ := Prod.mk.inj (Option.some.inj calls)
    have current : (Call.perform (sampleHost id) (.register sampleSpec) Registry.empty).get
        (sampleHost id) "trend" = some sampleSpec := by decide
    obtain rfl := Option.some.inj (current.symm.trans found)
    exact .inl (by decide)

/-- With a clock that stands still, the activation is written and the candidate is
read. -/
theorem activation_not_read :
    (sampleHost fun _ => 0).NonDecreasing ∧
      (result (Call.perform (sampleHost fun _ => 0)) [.register sampleSpec, .activate "trend"]
        Registry.empty).entries.map (fun entry => entry.2.status) = [.candidate, .active] ∧
      (result (Call.perform (sampleHost fun _ => 0)) [.register sampleSpec, .activate "trend"]
        Registry.empty).get (sampleHost fun _ => 0) "trend" = some sampleSpec ∧
      ¬ ∀ step ∈ steps (Call.perform (sampleHost fun _ => 0))
          [.register sampleSpec, .activate "trend"] Registry.empty,
        ReadsOwnWrite (sampleHost fun _ => 0) step := by
  refine ⟨sampleHost_nonDecreasing, by decide, by decide, fun all => ?_⟩
  have read := all _ (List.mem_cons_of_mem _ List.mem_cons_self)
    (0, { sampleSpec with status := .active, activatedAt := some 0 }) (by decide)
  exact absurd read (by decide)

/-! ## Deprecation -/

/-- A step that deactivates a deprecated strategy, at a later time than its version. -/
def Reopens (host : Host μ δ) (strategyId : String) (step : Step (Call μ δ) (Registry μ δ)) :
    Prop :=
  step.stage = .deactivate strategyId ∧
    ∃ spec, step.before.get host strategyId = some spec ∧ spec.status = .deprecated ∧
      host.stamp spec < host.timestamp (host.utcnow (step.before.reads + 1))

/-- A registration leaves the version of a registered strategy. -/
theorem get_register (roundTrips : host.RoundTrips) (clock : host.NonDecreasing)
    {registry : Registry μ δ} (orderly : registry.Orderly host) {strategyId : String}
    {spec : StrategySpec μ δ} (found : registry.get host strategyId = some spec)
    (other : StrategySpec μ δ) :
    ((Call.register other).perform host registry).get host strategyId = some spec := by
  rw [Call.perform, Registry.register_eq]
  split
  · exact found
  · rename_i unknown
    have different : other.strategyId ≠ strategyId := by
      rintro rfl
      rw [found] at unknown
      exact unknown rfl
    rw [Registry.get_append roundTrips clock orderly, if_neg different]
    exact found

/-- A deprecated strategy can only be deactivated, or deprecated again. -/
theorem Call.accepts_deprecated {call : Call μ δ} {strategyId : String} {change : Change μ δ}
    (calls : call.change? = some (strategyId, change))
    (accepted : change.refuses .deprecated = false) :
    (call = .deactivate strategyId ∧ change = deactivation) ∨
      ∃ reason, call = .deprecateStrategy strategyId reason ∧ change = deprecation reason := by
  cases call with
  | register _ => cases calls
  | activate _ =>
      obtain ⟨rfl, rfl⟩ := Prod.mk.inj (Option.some.inj calls)
      cases accepted
  | reactivate _ =>
      obtain ⟨rfl, rfl⟩ := Prod.mk.inj (Option.some.inj calls)
      cases accepted
  | deactivate _ =>
      obtain ⟨rfl, rfl⟩ := Prod.mk.inj (Option.some.inj calls)
      exact .inl ⟨rfl, rfl⟩
  | deprecateStrategy _ reason =>
      obtain ⟨rfl, rfl⟩ := Prod.mk.inj (Option.some.inj calls)
      exact .inr ⟨reason, rfl, rfl⟩

/-- **A call keeps a strategy deprecated exactly when it does not reopen it.** -/
theorem deprecated_kept_iff (roundTrips : host.RoundTrips) (clock : host.NonDecreasing)
    {registry : Registry μ δ} (orderly : registry.Orderly host) (call : Call μ δ)
    (strategyId : String) :
    (registry.status host strategyId = some .deprecated →
        (call.perform host registry).status host strategyId = some .deprecated) ↔
      ¬ Reopens host strategyId ⟨call, registry, call.perform host registry⟩ := by
  by_cases deprecated : registry.status host strategyId = some .deprecated
  · obtain ⟨spec, found, status⟩ := Option.map_eq_some_iff.mp deprecated
    rw [imp_iff_right deprecated]
    rcases call.perform_cases with ⟨other, rfl⟩ | ⟨changed, change, calls, performed⟩
    · refine iff_of_true ?_ fun reopens => by cases reopens.1
      -- The id is taken, so only other strategies can be registered.
      rw [Registry.status, get_register roundTrips clock orderly found, Option.map_some, status]
    · unfold Reopens
      dsimp only
      rw [performed]
      rcases Registry.applyChange_cases host registry change changed with
        ⟨current, present, accepted, applied⟩ | ⟨refused, unchanged⟩
      · rw [applied, Registry.status,
          Registry.get_applied roundTrips clock orderly change present]
        by_cases own : changed = strategyId
        · subst own
          obtain rfl := Option.some.inj (found.symm.trans present)
          rw [if_pos rfl, Option.map_some]
          rw [status] at accepted
          rcases Call.accepts_deprecated calls accepted with ⟨rfl, rfl⟩ | ⟨reason, rfl, rfl⟩
          · split
            · rename_i later
              refine iff_of_false (by rintro ⟨⟩) (not_not.mpr ⟨rfl, spec, found, status, later⟩)
            · rename_i early
              refine iff_of_true (by rw [status]) ?_
              rintro ⟨_, other, same, _, later⟩
              obtain rfl := Option.some.inj (found.symm.trans same)
              exact early later
          · refine iff_of_true ?_ fun reopens => by cases reopens.1
            split
            · rfl
            · rw [status]
        · rw [if_neg own]
          refine iff_of_true deprecated ?_
          rintro ⟨rfl, _⟩
          obtain ⟨rfl, _⟩ := Prod.mk.inj (Option.some.inj calls)
          exact own rfl
      · rw [unchanged]
        refine iff_of_true deprecated ?_
        rintro ⟨rfl, _⟩
        obtain ⟨rfl, rfl⟩ := Prod.mk.inj (Option.some.inj calls)
        cases refused spec found
  · refine iff_of_true (fun impossible => absurd impossible deprecated) ?_
    rintro ⟨_, spec, found, status, _⟩
    exact deprecated (Option.map_eq_some_iff.mpr ⟨spec, found, status⟩)

/-- **In a run a deprecated strategy stays deprecated exactly when no call reopens
it.** -/
theorem deprecation_permanent_iff (roundTrips : host.RoundTrips) (clock : host.Increasing)
    (calls : List (Call μ δ)) (strategyId : String) :
    (∀ earlier middle later, calls = earlier ++ middle ++ later →
        (result (Call.perform host) earlier Registry.empty).status host strategyId =
          some .deprecated →
        (result (Call.perform host) (earlier ++ middle) Registry.empty).status host strategyId =
          some .deprecated) ↔
      ∀ step ∈ steps (Call.perform host) calls Registry.empty, ¬ Reopens host strategyId step := by
  refine (stays_iff (p := fun registry : Registry μ δ =>
    registry.status host strategyId = some .deprecated)).trans ?_
  refine forall₂_congr ?_
  intro step member
  have kept := deprecated_kept_iff roundTrips clock.nonDecreasing
    (orderly_of_mem_steps clock.nonDecreasing member) step.stage strategyId
  rw [← (step_eq member).2] at kept
  exact kept

/-- A deprecated strategy that is activated stays deprecated. -/
theorem deprecation_permanent_sample :
    (sampleHost id).Increasing ∧
      ∀ earlier middle later,
        [.register sampleSpec, .deprecateStrategy "trend" "low ir", .activate "trend"] =
          earlier ++ middle ++ later →
        (result (Call.perform (sampleHost id)) earlier Registry.empty).status (sampleHost id)
          "trend" = some .deprecated →
        (result (Call.perform (sampleHost id)) (earlier ++ middle) Registry.empty).status
          (sampleHost id) "trend" = some .deprecated := by
  refine ⟨sampleHost_increasing, ?_⟩
  refine (deprecation_permanent_iff (sampleHost_roundTrips id) sampleHost_increasing _ _).mpr ?_
  rintro step member ⟨deactivates, _⟩
  have called := (step_eq member).1
  rw [deactivates] at called
  simp at called

/-- A deprecated strategy is deactivated and activated again. -/
theorem deprecation_undone :
    (sampleHost id).Increasing ∧
      (result (Call.perform (sampleHost id))
        [.register sampleSpec, .deprecateStrategy "trend" "low ir"] Registry.empty).status
        (sampleHost id) "trend" = some .deprecated ∧
      (result (Call.perform (sampleHost id))
        ([.register sampleSpec, .deprecateStrategy "trend" "low ir"] ++
          [.deactivate "trend", .activate "trend"]) Registry.empty).status
        (sampleHost id) "trend" = some .active := by
  refine ⟨sampleHost_increasing, ?_, ?_⟩
  · decide
  · decide

end TradeOS.Strategy
