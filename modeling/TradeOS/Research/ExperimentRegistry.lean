import TradeOS.Data.SharedStore
import TradeOS.Research.DatasetRegistry
import Mathlib.Data.Rat.Defs

/-!
# The registry of experiments

Several registries may be open on one directory, each in a process of its own. A registration
writes the file of the experiment and puts it into the cache of the registry, and then the index
is rewritten with the keys of this cache. A registry that is opened reads the files that the index
names. A read by id takes the file if the cache has nothing; the listings see the cache only.

A registry that is not aware of the others therefore forgets their experiments: not their files,
which stay, but their places in the index.

An experiment that a caller holds is the object in the cache. Callers are taken to change it
through `update` alone, with a patch that keeps its id.
-/

set_option autoImplicit false

namespace TradeOS.Research

open Dictionary SharedStore

variable {π : Type}

/-- The status of an experiment. -/
inductive RunStatus where
  | pending
  | running
  | completed
  | failed
  | cancelled
  deriving DecidableEq, Repr

/-- The text of a status. -/
def RunStatus.value : RunStatus → String
  | pending => "pending"
  | running => "running"
  | completed => "completed"
  | failed => "failed"
  | cancelled => "cancelled"

/-- `ResearchExperimentRecord`: what the registry reads, and the rest. -/
structure Experiment (π : Type) where
  experimentId : String
  modelName : String
  status : RunStatus := .pending
  metrics : List (String × ℚ) := []
  createdAt : ℤ
  rest : π

/-- `experiment.experiment_id or str(uuid.uuid4())`. -/
def Experiment.withId (experiment : Experiment π) (uuid : FreshId) : Experiment π :=
  { experiment with
    experimentId := if experiment.experimentId = "" then uuid.val else experiment.experimentId }

/-- The experiment under its id. -/
def Experiment.entry (experiment : Experiment π) : String × Experiment π :=
  (experiment.experimentId, experiment)

/-- A change of the fields that keeps the id. -/
abbrev Patch (π : Type) :=
  { change : Experiment π → Experiment π //
    ∀ experiment, (change experiment).experimentId = experiment.experimentId }

/-- The directory: the files of the experiments, and the index. -/
structure Directory (π : Type) where
  files : String → Option (Experiment π) := fun _ => none
  index : Option (List String) := none

/-- The cache of a registry, in the order of its keys. -/
abbrev Cache (π : Type) := List (String × Experiment π)

/-! ## The operations -/

section Operations

-- What a record reads as after it was written as JSON; nothing where the validation raises.
variable (readBack : Experiment π → Option (Experiment π)) (directory : Directory π)
  (cache : Cache π)

/-- The file of an experiment, read. -/
def Directory.read (id : String) : Option (Experiment π) := (directory.files id).bind readBack

/-- `_load_index`: files that are missing or do not validate are skipped. -/
def Directory.loadIndex : Cache π := load (directory.read readBack) (directory.index.getD [])

/-- The writes of `register`, for a record with an id. -/
def storeExperiment (experiment : Experiment π) : Directory π × Cache π :=
  let after := assign cache experiment.entry
  ({ files := Function.update directory.files experiment.experimentId (some experiment)
     index := some (after.map Prod.fst) }, after)

@[simp] theorem store_files (experiment : Experiment π) :
    (storeExperiment directory cache experiment).1.files =
      Function.update directory.files experiment.experimentId (some experiment) :=
  rfl

@[simp] theorem store_index (experiment : Experiment π) :
    (storeExperiment directory cache experiment).1.index =
      some ((storeExperiment directory cache experiment).2.map Prod.fst) :=
  rfl

/-- `register`. -/
def registerExperiment (experiment : Experiment π) (uuid : FreshId) : (Directory π × Cache π) × String :=
  (storeExperiment directory cache (experiment.withId uuid), (experiment.withId uuid).experimentId)

/-- `get`; an error where the file does not validate. -/
def getExperiment (id : String) : Cache π × Except Unit (Option (Experiment π)) :=
  match cache.lookup id with
  | some experiment => (cache, .ok (some experiment))
  | none =>
      match directory.files id with
      | none => (cache, .ok none)
      | some written =>
          match readBack written with
          | none => (cache, .error ())
          | some experiment => (assign cache (id, experiment), .ok (some experiment))

/-- `values[:limit]`. -/
def slicePrefix {α : Type} (limit : ℤ) (values : List α) : List α :=
  if 0 ≤ limit then values.take limit.toNat else values.take (values.length - (-limit).toNat)

/-- `list`, the newest first. -/
def listExperiments (status modelName : Option String) (limit : Option ℤ) :
    List (Experiment π) :=
  let wanted (filter : Option String) (field : String) : Bool :=
    filter.all fun text => text = "" ∨ field = text
  let results := (cache.map Prod.snd).filter fun experiment =>
    wanted status experiment.status.value && wanted modelName experiment.modelName
  let sorted := results.mergeSort fun first second => second.createdAt ≤ first.createdAt
  match limit with
  | none => sorted
  | some limit => if limit = 0 then sorted else slicePrefix limit sorted

/-- `top_experiments`. -/
def topExperiments (metric : String) (limit : ℤ) (minStatus : String) : List (Experiment π) :=
  let scored := (cache.map Prod.snd).filterMap fun experiment =>
    if experiment.status.value = minStatus then
      (experiment.metrics.lookup metric).map fun score => (score, experiment)
    else none
  slicePrefix limit
    ((scored.mergeSort fun first second => second.1 ≤ first.1).map Prod.snd)

/-- `update`, with the record that it registers, if it registers one. -/
def updateExperiment (id : String) (patch : Patch π) (uuid : FreshId) :
    (Directory π × Cache π) × Option (Experiment π) :=
  match getExperiment readBack directory cache id with
  | (cache, .ok (some experiment)) =>
      let changed := (patch.val experiment).withId uuid
      (storeExperiment directory cache changed, some changed)
  | (cache, _) => ((directory, cache), none)

end Operations

/-! ## Registries on one directory -/

/-- The directory and the caches of the registries that are open. -/
structure Registries (π : Type) where
  directory : Directory π := {}
  caches : ℕ → Option (Cache π) := fun _ => none

/-- A call, with the number of the registry that is called. -/
inductive ExperimentCall (π : Type) where
  | openRegistry (client : ℕ)
  | register (client : ℕ) (experiment : Experiment π) (uuid : FreshId)
  | get (client : ℕ) (id : String)
  | update (client : ℕ) (id : String) (patch : Patch π) (uuid : FreshId)

section Runs

variable (readBack : Experiment π → Option (Experiment π)) (registries : Registries π)

/-- The registries after one of them wrote. -/
def Registries.put (client : ℕ) (left : Directory π × Cache π) : Registries π where
  directory := left.1
  caches := Function.update registries.caches client (some left.2)

@[simp] theorem put_directory (client : ℕ) (left : Directory π × Cache π) :
    (registries.put client left).directory = left.1 :=
  rfl

@[simp] theorem put_caches (client : ℕ) (left : Directory π × Cache π) :
    (registries.put client left).caches =
      Function.update registries.caches client (some left.2) :=
  rfl

/-- The registries after a call, and the record that it registered. A registry that is not open
cannot be called. -/
def Registries.call : ExperimentCall π → Registries π × Option (Experiment π)
  | .openRegistry client =>
      (registries.put client
        (registries.directory, registries.directory.loadIndex readBack), none)
  | .register client experiment uuid =>
      match registries.caches client with
      | none => (registries, none)
      | some cache =>
          (registries.put client (registerExperiment registries.directory cache experiment uuid).1,
            some (experiment.withId uuid))
  | .get client id =>
      match registries.caches client with
      | none => (registries, none)
      | some cache =>
          (registries.put client (registries.directory,
            (getExperiment readBack registries.directory cache id).1), none)
  | .update client id patch uuid =>
      match registries.caches client with
      | none => (registries, none)
      | some cache =>
          let done := updateExperiment readBack registries.directory cache id patch uuid
          (registries.put client done.1, done.2)

/-- The number of the registry that a call is for. -/
def ExperimentCall.client : ExperimentCall π → ℕ
  | .openRegistry client => client
  | .register client _ _ => client
  | .get client _ => client
  | .update client _ _ _ => client

/-- The registry that a call opens. -/
def ExperimentCall.opens : ExperimentCall π → Option ℕ
  | .openRegistry client => some client
  | _ => none

/-- The registries after a list of calls. -/
def Registries.run (calls : List (ExperimentCall π)) : Registries π :=
  calls.foldl (fun registries call => (registries.call readBack call).1) registries

/-- The records that a list of calls registers, oldest first. -/
def Registries.registered : Registries π → List (ExperimentCall π) → List (Experiment π)
  | _, [] => []
  | registries, call :: calls =>
      (registries.call readBack call).2.toList ++
        registered (registries.call readBack call).1 calls

end Runs

/-! ## What one call does -/

/-- What a call does to the registry that it is for, with the one that it opens. -/
inductive Called (readBack : Experiment π → Option (Experiment π)) (registries : Registries π)
    (client : ℕ) : Option ℕ → Registries π × Option (Experiment π) → Prop
  | closed (absent : registries.caches client = none) :
      Called readBack registries client none (registries, none)
  | opened :
      Called readBack registries client (some client) (registries.put client
        (registries.directory, registries.directory.loadIndex readBack), none)
  | fetched {cache : Cache π} (found : registries.caches client = some cache) (id : String) :
      Called readBack registries client none (registries.put client
        (registries.directory, fetch (registries.directory.read readBack) cache id), none)
  | stored {cache : Cache π} (found : registries.caches client = some cache) (id : String)
      (fetches : Bool) (experiment : Experiment π) :
      Called readBack registries client none (registries.put client
        (storeExperiment registries.directory
          (if fetches then fetch (registries.directory.read readBack) cache id else cache)
          experiment), some experiment)

section Calls

variable (readBack : Experiment π → Option (Experiment π))

/-- A read by id fetches. -/
theorem getExperiment_fst (directory : Directory π) (cache : Cache π) (id : String) :
    (getExperiment readBack directory cache id).1 =
      fetch (directory.read readBack) cache id := by
  unfold getExperiment fetch Directory.read
  cases known : cache.lookup id with
  | some experiment => rw [if_pos (mem_keys_of_lookup known)]
  | none =>
      rw [if_neg (lookup_eq_none_iff_notMem.mp known)]
      cases directory.files id with
      | none => rfl
      | some written =>
          dsimp only
          rw [Option.bind_some]
          cases readBack written with
          | none => rfl
          | some experiment => rfl

theorem call_called (registries : Registries π) (call : ExperimentCall π) :
    Called readBack registries call.client call.opens (registries.call readBack call) := by
  cases call with
  | openRegistry client => exact .opened
  | register client experiment uuid =>
      simp only [Registries.call, ExperimentCall.client, ExperimentCall.opens]
      cases found : registries.caches client with
      | none => exact .closed found
      | some cache => exact .stored found "" false (experiment.withId uuid)
  | get client id =>
      simp only [Registries.call, ExperimentCall.client, ExperimentCall.opens]
      cases found : registries.caches client with
      | none => exact .closed found
      | some cache =>
          dsimp only
          rw [getExperiment_fst]
          exact .fetched found id
  | update client id patch uuid =>
      simp only [Registries.call, ExperimentCall.client, ExperimentCall.opens]
      cases found : registries.caches client with
      | none => exact .closed found
      | some cache =>
          have left := getExperiment_fst readBack registries.directory cache id
          simp only [updateExperiment]
          generalize getExperiment readBack registries.directory cache id = done at left
          obtain ⟨after, result⟩ := done
          obtain rfl : after = _ := left
          cases result with
          | error e => exact .fetched found id
          | ok result =>
              cases result with
              | none => exact .fetched found id
              | some experiment => exact .stored found id true _

end Calls

end TradeOS.Research
