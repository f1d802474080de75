import TradeOS.Data.Chain
import TradeOS.Data.Dictionary
import Mathlib.Logic.Function.Basic

/-!
# The registry of dataset versions

A registration writes a version file, names the version in an index as the latest of its dataset,
and puts the record into a cache with one place per dataset. A read of a version that is not in
this place takes it from its file and puts it there, whichever version it is. A read without a
version returns what is in the place.

A bump reads without a version, and registers a copy under the next minor version.
-/

set_option autoImplicit false

namespace TradeOS.Research

open LastWrite Dictionary

variable {μ : Type}

/-! ## Records -/

/-- A version of a dataset, with metadata of any type. -/
structure DatasetVersion (μ : Type) where
  datasetId : String
  name : String
  version : String := "1.0.0"
  symbols : List String
  frequency : String := "1D"
  startTime : ℤ
  endTime : ℤ
  featureSetVersion : Option String := none
  labelSetVersion : Option String := none
  createdAt : ℤ
  createdBy : String := "system"
  sourceProvider : String := "unknown"
  sourceReference : String := ""
  metadata : μ
  deriving DecidableEq

/-- An id that `uuid4` makes. -/
abbrev FreshId := { id : String // id ≠ "" }

/-- `dataset.dataset_id or str(uuid.uuid4())`. -/
def DatasetVersion.withId (dataset : DatasetVersion μ) (uuid : FreshId) : DatasetVersion μ :=
  { dataset with datasetId := if dataset.datasetId = "" then uuid.val else dataset.datasetId }

theorem withId_ne_empty (dataset : DatasetVersion μ) (uuid : FreshId) :
    (dataset.withId uuid).datasetId ≠ "" := by
  unfold DatasetVersion.withId
  split
  · exact uuid.property
  · assumption

/-- What a bump can raise. -/
inductive RegistryError where
  | notFound (datasetId : String)
  | indexError
  | invalidInt (literal : String)
  deriving DecidableEq

/-- `version.split(".")`. -/
def splitDots (version : String) : List String :=
  (version.toList.splitOn '.').map String.ofList

/-! ## The registry -/

/-- The registry: the cache, the index of latest versions in the order of its keys, and the
version files by their names. -/
structure Registry (μ : Type) where
  cache : String → Option (DatasetVersion μ) := fun _ => none
  index : List (String × String) := []
  files : String → Option (DatasetVersion μ) := fun _ => none

/-- `_version_path`: the name of a version file. -/
def versionPath (datasetId version : String) : String := datasetId ++ "_" ++ version ++ ".json"

/-- The writes of `register`, for a record with an id. -/
def Registry.store (registry : Registry μ) (dataset : DatasetVersion μ) : Registry μ where
  cache := Function.update registry.cache dataset.datasetId (some dataset)
  index := assign registry.index (dataset.datasetId, dataset.version)
  files := Function.update registry.files (versionPath dataset.datasetId dataset.version)
    (some dataset)

/-- `register`. -/
def Registry.register (registry : Registry μ) (dataset : DatasetVersion μ) (uuid : FreshId) :
    Registry μ × String :=
  (registry.store (dataset.withId uuid), (dataset.withId uuid).datasetId)

/-- A record that a cache holds for a read. -/
def cached (cache : String → Option (DatasetVersion μ)) (datasetId : String)
    (version : Option String) : Option (DatasetVersion μ) :=
  (cache datasetId).filter fun dataset => version = none ∨ version = some dataset.version

section Operations

-- `readBack` is what a record reads as after it was written as JSON; `int` is Python's `int` of
-- a string, `none` where it raises.
variable (readBack : DatasetVersion μ → DatasetVersion μ) (int : String → Option ℤ)

/-- `get`. -/
def Registry.get (registry : Registry μ) (datasetId : String) (version : Option String) :
    Registry μ × Option (DatasetVersion μ) :=
  match cached registry.cache datasetId version with
  | some dataset => (registry, some dataset)
  | none =>
      match version.or (registry.index.lookup datasetId) with
      | none => (registry, none)
      | some version =>
          match registry.files (versionPath datasetId version) with
          | none => (registry, none)
          | some written =>
              let dataset := readBack written
              ({ registry with
                  cache := Function.update registry.cache datasetId (some dataset) },
                some dataset)

/-- `latest`. -/
def Registry.latest (registry : Registry μ) (datasetId : String) :
    Registry μ × Option (DatasetVersion μ) :=
  registry.get readBack datasetId none

/-- The reads of `list_all`, along the entries of the index. -/
def Registry.readAll (registry : Registry μ) (entries : List (String × String)) :
    Registry μ × List (DatasetVersion μ) :=
  entries.foldl
    (fun (state : Registry μ × List (DatasetVersion μ)) entry =>
      let (registry, found) := state.1.get readBack entry.1 (some entry.2)
      (registry, state.2 ++ found.toList))
    (registry, [])

/-- `list_all`: the latest versions, the newest first. -/
def Registry.listAll (registry : Registry μ) : Registry μ × List (DatasetVersion μ) :=
  let (after, results) := registry.readAll readBack registry.index
  (after, results.mergeSort fun first second => second.createdAt ≤ first.createdAt)

/-- The next minor version. -/
def nextVersion (version : String) : Except RegistryError String :=
  let parts := splitDots version
  match parts[1]? with
  | none => .error .indexError
  | some part =>
      match int part with
      | none => .error (.invalidInt part)
      | some minor => .ok (parts.headD "" ++ "." ++ toString (minor + 1) ++ ".0")

/-- The record that a bump makes of the current one. -/
def DatasetVersion.bumped (current : DatasetVersion μ) (datasetId : String) (now : ℤ) :
    Except RegistryError (DatasetVersion μ) :=
  (nextVersion int current.version).map fun version =>
    { datasetId := datasetId
      name := current.name
      version := version
      symbols := current.symbols
      frequency := current.frequency
      startTime := current.startTime
      endTime := current.endTime
      featureSetVersion := current.featureSetVersion
      labelSetVersion := current.labelSetVersion
      createdAt := now
      sourceProvider := current.sourceProvider
      sourceReference := current.sourceReference
      metadata := current.metadata }

/-- `bump_version`. The read comes first, and may fill the cache of a bump that fails. -/
def Registry.bumpVersion (registry : Registry μ) (datasetId : String) (now : ℤ)
    (uuid : FreshId) : Registry μ × Except RegistryError String :=
  match registry.get readBack datasetId none with
  | (registry, none) => (registry, .error (.notFound datasetId))
  | (registry, some current) =>
      match current.bumped int datasetId now with
      | .error error => (registry, .error error)
      | .ok dataset =>
          let (registry, datasetId) := registry.register dataset uuid
          (registry, .ok datasetId)

/-! ## Runs -/

/-- A call of the registry, with the time and the fresh id that it may take. -/
inductive RegistryCall (μ : Type) where
  | register (dataset : DatasetVersion μ) (uuid : FreshId)
  | get (datasetId : String) (version : Option String)
  | latest (datasetId : String)
  | listAll
  | bumpVersion (datasetId : String) (now : ℤ) (uuid : FreshId)

/-- The registry after a call. -/
def Registry.step (registry : Registry μ) : RegistryCall μ → Registry μ
  | .register dataset uuid => (registry.register dataset uuid).1
  | .get datasetId version => (registry.get readBack datasetId version).1
  | .latest datasetId => (registry.latest readBack datasetId).1
  | .listAll => (registry.listAll readBack).1
  | .bumpVersion datasetId now uuid => (registry.bumpVersion readBack int datasetId now uuid).1

/-- The record that a call registers, if it registers one. -/
def Registry.creates (registry : Registry μ) : RegistryCall μ → Option (DatasetVersion μ)
  | .register dataset uuid => some (dataset.withId uuid)
  | .bumpVersion datasetId now uuid => do
      let current ← (registry.get readBack datasetId none).2
      let dataset ← (current.bumped int datasetId now).toOption
      return dataset.withId uuid
  | _ => none

variable {readBack int} (registry : Registry μ)

@[simp] theorem step_get (datasetId : String) (version : Option String) :
    registry.step readBack int (.get datasetId version) =
      (registry.get readBack datasetId version).1 :=
  rfl

@[simp] theorem step_latest (datasetId : String) :
    registry.step readBack int (.latest datasetId) =
      (registry.get readBack datasetId none).1 :=
  rfl

@[simp] theorem step_bumpVersion (datasetId : String) (now : ℤ) (uuid : FreshId) :
    registry.step readBack int (.bumpVersion datasetId now uuid) =
      (registry.bumpVersion readBack int datasetId now uuid).1 :=
  rfl

@[simp] theorem creates_bumpVersion (datasetId : String) (now : ℤ) (uuid : FreshId) :
    registry.creates readBack int (.bumpVersion datasetId now uuid) =
      (registry.get readBack datasetId none).2.bind fun current =>
        (current.bumped int datasetId now).toOption.bind fun dataset =>
          some (dataset.withId uuid) :=
  rfl

/-! ### Files -/

theorem files_get (datasetId : String) (version : Option String) :
    (registry.get readBack datasetId version).1.files = registry.files := by
  unfold Registry.get
  split
  · rfl
  · split
    · rfl
    · split
      · rfl
      · rfl

theorem files_listAll : (registry.listAll readBack).1.files = registry.files := by
  change (registry.readAll readBack registry.index).1.files = registry.files
  generalize registry.index = entries
  induction entries using List.reverseRecOn with
  | nil => rfl
  | append_singleton entries entry ih =>
      unfold Registry.readAll at ih ⊢
      rw [List.foldl_append]
      exact (files_get _ _ _).trans ih

/-- A call writes the file of the record that it registers, and no other. -/
theorem files_step (call : RegistryCall μ) :
    (registry.step readBack int call).files =
      (registry.creates readBack int call).elim registry.files fun dataset =>
        Function.update registry.files (versionPath dataset.datasetId dataset.version)
          (some dataset) := by
  cases call with
  | register given uuid => rfl
  | get datasetId version => exact files_get ..
  | latest datasetId => exact files_get ..
  | listAll => exact files_listAll ..
  | bumpVersion datasetId now uuid =>
      have kept := @files_get μ readBack registry datasetId none
      rw [step_bumpVersion, creates_bumpVersion]
      unfold Registry.bumpVersion
      revert kept
      rcases registry.get readBack datasetId none with ⟨after, found⟩
      intro kept
      cases found with
      | none => exact kept
      | some current =>
          simp only [Option.bind_some]
          cases current.bumped int datasetId now with
          | error error => exact kept
          | ok dataset => exact congrArg (fun files => Function.update files _ _) kept

end Operations

end TradeOS.Research
