import TradeOS.Research.DatasetHistory

/-!
# Reads and bumps of dataset versions, along a run

A run is any list of calls from an empty registry. As long as the versions that a run names have
files of their own, the registry agrees with its history after every call
(`agrees_run`). What a read without a version returns is then the version last registered or
read, and this is the latest one after every call exactly if every explicit read of a registered
version was a read of the latest (`reads_latest_iff`).

A bump counts from the same version. It makes a new name exactly if the next minor version after
it is not there yet, and then no version file is ever overwritten by a bump
(`bumps_fresh_iff`).
-/

set_option autoImplicit false

namespace TradeOS.Research

open LastWrite

variable {μ : Type} (readBack : DatasetVersion μ → DatasetVersion μ) (int : String → Option ℤ)

/-! ## Runs -/

/-- The steps of a run from an empty registry. -/
def runSteps (calls : List (RegistryCall μ)) : List (Chain.Step (RegistryCall μ) (History μ)) :=
  Chain.steps (fun call history => history.step readBack int call) calls {}

/-- The history after a run. -/
def runHistory (calls : List (RegistryCall μ)) : History μ :=
  Chain.result (fun call history => history.step readBack int call) calls {}

theorem runHistory_concat (calls : List (RegistryCall μ)) (call : RegistryCall μ) :
    runHistory readBack int (calls ++ [call]) =
      (runHistory readBack int calls).step readBack int call :=
  Chain.result_append _ _ _

/-- The versions that a run asks for or registers. -/
def runNames (calls : List (RegistryCall μ)) : Set (String × String) :=
  { pair | ∃ s ∈ runSteps readBack int calls, s.stage.asks = some pair ∨
    ∃ dataset, s.before.registry.creates readBack int s.stage = some dataset ∧
      dataset.pair = pair }

/-- Every read of a registry returns what its history says: without a version the record last
registered for the dataset, with one of certain names the record last registered under it. -/
structure Coherent (names : Set (String × String)) (history : History μ) : Prop where
  get : ∀ datasetId, (history.registry.get readBack datasetId none).2 =
    latestOf history.registered datasetId
  latest : ∀ datasetId, (history.registry.latest readBack datasetId).2 =
    latestOf history.registered datasetId
  getVersion : ∀ datasetId version, (datasetId, version) ∈ names →
    (history.registry.get readBack datasetId (some version)).2 =
      contentOf history.registered (datasetId, version)

/-- A call that reads a registered version reads the latest one of its dataset. -/
def ReadsLatest (registered : List (DatasetVersion μ)) (call : RegistryCall μ) : Prop :=
  ∀ datasetId version, call = .get datasetId (some version) →
    (contentOf registered (datasetId, version)).isSome →
      latestVersion registered datasetId = some version

section Run

variable {readBack int} {names : Set (String × String)} {history : History μ}

/-- **After every call of a run the registry agrees with its history.** -/
theorem agrees_run (lossless : ∀ dataset, readBack dataset = dataset)
    {calls : List (RegistryCall μ)} (apart : FilesApart (runNames readBack int calls))
    {s : Chain.Step (RegistryCall μ) (History μ)} (member : s ∈ runSteps readBack int calls) :
    Agrees (runNames readBack int calls) s.before ∧
      Agrees (runNames readBack int calls) s.after := by
  have keeps : ∀ s ∈ runSteps readBack int calls,
      Agrees (runNames readBack int calls) s.before →
        Agrees (runNames readBack int calls) s.after := by
    intro s member before
    rw [(Chain.step_eq member).2]
    exact before.step lossless apart (fun pair asks => ⟨s, member, .inl asks⟩)
      fun dataset creates => ⟨s, member, .inr ⟨dataset, creates, rfl⟩⟩
  have before := (Chain.invariant_of_steps (agrees_start _) keeps).1 s member
  exact ⟨before, keeps s member before⟩

/-! ## Reads -/

/-- The reads of a registry that agrees with its history are right exactly if the version last
registered or read is the latest one of every dataset. -/
theorem Agrees.coherent_iff (agrees : Agrees names history)
    (lossless : ∀ dataset, readBack dataset = dataset) :
    Coherent readBack names history ↔
      history.touched = latestVersion history.registered := by
  constructor
  · intro coherent
    funext datasetId
    have read := coherent.get datasetId
    rw [agrees.get_latest] at read
    cases last : history.touched datasetId with
    | none =>
        have unregistered := agrees.touched datasetId
        rw [last] at unregistered
        exact (Option.not_isSome_iff_eq_none.mp fun found => by cases unregistered.mpr found).symm
    | some version =>
        obtain ⟨dataset, content⟩ := Option.isSome_iff_exists.mp (agrees.content _ _ last)
        rw [last, Option.bind_some, content] at read
        rw [latestVersion, ← read, Option.map_some]
        exact congrArg some (Prod.mk.inj (of_lastWhere content).2).2.symm
  · intro same
    have read : ∀ datasetId, (history.registry.get readBack datasetId none).2 =
        latestOf history.registered datasetId := by
      intro datasetId
      rw [agrees.get_latest, same, latestVersion]
      cases latest : latestOf history.registered datasetId with
      | none => rfl
      | some dataset => exact contentOf_of_latestOf latest
    refine ⟨read, read, fun datasetId version named => ?_⟩
    rw [agrees.get_version lossless named]
    cases contentOf history.registered (datasetId, version) with
    | none => rfl
    | some dataset => rfl

/-- One call, from a state in which every dataset was last touched at its latest version: it is
so again exactly if the call reads no other registered version. -/
theorem touched_step_iff (latest : history.touched = latestVersion history.registered)
    (call : RegistryCall μ) :
    (history.step readBack int call).touched =
        latestVersion (history.step readBack int call).registered ↔
      ReadsLatest history.registered call := by
  unfold History.step
  cases creates : history.registry.creates readBack int call with
  | some dataset =>
      refine iff_of_true ?_ ?_
      · rw [latestVersion_concat, latest]
      · rintro datasetId version rfl
        cases creates
  | none =>
      simp only
      cases call with
      | register given uuid => cases creates
      | bumpVersion datasetId now uuid => exact iff_of_true latest nofun
      | latest datasetId => exact iff_of_true latest nofun
      | listAll => exact iff_of_true rfl nofun
      | get datasetId version =>
          cases version with
          | none => exact iff_of_true latest nofun
          | some version =>
              rw [touch, ReadsLatest]
              split_ifs with registered
              · rw [latest, Function.update_eq_self_iff]
                constructor
                · rintro same other asked call -
                  cases call
                  exact same.symm
                · intro reads
                  exact (reads datasetId version rfl registered).symm
              · refine iff_of_true latest ?_
                rintro other asked call found
                cases call
                exact absurd found registered

end Run

/-- **After every call of a run, `get` without a version and `latest` return the record last
registered for the dataset, and `get` with a version the record last registered under it, if and
only if every explicit read of a registered version reads the latest one of its dataset**, for
runs in which no two versions have one file. -/
theorem reads_latest_iff (lossless : ∀ dataset, readBack dataset = dataset)
    (calls : List (RegistryCall μ)) (apart : FilesApart (runNames readBack int calls)) :
    (∀ s ∈ runSteps readBack int calls, Coherent readBack (runNames readBack int calls) s.after) ↔
      ∀ s ∈ runSteps readBack int calls, ReadsLatest s.before.registered s.stage := by
  have after : ∀ s ∈ runSteps readBack int calls,
      (Coherent readBack (runNames readBack int calls) s.after ↔
        s.after.touched = latestVersion s.after.registered) :=
    fun s member => (agrees_run lossless apart member).2.coherent_iff lossless
  have one : ∀ s ∈ runSteps readBack int calls,
      s.before.touched = latestVersion s.before.registered →
        (s.after.touched = latestVersion s.after.registered ↔
          ReadsLatest s.before.registered s.stage) := by
    intro s member before
    rw [(Chain.step_eq member).2]
    exact touched_step_iff before s.stage
  constructor
  · intro coherent s member
    have before := (Chain.invariant_of_steps
      (p := fun history => history.touched = latestVersion history.registered) rfl
      fun s member _ => (after s member).mp (coherent s member)).1 s member
    exact (one s member before).mp ((after s member).mp (coherent s member))
  · intro reads s member
    have before := (Chain.invariant_of_steps
      (p := fun history => history.touched = latestVersion history.registered) rfl
      fun s member before => (one s member before).mpr (reads s member)).1 s member
    exact (after s member).mpr ((one s member before).mpr (reads s member))

/-! ### Two versions of one dataset -/

theorem fresh_ne_empty : "fresh" ≠ "" := by decide

/-- A version of a dataset of prices, and an id that is not needed. -/
def sampleVersion (version : String) : RegistryCall Unit :=
  .register
    { datasetId := "prices", name := "prices", version := version, symbols := []
      startTime := 0, endTime := 0, createdAt := 0, metadata := () }
    ⟨"fresh", fresh_ne_empty⟩

/-- The digits of a natural number. -/
def decimalInt (literal : String) : Option ℤ :=
  if literal.toList.all Char.isDigit then
    some (literal.toList.foldl (fun value c => 10 * value + (c.toNat - '0'.toNat : ℕ)) 0)
  else none

theorem filesApart_of_two {names : Set (String × String)} (first second : String × String)
    (apart : versionPath first.1 first.2 ≠ versionPath second.1 second.2)
    (two : ∀ pair ∈ names, pair = first ∨ pair = second) : FilesApart names := by
  intro left here right there same
  rcases two left here with rfl | rfl <;> rcases two right there with rfl | rfl
  · rfl
  · exact absurd same apart
  · exact absurd same.symm apart
  · rfl

/-- Two versions, a read of the second one, and a read of the latest. -/
def freshReads : List (RegistryCall Unit) :=
  [sampleVersion "1.0.0", sampleVersion "1.1.0", .get "prices" (some "1.1.0"),
    .get "prices" none]

/-- A dataset of two versions whose second one is read explicitly is read as the latest. -/
theorem reads_latest_two :
    (runSteps id decimalInt freshReads).length = 4 ∧
      ∀ s ∈ runSteps id decimalInt freshReads,
        Coherent id (runNames id decimalInt freshReads) s.after := by
  refine ⟨rfl, (reads_latest_iff id decimalInt (fun _ => rfl) _ ?_).mpr ?_⟩
  · refine filesApart_of_two ("prices", "1.0.0") ("prices", "1.1.0") (by decide) ?_
    rintro pair ⟨s, member, asks | ⟨dataset, creates, rfl⟩⟩
    · simp only [runSteps, freshReads, Chain.steps, List.mem_cons, List.not_mem_nil, or_false]
        at member
      rcases member with rfl | rfl | rfl | rfl <;> cases asks
      exact .inr rfl
    · simp only [runSteps, freshReads, Chain.steps, List.mem_cons, List.not_mem_nil, or_false]
        at member
      rcases member with rfl | rfl | rfl | rfl <;> cases creates
      · exact .inl rfl
      · exact .inr rfl
  · intro s member datasetId version call
    simp only [runSteps, freshReads, Chain.steps, List.mem_cons, List.not_mem_nil, or_false]
      at member
    rcases member with rfl | rfl | rfl | rfl <;> cases call
    intro _
    with_unfolding_all decide

/-- Two versions, and a read of the first one. -/
def staleReads : List (RegistryCall Unit) :=
  [sampleVersion "1.0.0", sampleVersion "1.1.0", .get "prices" (some "1.0.0")]

/-- After a read of its first version, a dataset of two versions is read as the first one. -/
theorem reads_not_latest :
    ((runHistory id decimalInt staleReads).registry.get id "prices" none).2.map
        DatasetVersion.version = some "1.0.0" ∧
      latestVersion (runHistory id decimalInt staleReads).registered "prices" = some "1.1.0" := by
  with_unfolding_all decide

/-! ## Bumps -/

/-- A bump registers a version of its dataset that was not registered before. -/
def BumpsFresh (s : Chain.Step (RegistryCall μ) (History μ)) : Prop :=
  ∀ datasetId now uuid dataset, s.stage = .bumpVersion datasetId now uuid →
    s.before.registry.creates readBack int s.stage = some dataset →
      dataset.datasetId = datasetId ∧ ∀ earlier ∈ s.before.registered, earlier.pair ≠ dataset.pair

/-- A caller registers a version that was not registered before. -/
def RegistersNew (s : Chain.Step (RegistryCall μ) (History μ)) : Prop :=
  ∀ dataset uuid, s.stage = .register dataset uuid →
    ∀ earlier ∈ s.before.registered, earlier.pair ≠ (dataset.withId uuid).pair

/-- A version file that is written at some point of a run keeps its content from there on. -/
def FilesStay (calls : List (RegistryCall μ)) : Prop :=
  ∀ path content earlier middle later, calls = earlier ++ middle ++ later →
    (runHistory readBack int earlier).registry.files path = some content →
      (runHistory readBack int (earlier ++ middle)).registry.files path = some content

/-- When a dataset is bumped, none of its registered versions is the next minor version after
the one that was last registered or read. -/
def BumpsBeyond (s : Chain.Step (RegistryCall μ) (History μ)) : Prop :=
  ∀ datasetId now uuid version next, s.stage = .bumpVersion datasetId now uuid →
    s.before.touched datasetId = some version → nextVersion int version = .ok next →
      ∀ earlier ∈ s.before.registered, earlier.pair ≠ (datasetId, next)

section Bump

variable {readBack int} {names : Set (String × String)} {history : History μ}

theorem Agrees.identified_of_touched (agrees : Agrees names history) {datasetId version : String}
    (last : history.touched datasetId = some version) : datasetId ≠ "" := by
  obtain ⟨dataset, content⟩ := Option.isSome_iff_exists.mp (agrees.content _ _ last)
  rw [← datasetId_of_pair (of_lastWhere content).2]
  exact agrees.identified dataset (of_lastWhere content).1

theorem withId_of_ne_empty {dataset : DatasetVersion μ} (identified : dataset.datasetId ≠ "")
    (uuid : FreshId) : dataset.withId uuid = dataset := by
  rw [DatasetVersion.withId, if_neg identified]

/-- **A bump registers the next minor version after the one last registered or read.** -/
theorem Agrees.creates_bump_iff (agrees : Agrees names history) (datasetId : String) (now : ℤ)
    (uuid : FreshId) (pair : String × String) :
    (∃ dataset, history.registry.creates readBack int (.bumpVersion datasetId now uuid) =
        some dataset ∧ dataset.pair = pair) ↔
      ∃ version, history.touched datasetId = some version ∧
        nextVersion int version = .ok pair.2 ∧ pair.1 = datasetId := by
  rw [agrees.creates_bump]
  constructor
  · rintro ⟨dataset, creates, rfl⟩
    obtain ⟨current, held, copied⟩ := Option.bind_eq_some_iff.mp creates
    obtain ⟨last, -⟩ := agrees.contentOf_cached held
    refine ⟨current.version, last, ?_⟩
    unfold DatasetVersion.bumped at copied
    cases next : nextVersion int current.version with
    | error error =>
        rw [next] at copied
        cases copied
    | ok version =>
        rw [next] at copied
        cases copied
        rw [withId_of_ne_empty (agrees.identified_of_touched last)]
        exact ⟨rfl, rfl⟩
  · rintro ⟨version, last, next, rfl⟩
    obtain ⟨current, content⟩ := Option.isSome_iff_exists.mp (agrees.content _ _ last)
    have own : current.version = version := (Prod.mk.inj (of_lastWhere content).2).2
    rw [agrees.cache, last, Option.bind_some, content, Option.bind_some, DatasetVersion.bumped,
      own, next]
    refine ⟨_, rfl, ?_⟩
    rw [withId_of_ne_empty (agrees.identified_of_touched last)]
    rfl

/-- A bump is fresh exactly if the next minor version is not there. -/
theorem bumpsFresh_iff {s : Chain.Step (RegistryCall μ) (History μ)}
    (agrees : Agrees names s.before) : BumpsFresh readBack int s ↔ BumpsBeyond int s := by
  constructor
  · intro fresh datasetId now uuid version next stage last successor
    obtain ⟨dataset, creates, pair⟩ : ∃ dataset,
        s.before.registry.creates readBack int (.bumpVersion datasetId now uuid) = some dataset ∧
          dataset.pair = (datasetId, next) :=
      (agrees.creates_bump_iff datasetId now uuid _).mpr ⟨version, last, successor, rfl⟩
    rw [← stage] at creates
    rw [← pair]
    exact (fresh datasetId now uuid dataset stage creates).2
  · intro beyond datasetId now uuid dataset stage creates
    rw [stage] at creates
    obtain ⟨version, last, successor, own⟩ :=
      (agrees.creates_bump_iff datasetId now uuid dataset.pair).mp ⟨dataset, creates, rfl⟩
    have pair : dataset.pair = (datasetId, dataset.version) := by rw [← own]; rfl
    refine ⟨own, ?_⟩
    rw [pair]
    exact beyond datasetId now uuid version _ stage last successor

/-- A call that registers no known version keeps the version files. -/
theorem Agrees.keepsFiles (agrees : Agrees names history) {call : RegistryCall μ}
    (created : ∀ dataset, history.registry.creates readBack int call = some dataset →
      dataset.pair ∈ names ∧ ∀ earlier ∈ history.registered, earlier.pair ≠ dataset.pair)
    {path : String} {content : DatasetVersion μ}
    (written : history.registry.files path = some content) :
    (history.step readBack int call).registry.files path = some content := by
  have files := @files_step μ readBack int history.registry call
  unfold History.step
  cases creates : history.registry.creates readBack int call with
  | none =>
      change (history.registry.step readBack int call).files path = some content
      rw [files, creates]
      exact written
  | some dataset =>
      obtain ⟨named, new⟩ := created dataset creates
      have unwritten : history.registry.files (versionPath dataset.pair.1 dataset.pair.2) = none := by
        rw [agrees.files _ named, ← Option.not_isSome_iff_eq_none]
        intro found
        obtain ⟨earlier, member, same⟩ := lastWhere_isSome_iff.mp found
        exact new earlier member same
      change (history.registry.step readBack int call).files path = some content
      rw [files, creates]
      have other : path ≠ versionPath dataset.datasetId dataset.version := by
        rintro rfl
        exact absurd (unwritten.symm.trans written) nofun
      exact (Function.update_of_ne other ..).trans written

end Bump

/-- **Every bump of a run registers a version of its dataset that was not registered before, and
so every version file keeps its content as long as callers register new versions only, if and
only if whenever a dataset is bumped, the next minor version after the one last registered or
read is not registered yet**, for runs in which no two versions have one file. -/
theorem bumps_fresh_iff (lossless : ∀ dataset, readBack dataset = dataset)
    (calls : List (RegistryCall μ)) (apart : FilesApart (runNames readBack int calls)) :
    ((∀ s ∈ runSteps readBack int calls, BumpsFresh readBack int s) ∧
        ((∀ s ∈ runSteps readBack int calls, RegistersNew s) →
          FilesStay readBack int calls)) ↔
      ∀ s ∈ runSteps readBack int calls, BumpsBeyond int s := by
  have agrees := fun {s} (member : s ∈ runSteps readBack int calls) =>
    (agrees_run lossless apart member).1
  constructor
  · intro fresh s member
    exact (bumpsFresh_iff (agrees member)).mp (fresh.1 s member)
  · intro beyond
    have fresh : ∀ s ∈ runSteps readBack int calls, BumpsFresh readBack int s :=
      fun s member => (bumpsFresh_iff (agrees member)).mpr (beyond s member)
    refine ⟨fresh, fun new path content => ?_⟩
    refine (Chain.stays_iff
      (p := fun history : History μ => history.registry.files path = some content)).mpr
      fun s member written => ?_
    have created : ∀ dataset, s.before.registry.creates readBack int s.stage = some dataset →
        dataset.pair ∈ runNames readBack int calls ∧
          ∀ earlier ∈ s.before.registered, earlier.pair ≠ dataset.pair := by
      intro dataset creates
      refine ⟨⟨s, member, .inr ⟨dataset, creates, rfl⟩⟩, ?_⟩
      cases stage : s.stage with
      | register given uuid =>
          rw [stage] at creates
          cases creates
          exact new s member given uuid stage
      | bumpVersion datasetId now uuid =>
          exact (fresh s member datasetId now uuid dataset stage creates).2
      | get datasetId version => rw [stage] at creates; cases creates
      | latest datasetId => rw [stage] at creates; cases creates
      | listAll => rw [stage] at creates; cases creates
    rw [(Chain.step_eq member).2]
    exact (agrees member).keepsFiles created written

/-- A version and a bump. -/
def oneBump : List (RegistryCall Unit) :=
  [sampleVersion "1.0.0", .bumpVersion "prices" 1 ⟨"fresh", fresh_ne_empty⟩]

theorem bumps_fresh_one :
    (runSteps id decimalInt oneBump).length = 2 ∧
      ∀ s ∈ runSteps id decimalInt oneBump, BumpsFresh id decimalInt s := by
  have start : ∀ s ∈ runSteps id decimalInt oneBump, BumpsBeyond decimalInt s := by
    intro s member datasetId now uuid version next call last successor earlier known
    rcases List.mem_pair.mp member with rfl | rfl
    · cases call
    · cases call
      cases last
      rw [List.mem_singleton.mp known]
      have second : nextVersion decimalInt "1.0.0" = .ok "1.1.0" := by with_unfolding_all decide
      cases second.symm.trans successor
      decide
  have names : ∀ pair ∈ runNames id decimalInt oneBump,
      pair = ("prices", "1.0.0") ∨ pair = ("prices", "1.1.0") := by
    rintro pair ⟨s, member, asks | ⟨dataset, creates, rfl⟩⟩
    · rcases List.mem_pair.mp member with rfl | rfl <;> cases asks
    · rcases List.mem_pair.mp member with rfl | rfl
      · cases creates
        exact .inl rfl
      · cases creates
        exact .inr (by with_unfolding_all decide)
  have apart : FilesApart (runNames id decimalInt oneBump) :=
    filesApart_of_two _ _ (by decide) names
  exact ⟨rfl, ((bumps_fresh_iff id decimalInt (fun _ => rfl) _ apart).mpr start).1⟩

/-- A version, a bump, a read of the first version and another bump. -/
def staleBumps : List (RegistryCall Unit) :=
  oneBump ++ [.get "prices" (some "1.0.0"), .bumpVersion "prices" 2 ⟨"fresh", fresh_ne_empty⟩]

/-- The second bump makes the version of the first one again, and overwrites its file. -/
theorem bumps_not_fresh :
    (runHistory id decimalInt staleBumps).registered.map DatasetVersion.version =
        ["1.0.0", "1.1.0", "1.1.0"] ∧
      ((runHistory id decimalInt oneBump).registry.files "prices_1.1.0.json").map
        DatasetVersion.createdAt = some 1 ∧
      ((runHistory id decimalInt staleBumps).registry.files "prices_1.1.0.json").map
        DatasetVersion.createdAt = some 2 := by
  with_unfolding_all decide

end TradeOS.Research
