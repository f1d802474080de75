import TradeOS.Research.DatasetRegistry

/-!
# What the dataset registry knows of its history

A history is a registry with the records registered so far and, for every dataset, the version
that a call last registered or read. The registry agrees with its history (`Agrees`) if the files
have the records last registered, the index has the latest versions, and the cache has the
versions last registered or read. `Agrees.step` is the step lemma: every call keeps this, if the
versions that are asked for or registered have files of their own.
-/

set_option autoImplicit false

namespace TradeOS.Research

open LastWrite Dictionary

variable {μ : Type}

/-! ## Histories -/

/-- The dataset and the version of a record. -/
def DatasetVersion.pair (dataset : DatasetVersion μ) : String × String :=
  (dataset.datasetId, dataset.version)

/-- The record last registered under a dataset and a version. -/
def contentOf (registered : List (DatasetVersion μ)) (pair : String × String) :
    Option (DatasetVersion μ) :=
  lastWhere (fun dataset => dataset.pair = pair) registered

/-- The record last registered for a dataset. -/
def latestOf (registered : List (DatasetVersion μ)) (datasetId : String) :
    Option (DatasetVersion μ) :=
  lastWhere (fun dataset => dataset.datasetId = datasetId) registered

/-- The version last registered for a dataset. -/
def latestVersion (registered : List (DatasetVersion μ)) (datasetId : String) : Option String :=
  (latestOf registered datasetId).map DatasetVersion.version

/-- A registry, the records registered so far and, for every dataset, the version that a call
last registered or read. -/
structure History (μ : Type) where
  registry : Registry μ := {}
  registered : List (DatasetVersion μ) := []
  touched : String → Option String := fun _ => none

/-- The versions last registered or read, after a call that registers nothing. -/
def touch (registered : List (DatasetVersion μ)) (touched : String → Option String) :
    RegistryCall μ → String → Option String
  | .get datasetId (some version) =>
      if (contentOf registered (datasetId, version)).isSome then
        Function.update touched datasetId (some version)
      else touched
  | .listAll => latestVersion registered
  | _ => touched

section Step

variable (readBack : DatasetVersion μ → DatasetVersion μ) (int : String → Option ℤ)

/-- The history after a call. -/
def History.step (history : History μ) (call : RegistryCall μ) : History μ :=
  match history.registry.creates readBack int call with
  | some dataset =>
      { registry := history.registry.step readBack int call
        registered := history.registered ++ [dataset]
        touched := Function.update history.touched dataset.datasetId (some dataset.version) }
  | none =>
      { registry := history.registry.step readBack int call
        registered := history.registered
        touched := touch history.registered history.touched call }

end Step

theorem contentOf_concat (registered : List (DatasetVersion μ)) (dataset : DatasetVersion μ)
    (pair : String × String) :
    contentOf (registered ++ [dataset]) pair =
      if dataset.pair = pair then some dataset else contentOf registered pair :=
  lastWhere_concat registered dataset

theorem datasetId_of_pair {dataset : DatasetVersion μ} {datasetId version : String}
    (same : dataset.pair = (datasetId, version)) : dataset.datasetId = datasetId :=
  (Prod.mk.inj same).1

theorem latestOf_concat (registered : List (DatasetVersion μ)) (dataset : DatasetVersion μ)
    (datasetId : String) :
    latestOf (registered ++ [dataset]) datasetId =
      if dataset.datasetId = datasetId then some dataset else latestOf registered datasetId :=
  lastWhere_concat registered dataset

theorem latestVersion_concat (registered : List (DatasetVersion μ)) (dataset : DatasetVersion μ) :
    latestVersion (registered ++ [dataset]) =
      Function.update (latestVersion registered) dataset.datasetId (some dataset.version) := by
  funext datasetId
  rw [latestVersion, latestOf_concat, Function.update_apply]
  by_cases own : dataset.datasetId = datasetId
  · rw [if_pos own, if_pos own.symm]
    rfl
  · rw [if_neg own, if_neg (Ne.symm own)]
    rfl

/-- The latest record of a dataset is the content of its own version. -/
theorem contentOf_of_latestOf {registered : List (DatasetVersion μ)} {datasetId : String}
    {dataset : DatasetVersion μ} (latest : latestOf registered datasetId = some dataset) :
    contentOf registered (datasetId, dataset.version) = some dataset := by
  induction registered using List.reverseRecOn with
  | nil => cases latest
  | append_singleton registered last ih =>
      rw [latestOf_concat] at latest
      rw [contentOf_concat]
      by_cases own : last.datasetId = datasetId
      · rw [if_pos own, Option.some.injEq] at latest
        rw [if_pos (by rw [DatasetVersion.pair, own, latest]), latest]
      · rw [if_neg own] at latest
        rw [if_neg fun same => own (datasetId_of_pair same)]
        exact ih latest

/-! ## What a registry knows of its history -/

/-- The registry agrees with its history, on the versions with certain names: their files have
the records last registered, the index has the latest versions, and the cache has, for every
dataset, the version last registered or read. -/
structure Agrees (names : Set (String × String)) (history : History μ) : Prop where
  named : ∀ dataset ∈ history.registered, dataset.pair ∈ names
  identified : ∀ dataset ∈ history.registered, dataset.datasetId ≠ ""
  files : ∀ pair ∈ names,
    history.registry.files (versionPath pair.1 pair.2) = contentOf history.registered pair
  index : ∀ datasetId version, (datasetId, version) ∈ history.registry.index ↔
    latestVersion history.registered datasetId = some version
  cache : ∀ datasetId, history.registry.cache datasetId =
    (history.touched datasetId).bind fun version =>
      contentOf history.registered (datasetId, version)
  touched : ∀ datasetId, (history.touched datasetId).isSome ↔
    (latestVersion history.registered datasetId).isSome
  content : ∀ datasetId version, history.touched datasetId = some version →
    (contentOf history.registered (datasetId, version)).isSome

/-- No two versions with certain names have one file. -/
abbrev FilesApart (names : Set (String × String)) : Prop :=
  Set.InjOn (fun pair : String × String => versionPath pair.1 pair.2) names

theorem agrees_start (names : Set (String × String)) : Agrees names ({} : History μ) where
  named _ member := absurd member List.not_mem_nil
  identified _ member := absurd member List.not_mem_nil
  files _ _ := rfl
  index _ _ := iff_of_false List.not_mem_nil nofun
  cache _ := rfl
  touched _ := Iff.rfl
  content := nofun

section Steps

variable {names : Set (String × String)} {history : History μ}

/-- **Storing a record keeps the registry agrees.** -/
theorem Agrees.store (agrees : Agrees names history) (apart : FilesApart names)
    {dataset : DatasetVersion μ} (named : dataset.pair ∈ names)
    (identified : dataset.datasetId ≠ "") :
    Agrees names
      { registry := history.registry.store dataset
        registered := history.registered ++ [dataset]
        touched := Function.update history.touched dataset.datasetId (some dataset.version) } where
  named other member := by
    rcases List.mem_append.mp member with earlier | last
    · exact agrees.named other earlier
    · rwa [List.mem_singleton.mp last]
  identified other member := by
    rcases List.mem_append.mp member with earlier | last
    · exact agrees.identified other earlier
    · rwa [List.mem_singleton.mp last]
  files pair member := by
    rw [contentOf_concat]
    by_cases own : dataset.pair = pair
    · rw [if_pos own, ← own]
      exact Function.update_self ..
    · have other : versionPath pair.1 pair.2 ≠ versionPath dataset.datasetId dataset.version :=
        fun same => own (apart named member same.symm)
      rw [if_neg own, ← agrees.files pair member]
      exact Function.update_of_ne other ..
  index datasetId version := by
    rw [latestVersion_concat, Function.update_apply]
    refine mem_assign_iff.trans ?_
    by_cases own : dataset.datasetId = datasetId
    · rw [if_pos own, if_pos own.symm, Option.some.injEq, eq_comm]
    · rw [if_neg own, if_neg (Ne.symm own)]
      exact agrees.index datasetId version
  cache datasetId := by
    change Function.update history.registry.cache dataset.datasetId (some dataset) datasetId =
      (Function.update history.touched dataset.datasetId (some dataset.version) datasetId).bind
        fun version => contentOf (history.registered ++ [dataset]) (datasetId, version)
    by_cases own : datasetId = dataset.datasetId
    · rw [own, Function.update_self, Function.update_self, Option.bind_some, contentOf_concat,
        if_pos (show dataset.pair = (dataset.datasetId, dataset.version) from rfl)]
    · have kept : ∀ version, contentOf (history.registered ++ [dataset]) (datasetId, version) =
          contentOf history.registered (datasetId, version) := fun version => by
        rw [contentOf_concat, if_neg fun same => own (datasetId_of_pair same).symm]
      rw [Function.update_of_ne own, Function.update_of_ne own]
      simp only [kept]
      exact agrees.cache datasetId
  touched datasetId := by
    change (Function.update history.touched dataset.datasetId (some dataset.version)
      datasetId).isSome ↔ (latestVersion (history.registered ++ [dataset]) datasetId).isSome
    rw [latestVersion_concat, Function.update_apply, Function.update_apply]
    split_ifs
    · exact Iff.rfl
    · exact agrees.touched datasetId
  content datasetId version last := by
    change Function.update history.touched dataset.datasetId (some dataset.version) datasetId =
      some version at last
    rw [contentOf_concat]
    split_ifs with own
    · rfl
    · rw [Function.update_apply] at last
      split_ifs at last with here
      · rw [here, ← Option.some.inj last] at own
        exact absurd rfl own
      · exact agrees.content datasetId version last

/-- What the cache holds is the content of its own version. -/
theorem Agrees.contentOf_cached (agrees : Agrees names history) {datasetId : String}
    {dataset : DatasetVersion μ} (held : history.registry.cache datasetId = some dataset) :
    history.touched datasetId = some dataset.version ∧
      contentOf history.registered (datasetId, dataset.version) = some dataset := by
  rw [agrees.cache] at held
  obtain ⟨version, last, content⟩ := Option.bind_eq_some_iff.mp held
  have own : dataset.version = version := (Prod.mk.inj (of_lastWhere content).2).2
  rw [own]
  exact ⟨last, content⟩

variable {readBack : DatasetVersion μ → DatasetVersion μ} {int : String → Option ℤ}

/-- A read without a version returns the version last registered or read, and changes
nothing. -/
theorem Agrees.get_latest (agrees : Agrees names history) (datasetId : String) :
    history.registry.get readBack datasetId none =
      (history.registry, (history.touched datasetId).bind fun version =>
        contentOf history.registered (datasetId, version)) := by
  rw [← agrees.cache datasetId]
  unfold Registry.get cached
  cases held : history.registry.cache datasetId with
  | some dataset => rfl
  | none =>
      have untouched : history.touched datasetId = none := by
        refine Option.eq_none_iff_forall_ne_some.mpr fun version last => ?_
        have found := agrees.content datasetId version last
        rw [agrees.cache, last, Option.bind_some] at held
        rw [held] at found
        cases found
      have unregistered : latestVersion history.registered datasetId = none := by
        rw [← Option.not_isSome_iff_eq_none, ← agrees.touched, untouched]
        exact Bool.false_ne_true
      rw [Option.filter_none, Option.none_or, lookup_eq_of_mem_iff agrees.index,
        unregistered]

/-- **A read of a version returns what was last registered under it, and leaves it in the
cache.** -/
theorem Agrees.get_version (agrees : Agrees names history)
    (lossless : ∀ dataset, readBack dataset = dataset) {datasetId version : String}
    (named : (datasetId, version) ∈ names) :
    history.registry.get readBack datasetId (some version) =
      match contentOf history.registered (datasetId, version) with
      | none => (history.registry, none)
      | some dataset =>
          ({ history.registry with
              cache := Function.update history.registry.cache datasetId (some dataset) },
            some dataset) := by
  have file := agrees.files _ named
  unfold Registry.get cached
  cases hit : (history.registry.cache datasetId).filter fun dataset =>
      some version = none ∨ some version = some dataset.version with
  | some dataset =>
      obtain ⟨held, same⟩ := Option.filter_eq_some_iff.mp hit
      have own : version = dataset.version := by simpa using same
      have kept : Function.update history.registry.cache datasetId (some dataset) =
          history.registry.cache := by
        rw [← held, Function.update_eq_self]
      rw [own, (agrees.contentOf_cached held).2]
      simp only [kept]
  | none =>
      simp only [Option.some_or, file]
      cases content : contentOf history.registered (datasetId, version) with
      | none => rfl
      | some dataset => simp only [lossless]

/-- A version in the cache in place of another. -/
theorem Agrees.recache (agrees : Agrees names history) {datasetId version : String}
    {dataset : DatasetVersion μ}
    (found : contentOf history.registered (datasetId, version) = some dataset) :
    Agrees names
      { registry := { history.registry with
          cache := Function.update history.registry.cache datasetId (some dataset) }
        registered := history.registered
        touched := Function.update history.touched datasetId (some version) } where
  named := agrees.named
  identified := agrees.identified
  files := agrees.files
  index := agrees.index
  cache other := by
    change Function.update history.registry.cache datasetId (some dataset) other =
      (Function.update history.touched datasetId (some version) other).bind
        fun version => contentOf history.registered (other, version)
    by_cases own : other = datasetId
    · rw [own, Function.update_self, Function.update_self, Option.bind_some, found]
    · rw [Function.update_of_ne own, Function.update_of_ne own]
      exact agrees.cache other
  touched other := by
    change (Function.update history.touched datasetId (some version) other).isSome ↔ _
    by_cases own : other = datasetId
    · rw [own, Function.update_self]
      have registered : (latestVersion history.registered datasetId).isSome := by
        rw [latestVersion, Option.isSome_map]
        exact lastWhere_isSome_iff.mpr
          ⟨dataset, (of_lastWhere found).1, datasetId_of_pair (of_lastWhere found).2⟩
      exact iff_of_true rfl registered
    · rw [Function.update_of_ne own]
      exact agrees.touched other
  content other last touched := by
    change Function.update history.touched datasetId (some version) other = some last at touched
    by_cases own : other = datasetId
    · rw [own, Function.update_self, Option.some.injEq] at touched
      change (contentOf history.registered (other, last)).isSome
      rw [own, ← touched, found]
      rfl
    · rw [Function.update_of_ne own] at touched
      exact agrees.content other last touched

/-- The reads of `list_all`: every entry that names a latest version puts it into the cache. -/
theorem Agrees.readAll (agrees : Agrees names history)
    (lossless : ∀ dataset, readBack dataset = dataset) {entries : List (String × String)}
    (latest : ∀ entry ∈ entries, latestVersion history.registered entry.1 = some entry.2) :
    Agrees names
      { registry := (history.registry.readAll readBack entries).1
        registered := history.registered
        touched := fun datasetId =>
          if datasetId ∈ entries.map Prod.fst then latestVersion history.registered datasetId
          else history.touched datasetId } := by
  induction entries using List.reverseRecOn with
  | nil => exact agrees
  | append_singleton entries entry ih =>
      have before := ih fun other member => latest other (List.mem_append_left _ member)
      have newest := latest entry (List.mem_append_right _ (List.mem_singleton_self entry))
      obtain ⟨dataset, last, version⟩ := Option.map_eq_some_iff.mp newest
      have found : contentOf history.registered (entry.1, entry.2) = some dataset := by
        rw [← version]
        exact contentOf_of_latestOf last
      have named : (entry.1, entry.2) ∈ names := by
        rw [← (of_lastWhere found).2]
        exact agrees.named dataset (of_lastWhere found).1
      have read := before.get_version lossless named
      have recached := before.recache found
      simp only [found] at read
      unfold Registry.readAll at read recached ⊢
      rw [List.foldl_append]
      simp only [List.foldl_cons, List.foldl_nil, read]
      convert recached using 2
      funext datasetId
      rw [Function.update_apply]
      by_cases own : datasetId = entry.1
      · rw [if_pos own, if_pos (by simp [own]), own, newest]
      · rw [if_neg own]
        refine if_congr ?_ rfl rfl
        rw [List.map_append, List.mem_append]
        refine or_iff_left fun last => own ?_
        simpa using last

/-- The reads of `list_all` leave the latest version of every dataset in the cache. -/
theorem Agrees.listAll (agrees : Agrees names history)
    (lossless : ∀ dataset, readBack dataset = dataset) :
    Agrees names
      { registry := (history.registry.listAll readBack).1
        registered := history.registered
        touched := latestVersion history.registered } := by
  have read := agrees.readAll lossless
    fun entry member => (agrees.index entry.1 entry.2).mp member
  have everywhere : (fun datasetId =>
      if datasetId ∈ history.registry.index.map Prod.fst then
        latestVersion history.registered datasetId
      else history.touched datasetId) = latestVersion history.registered := by
    funext datasetId
    split_ifs with listed
    · rfl
    · have unregistered : latestVersion history.registered datasetId = none := by
        refine Option.eq_none_iff_forall_ne_some.mpr fun version latest => listed ?_
        exact List.mem_map.mpr ⟨_, (agrees.index datasetId version).mpr latest, rfl⟩
      rw [unregistered, ← Option.not_isSome_iff_eq_none, agrees.touched, unregistered]
      exact Bool.false_ne_true
  rw [everywhere] at read
  exact read

/-! ## One call -/

/-- A bump copies what the cache holds. -/
theorem Agrees.bumpVersion_eq (agrees : Agrees names history) (datasetId : String)
    (now : ℤ) (uuid : FreshId) :
    history.registry.bumpVersion readBack int datasetId now uuid =
      match history.registry.cache datasetId with
      | none => (history.registry, .error (.notFound datasetId))
      | some current =>
          match current.bumped int datasetId now with
          | .error error => (history.registry, .error error)
          | .ok dataset =>
              (history.registry.store (dataset.withId uuid),
                .ok (dataset.withId uuid).datasetId) := by
  unfold Registry.bumpVersion
  rw [agrees.get_latest, ← agrees.cache]
  cases history.registry.cache datasetId with
  | none => rfl
  | some current =>
      cases made : current.bumped int datasetId now with
      | error error => simp only [made]
      | ok dataset =>
          simp only [made]
          rfl

theorem Agrees.creates_bump (agrees : Agrees names history) (datasetId : String)
    (now : ℤ) (uuid : FreshId) :
    history.registry.creates readBack int (.bumpVersion datasetId now uuid) =
      (history.registry.cache datasetId).bind fun current =>
        (current.bumped int datasetId now).toOption.bind fun dataset =>
          some (dataset.withId uuid) := by
  rw [creates_bumpVersion, agrees.get_latest, ← agrees.cache]

/-- What a call registers, it stores. -/
theorem Agrees.step_of_creates (agrees : Agrees names history)
    {call : RegistryCall μ} {dataset : DatasetVersion μ}
    (creates : history.registry.creates readBack int call = some dataset) :
    history.registry.step readBack int call = history.registry.store dataset ∧
      dataset.datasetId ≠ "" := by
  cases call with
  | register given uuid =>
      cases creates
      exact ⟨rfl, withId_ne_empty given uuid⟩
  | bumpVersion datasetId now uuid =>
      rw [agrees.creates_bump] at creates
      obtain ⟨current, held, copied⟩ := Option.bind_eq_some_iff.mp creates
      obtain ⟨copy, made, same⟩ := Option.bind_eq_some_iff.mp copied
      cases same
      refine ⟨?_, withId_ne_empty copy uuid⟩
      rw [step_bumpVersion, agrees.bumpVersion_eq, held]
      cases result : current.bumped int datasetId now with
      | error error =>
          rw [result] at made
          cases made
      | ok dataset =>
          rw [result] at made
          cases made
          simp only [result]
  | get datasetId version => cases creates
  | latest datasetId => cases creates
  | listAll => cases creates

/-- A bump that registers nothing changes nothing. -/
theorem Agrees.step_bump_of_none (agrees : Agrees names history) {datasetId : String} {now : ℤ}
    {uuid : FreshId}
    (creates : history.registry.creates readBack int (.bumpVersion datasetId now uuid) = none) :
    history.registry.step readBack int (.bumpVersion datasetId now uuid) = history.registry := by
  rw [agrees.creates_bump] at creates
  rw [step_bumpVersion, agrees.bumpVersion_eq]
  cases held : history.registry.cache datasetId with
  | none => rfl
  | some current =>
      rw [held, Option.bind_some] at creates
      cases made : current.bumped int datasetId now with
      | error error => simp only [made]
      | ok dataset =>
          rw [made] at creates
          cases creates

/-- The version that a call asks for. -/
def RegistryCall.asks : RegistryCall μ → Option (String × String)
  | .get datasetId (some version) => some (datasetId, version)
  | _ => none

/-- A call that registers nothing leaves the registry agrees. -/
theorem Agrees.step_of_none (agrees : Agrees names history)
    (lossless : ∀ dataset, readBack dataset = dataset) {call : RegistryCall μ}
    (asked : ∀ pair, call.asks = some pair → pair ∈ names)
    (creates : history.registry.creates readBack int call = none) :
    Agrees names
      { registry := history.registry.step readBack int call
        registered := history.registered
        touched := touch history.registered history.touched call } := by
  cases call with
  | register given uuid => cases creates
  | bumpVersion datasetId now uuid =>
      rw [agrees.step_bump_of_none creates]
      exact agrees
  | get datasetId version =>
      cases version with
      | none =>
          rw [step_get, agrees.get_latest]
          exact agrees
      | some version =>
          rw [step_get, agrees.get_version lossless (asked _ rfl)]
          cases found : contentOf history.registered (datasetId, version) with
          | none =>
              rw [touch, found]
              exact agrees
          | some dataset =>
              rw [touch, found]
              exact agrees.recache found
  | latest datasetId =>
      rw [step_latest, agrees.get_latest]
      exact agrees
  | listAll => exact agrees.listAll lossless

/-- **Every call keeps the registry consistent with its history**, as long as the versions that
it asks for or registers have files of their own. -/
theorem Agrees.step (agrees : Agrees names history)
    (lossless : ∀ dataset, readBack dataset = dataset) (apart : FilesApart names)
    {call : RegistryCall μ} (asked : ∀ pair, call.asks = some pair → pair ∈ names)
    (created : ∀ dataset, history.registry.creates readBack int call = some dataset →
      dataset.pair ∈ names) :
    Agrees names (history.step readBack int call) := by
  unfold History.step
  cases creates : history.registry.creates readBack int call with
  | none => exact agrees.step_of_none lossless asked creates
  | some dataset =>
      obtain ⟨stored, identified⟩ := agrees.step_of_creates creates
      rw [stored]
      exact agrees.store apart (created dataset creates) identified

end Steps

end TradeOS.Research
