import TradeOS.Research.ExperimentRegistry

/-!
# What registries of experiments know of each other

Nothing that was registered is lost from the directory: a registry that is opened at the end of any
run finds every experiment by its id, as it was registered last. What it lists is another matter.
It lists the ids that the registry knew that registered last, and no others
(`reopened_registry_lists_last_writer`).

When only the registry registers that was opened last, this is no loss: the registry, and every one
opened later, is the dictionary of all registrations (`one_writer_registry_is_dictionary`), in its
reads and in its listings.
-/

set_option autoImplicit false

namespace TradeOS.Research

open Dictionary LastWrite SharedStore

variable {π : Type}

/-- The record last registered under an id. -/
def lastRegistered (registered : List (Experiment π)) (id : String) : Option (Experiment π) :=
  assigned (registered.map Experiment.entry) id

theorem lastRegistered_concat (registered : List (Experiment π)) (experiment : Experiment π)
    (id : String) :
    lastRegistered (registered ++ [experiment]) id =
      if experiment.experimentId = id then some experiment else lastRegistered registered id := by
  rw [lastRegistered, List.map_append, List.map_singleton, assigned_concat]
  rfl

/-- A record last registered was registered, under its id. -/
theorem mem_of_lastRegistered {registered : List (Experiment π)} {id : String}
    {experiment : Experiment π} (last : lastRegistered registered id = some experiment) :
    experiment ∈ registered := by
  obtain ⟨before, after, split, -⟩ := assigned_eq_some_iff.mp last
  have member : (id, experiment) ∈ registered.map Experiment.entry := by
    rw [split]
    simp
  obtain ⟨other, listed, same⟩ := List.mem_map.mp member
  rwa [← (Prod.mk.inj same).2]

section Histories

variable {readBack : Experiment π → Option (Experiment π)} {registries : Registries π}
  {registered : List (Experiment π)}

/-- What holds of registries on one directory, whoever registered what. -/
structure Knows (registries : Registries π) (registered : List (Experiment π)) : Prop where
  files : registries.directory.files = lastRegistered registered
  caches : ∀ client cache, registries.caches client = some cache →
    (cache.map Prod.fst).Nodup ∧
      ∀ id ∈ cache.map Prod.fst, (lastRegistered registered id).isSome

theorem read_isSome (files : registries.directory.files = lastRegistered registered)
    {id : String} {experiment : Experiment π}
    (read : registries.directory.read readBack id = some experiment) :
    (lastRegistered registered id).isSome := by
  rw [Directory.read, files] at read
  obtain ⟨written, found, -⟩ := Option.bind_eq_some_iff.mp read
  exact Option.isSome_iff_exists.mpr ⟨written, found⟩

theorem read_eq (files : registries.directory.files = lastRegistered registered)
    (lossless : ∀ experiment ∈ registered, readBack experiment = some experiment) :
    registries.directory.read readBack = lastRegistered registered := by
  funext id
  rw [Directory.read, files]
  cases last : lastRegistered registered id with
  | none => rfl
  | some experiment => exact lossless experiment (mem_of_lastRegistered last)

/-- What is fetched was registered. -/
theorem fetched_known (files : registries.directory.files = lastRegistered registered)
    {cache : Cache π} (known : (cache.map Prod.fst).Nodup ∧
      ∀ id ∈ cache.map Prod.fst, (lastRegistered registered id).isSome) (id : String) :
    ((fetch (registries.directory.read readBack) cache id).map Prod.fst).Nodup ∧
      ∀ name ∈ (fetch (registries.directory.read readBack) cache id).map Prod.fst,
        (lastRegistered registered name).isSome := by
  refine ⟨nodup_fetch known.1 id, fun name member => ?_⟩
  obtain ⟨entry, listed, rfl⟩ := List.mem_map.mp member
  rcases mem_fetch_iff.mp listed with old | ⟨same, -, read⟩
  · exact known.2 entry.1 (List.mem_map.mpr ⟨entry, old, rfl⟩)
  · rw [same]
    exact read_isSome files read

/-- One registry changed, and nothing was lost. -/
theorem Knows.put (knows : Knows registries registered) {later : List (Experiment π)}
    (grows : ∀ id, (lastRegistered registered id).isSome → (lastRegistered later id).isSome)
    (client : ℕ) {left : Directory π × Cache π} (files : left.1.files = lastRegistered later)
    (known : (left.2.map Prod.fst).Nodup ∧
      ∀ id ∈ left.2.map Prod.fst, (lastRegistered later id).isSome) :
    Knows (registries.put client left) later := by
  refine ⟨files, fun other cache found => ?_⟩
  rw [put_caches] at found
  by_cases own : other = client
  · rw [own, Function.update_self] at found
    rwa [← Option.some.inj found]
  · rw [Function.update_of_ne own] at found
    obtain ⟨distinct, old⟩ := knows.caches other cache found
    exact ⟨distinct, fun id member => grows id (old id member)⟩

/-- A registration makes one more id known. -/
theorem lastRegistered_concat_isSome {experiment : Experiment π} {id : String}
    (either : id = experiment.experimentId ∨ (lastRegistered registered id).isSome) :
    (lastRegistered (registered ++ [experiment]) id).isSome := by
  rw [lastRegistered_concat]
  by_cases own : experiment.experimentId = id
  · rw [if_pos own]
    rfl
  · rw [if_neg own]
    exact either.resolve_left (Ne.symm own)

variable (readBack) in
/-- **One call keeps what is known.** -/
theorem Knows.call (knows : Knows registries registered) (call : ExperimentCall π) :
    Knows (registries.call readBack call).1
      (registered ++ (registries.call readBack call).2.toList) := by
  have called := call_called readBack registries call
  generalize call.client = client at called
  generalize call.opens = opens at called
  generalize registries.call readBack call = done at called
  cases called with
  | closed absent =>
      rw [Option.toList_none, List.append_nil]
      exact knows
  | opened =>
      rw [Option.toList_none, List.append_nil]
      refine knows.put (fun _ some => some) client knows.files ⟨nodup_load _, fun id member => ?_⟩
      obtain ⟨entry, listed, rfl⟩ := List.mem_map.mp member
      exact read_isSome knows.files (mem_load listed)
  | fetched found id =>
      rw [Option.toList_none, List.append_nil]
      exact knows.put (fun _ some => some) client knows.files
        (fetched_known knows.files (knows.caches _ _ found) id)
  | @stored cache found id fetches experiment =>
      have known : ((if fetches then fetch (registries.directory.read readBack) cache id
            else cache).map Prod.fst).Nodup ∧
          ∀ name ∈ (if fetches then fetch (registries.directory.read readBack) cache id
            else cache).map Prod.fst, (lastRegistered registered name).isSome := by
        cases fetches with
        | true => exact fetched_known knows.files (knows.caches _ _ found) id
        | false => exact knows.caches _ _ found
      refine knows.put (fun name some => lastRegistered_concat_isSome (.inr some)) client ?_
        ⟨nodup_assign known.1 _, fun name member => ?_⟩
      · funext name
        rw [store_files, lastRegistered_concat, Function.update_apply, knows.files]
        by_cases own : experiment.experimentId = name
        · rw [if_pos own, if_pos own.symm]
        · rw [if_neg own, if_neg (Ne.symm own)]
      · refine lastRegistered_concat_isSome ((mem_keys_assign.mp member).imp_right fun old => ?_)
        exact known.2 name old

variable (readBack) in
theorem Knows.run (knows : Knows registries registered) (calls : List (ExperimentCall π)) :
    Knows (registries.run readBack calls)
      (registered ++ registries.registered readBack calls) := by
  induction calls generalizing registries registered with
  | nil =>
      rw [Registries.registered, List.append_nil]
      exact knows
  | cons call calls ih =>
      rw [Registries.registered, ← List.append_assoc]
      exact ih (knows.call readBack call)

theorem Knows.nil : Knows ({} : Registries π) [] :=
  ⟨rfl, fun _ _ found => by cases found⟩

variable (readBack) in
theorem registered_append (registries : Registries π) (calls others : List (ExperimentCall π)) :
    registries.registered readBack (calls ++ others) =
      registries.registered readBack calls ++
        (registries.run readBack calls).registered readBack others := by
  induction calls generalizing registries with
  | nil => rfl
  | cons call calls ih =>
      rw [List.cons_append, Registries.registered, Registries.registered, ih, List.append_assoc]
      rfl

theorem run_append (registries : Registries π) (calls others : List (ExperimentCall π)) :
    registries.run readBack (calls ++ others) =
      (registries.run readBack calls).run readBack others :=
  List.foldl_append

/-- Calls that register nothing leave the directory alone. -/
theorem directory_of_silent {calls : List (ExperimentCall π)}
    (silent : registries.registered readBack calls = []) :
    (registries.run readBack calls).directory = registries.directory := by
  induction calls generalizing registries with
  | nil => rfl
  | cons call calls ih =>
      rw [Registries.registered, List.append_eq_nil_iff] at silent
      have called := call_called readBack registries call
      refine (ih silent.2).trans ?_
      generalize call.opens = opens at called
      generalize registries.call readBack call = done at called silent
      cases called with
      | closed absent => rfl
      | opened => rfl
      | fetched found id => rfl
      | stored found id fetches experiment => cases silent.1

/-- A call that registers leaves the keys of its cache in the index. -/
theorem index_of_writes {call : ExperimentCall π}
    (writes : (registries.call readBack call).2.isSome) :
    ∃ cache, (registries.call readBack call).1.caches call.client = some cache ∧
      (registries.call readBack call).1.directory.index = some (cache.map Prod.fst) := by
  have called := call_called readBack registries call
  generalize call.client = client at called
  generalize call.opens = opens at called
  generalize registries.call readBack call = done at called writes
  cases called with
  | closed absent => cases writes
  | opened => cases writes
  | fetched found id => cases writes
  | stored found id fetches experiment =>
      rw [put_caches, Function.update_self]
      exact ⟨_, rfl, rfl⟩

end Histories

/-! ## Any interleaving -/

/-- What a registry gives for an id whose file holds what was registered last. -/
theorem get_of_read {readBack : Experiment π → Option (Experiment π)} {directory : Directory π}
    {registered : List (Experiment π)} (files : directory.files = lastRegistered registered)
    (lossless : ∀ experiment ∈ registered, readBack experiment = some experiment) {cache : Cache π}
    {id : String} (cached : ∀ experiment, cache.lookup id = some experiment →
      lastRegistered registered id = some experiment) :
    (getExperiment readBack directory cache id).2 = .ok (lastRegistered registered id) := by
  unfold getExperiment
  cases known : cache.lookup id with
  | some experiment =>
      rw [cached experiment known]
  | none =>
      rw [files]
      cases last : lastRegistered registered id with
      | none => rfl
      | some experiment =>
          dsimp only
          rw [lossless experiment (mem_of_lastRegistered last)]

/-- **A registry that is opened lists what the last writer knew, and finds everything.** In any
run of any registries on one directory, after the last call that registered: a registry opened now
has the keys that the cache of this caller had, each with the record last registered under it by
anyone; and by its id it finds every experiment, as it was registered last. -/
theorem reopened_registry_lists_last_writer (readBack : Experiment π → Option (Experiment π))
    (before after : List (ExperimentCall π)) (call : ExperimentCall π)
    (lossless : ∀ experiment ∈ ({} : Registries π).registered readBack (before ++ call :: after),
      readBack experiment = some experiment)
    (writes : ((({} : Registries π).run readBack before).call readBack call).2.isSome)
    (silent : ((({} : Registries π).run readBack before).call readBack call).1.registered readBack
      after = []) :
    let registered := ({} : Registries π).registered readBack (before ++ call :: after)
    let left := (({} : Registries π).run readBack (before ++ call :: after)).directory
    let fresh := left.loadIndex readBack
    ∃ cache, ((({} : Registries π).run readBack before).call readBack call).1.caches call.client =
        some cache ∧
      fresh.map Prod.fst = cache.map Prod.fst ∧
      (∀ id ∈ cache.map Prod.fst, fresh.lookup id = lastRegistered registered id) ∧
      ∀ id, (getExperiment readBack left fresh id).2 = .ok (lastRegistered registered id) := by
  intro registered left fresh
  obtain ⟨cache, found, index⟩ := index_of_writes writes
  have knows := (Knows.nil.run readBack before).call readBack call
  have whole : registered = [] ++ ({} : Registries π).registered readBack before ++
      ((({} : Registries π).run readBack before).call readBack call).2.toList := by
    simp only [registered]
    rw [registered_append, Registries.registered, silent, List.append_nil, List.nil_append]
  rw [← whole] at knows
  have same : left =
      ((({} : Registries π).run readBack before).call readBack call).1.directory := by
    simp only [left]
    rw [run_append]
    exact directory_of_silent silent
  have read : left.read readBack = lastRegistered registered := by
    rw [same]
    exact read_eq knows.files lossless
  obtain ⟨distinct, known⟩ := knows.caches _ cache found
  have loads : fresh = load (lastRegistered registered) (cache.map Prod.fst) := by
    simp only [fresh, Directory.loadIndex]
    rw [read, same, index]
    rfl
  refine ⟨cache, found, ?_, fun id member => ?_, fun id => ?_⟩
  · rw [loads, keys_load distinct known]
  · rw [loads, lookup_load distinct, if_pos member]
  · refine get_of_read (same ▸ knows.files) lossless fun experiment cached => ?_
    rw [loads, lookup_load distinct] at cached
    by_cases member : id ∈ cache.map Prod.fst
    · rwa [if_pos member] at cached
    · rw [if_neg member] at cached
      cases cached

/-- An experiment with an id. -/
def sampleExperiment (id : String) : Experiment Unit where
  experimentId := id
  modelName := "ridge"
  createdAt := 0
  rest := ()

/-- A second writer drops the experiment of the first from the listing. -/
theorem reopened_registry_lists_last_writer_of_two :
    let uuid : FreshId := ⟨"uuid", by decide⟩
    let calls : List (ExperimentCall Unit) := [.openRegistry 0, .openRegistry 1,
      .register 0 (sampleExperiment "first") uuid, .register 1 (sampleExperiment "second") uuid]
    let left := (({} : Registries Unit).run some calls).directory
    (left.loadIndex some).map Prod.fst = ["second"] ∧
      (getExperiment some left (left.loadIndex some) "first").2 =
        .ok (some (sampleExperiment "first")) := by
  intro uuid calls left
  obtain ⟨cache, found, keys, -, finds⟩ := reopened_registry_lists_last_writer some
    [.openRegistry 0, .openRegistry 1, .register 0 (sampleExperiment "first") uuid] []
    (.register 1 (sampleExperiment "second") uuid) (fun _ _ => rfl) rfl rfl
  obtain rfl : [("second", sampleExperiment "second")] = cache := Option.some.inj found
  exact ⟨keys, finds "first"⟩

/-! ## One writer at a time -/

/-- The registry that was opened last. -/
def lastOpened (calls : List (ExperimentCall π)) : Option ℕ := lastWrite ExperimentCall.opens calls

/-- The dictionary of a list of registrations. -/
def dictionary (registered : List (Experiment π)) : Cache π :=
  update [] (registered.map Experiment.entry)

theorem dictionary_concat (registered : List (Experiment π)) (experiment : Experiment π) :
    dictionary (registered ++ [experiment]) = assign (dictionary registered) experiment.entry := by
  rw [dictionary, List.map_append, List.map_singleton, update_concat]
  rfl

/-- The directory is the dictionary of the registrations, and so is the cache of a registry. -/
structure Synced (registries : Registries π) (registered : List (Experiment π))
    (writer : Option ℕ) : Prop where
  files : registries.directory.files = lastRegistered registered
  index : registries.directory.index.getD [] = (dictionary registered).map Prod.fst
  cache : ∀ client, writer = some client →
    registries.caches client = some (dictionary registered)

section OneWriter

variable {readBack : Experiment π → Option (Experiment π)} {registries : Registries π}
  {registered : List (Experiment π)} {writer : Option ℕ}

/-- A registry that is opened is the dictionary. -/
theorem Synced.loadIndex (synced : Synced registries registered writer)
    (lossless : ∀ experiment ∈ registered, readBack experiment = some experiment) :
    registries.directory.loadIndex readBack = dictionary registered := by
  rw [Directory.loadIndex, read_eq synced.files lossless, synced.index]
  have lookups : lastRegistered registered = fun id => (dictionary registered).lookup id := by
    funext id
    exact (lookup_update _ id).symm
  rw [lookups]
  exact load_lookup (nodup_update _)

/-- A fetch adds nothing to the dictionary. -/
theorem Synced.fetch (synced : Synced registries registered writer) (id : String) :
    fetch (registries.directory.read readBack) (dictionary registered) id =
      dictionary registered := by
  unfold SharedStore.fetch
  by_cases known : id ∈ (dictionary registered).map Prod.fst
  · rw [if_pos known]
  · rw [if_neg known]
    have absent : lastRegistered registered id = none := by
      rw [lastRegistered, ← lookup_update, List.lookup_eq_none_iff]
      intro entry listed
      simp only [bne_iff_ne]
      rintro rfl
      exact known (List.mem_map.mpr ⟨entry, listed, rfl⟩)
    rw [Directory.read, synced.files, absent]
    rfl

/-- **One call keeps the directory and the writer in step.** -/
theorem Synced.call (synced : Synced registries registered writer) (call : ExperimentCall π)
    (lossless : ∀ experiment ∈ registered, readBack experiment = some experiment)
    (own : (registries.call readBack call).2.isSome → writer = some call.client) :
    Synced (registries.call readBack call).1
      (registered ++ (registries.call readBack call).2.toList) (call.opens.or writer) := by
  have called := call_called readBack registries call
  generalize call.client = client at called own
  generalize call.opens = opens at called
  generalize registries.call readBack call = done at called own
  cases called with
  | closed absent =>
      rw [Option.toList_none, List.append_nil, Option.none_or]
      exact synced
  | opened =>
      rw [Option.toList_none, List.append_nil, Option.some_or]
      refine ⟨synced.files, synced.index, fun other same => ?_⟩
      rw [put_caches, ← Option.some.inj same, Function.update_self, synced.loadIndex lossless]
  | @fetched cache found id =>
      rw [Option.toList_none, List.append_nil, Option.none_or]
      refine ⟨synced.files, synced.index, fun other same => ?_⟩
      have held := synced.cache other same
      rw [put_caches]
      by_cases here : other = client
      · rw [here, Function.update_self]
        rw [here, found] at held
        rw [Option.some.inj held]
        exact congrArg some (synced.fetch id)
      · rwa [Function.update_of_ne here]
  | @stored cache found id fetches experiment =>
      have writes := own rfl
      have held := synced.cache client writes
      rw [found] at held
      obtain rfl := Option.some.inj held
      have still : (if fetches then SharedStore.fetch (registries.directory.read readBack)
          (dictionary registered) id else dictionary registered) = dictionary registered := by
        cases fetches with
        | true => exact synced.fetch id
        | false => rfl
      rw [still, Option.toList_some, Option.none_or]
      refine ⟨?_, ?_, fun other same => ?_⟩
      · funext name
        rw [put_directory, store_files, lastRegistered_concat, Function.update_apply, synced.files]
        by_cases here : experiment.experimentId = name
        · rw [if_pos here, if_pos here.symm]
        · rw [if_neg here, if_neg (Ne.symm here)]
      · rw [dictionary_concat]
        rfl
      · rw [writes] at same
        rw [put_caches, ← Option.some.inj same, Function.update_self, dictionary_concat]
        rfl

end OneWriter

/-- **A run with one writer at a time keeps the directory and the writer in step.** -/
theorem synced_run (readBack : Experiment π → Option (Experiment π))
    (calls : List (ExperimentCall π))
    (lossless : ∀ experiment ∈ ({} : Registries π).registered readBack calls,
      readBack experiment = some experiment)
    (one : ∀ before call after, calls = before ++ call :: after →
      ((({} : Registries π).run readBack before).call readBack call).2.isSome →
        lastOpened before = some call.client) :
    Synced (({} : Registries π).run readBack calls) (({} : Registries π).registered readBack calls)
      (lastOpened calls) := by
  induction calls using List.reverseRecOn with
  | nil => exact ⟨rfl, rfl, fun client same => by cases same⟩
  | append_singleton calls call ih =>
      have split := registered_append readBack ({} : Registries π) calls [call]
      rw [Registries.registered, Registries.registered, List.append_nil] at split
      rw [split] at lossless
      have before : Synced (({} : Registries π).run readBack calls)
          (({} : Registries π).registered readBack calls) (lastOpened calls) := by
        refine ih (fun experiment member => lossless _ (List.mem_append_left _ member)) ?_
        rintro first other last rfl writes
        exact one first other (last ++ [call]) (by simp) writes
      have next := before.call call
        (fun experiment member => lossless _ (List.mem_append_left _ member))
        (one calls call [] rfl)
      rw [split, run_append, lastOpened, lastWrite_concat]
      exact next

/-- **With one writer at a time the registry is a dictionary on disk.** When only the registry that
was opened last registers and updates, its cache is at all times the dictionary of all
registrations, in the order in which the ids were registered first, and any registry that is opened
now is the same dictionary: it lists the same experiments in the same order, and finds for every id
what was registered last. -/
theorem one_writer_registry_is_dictionary (readBack : Experiment π → Option (Experiment π))
    (calls : List (ExperimentCall π))
    (lossless : ∀ experiment ∈ ({} : Registries π).registered readBack calls,
      readBack experiment = some experiment)
    (one : ∀ before call after, calls = before ++ call :: after →
      ((({} : Registries π).run readBack before).call readBack call).2.isSome →
        lastOpened before = some call.client) :
    let registered := ({} : Registries π).registered readBack calls
    let left := ({} : Registries π).run readBack calls
    (∀ client, lastOpened calls = some client →
        left.caches client = some (dictionary registered)) ∧
      left.directory.loadIndex readBack = dictionary registered ∧
      ∀ id, (getExperiment readBack left.directory (dictionary registered) id).2 =
        .ok (lastRegistered registered id) := by
  intro registered left
  have synced : Synced left registered (lastOpened calls) := synced_run readBack calls lossless one
  refine ⟨synced.cache, synced.loadIndex lossless, fun id => ?_⟩
  refine get_of_read synced.files lossless fun experiment cached => ?_
  rwa [dictionary, lookup_update] at cached

/-! ### A run of two registries -/

/-- Along the calls, only the registry that was opened last registers. -/
def oneWriter (readBack : Experiment π → Option (Experiment π)) :
    Registries π → Option ℕ → List (ExperimentCall π) → Bool
  | _, _, [] => true
  | registries, opened, call :: calls =>
      ((registries.call readBack call).2.isNone || opened = some call.client) &&
        oneWriter readBack (registries.call readBack call).1 (call.opens.or opened) calls

/-- What is checked along the calls holds wherever they are cut. -/
theorem writer_of_oneWriter {readBack : Experiment π → Option (Experiment π)}
    {done calls : List (ExperimentCall π)}
    (follows : oneWriter readBack (({} : Registries π).run readBack done) (lastOpened done) calls)
    (before : List (ExperimentCall π)) (call : ExperimentCall π) (after : List (ExperimentCall π))
    (split : calls = before ++ call :: after)
    (writes : ((({} : Registries π).run readBack (done ++ before)).call readBack call).2.isSome) :
    lastOpened (done ++ before) = some call.client := by
  induction before generalizing done calls with
  | nil =>
      obtain rfl : calls = call :: after := split
      rw [List.append_nil] at writes ⊢
      rcases Bool.or_eq_true_iff.mp (Bool.and_eq_true_iff.mp follows).1 with silent | opened
      · rw [Option.isNone_iff_eq_none.mp silent] at writes
        cases writes
      · exact of_decide_eq_true opened
  | cons first before ih =>
      obtain rfl : calls = first :: (before ++ call :: after) := split
      have regroup : done ++ first :: before = (done ++ [first]) ++ before := by simp
      rw [regroup] at writes ⊢
      refine ih ?_ rfl writes
      have step : ({} : Registries π).run readBack (done ++ [first]) =
          ((({} : Registries π).run readBack done).call readBack first).1 := by
        rw [run_append]
        rfl
      rw [step, lastOpened, lastWrite_concat]
      exact (Bool.and_eq_true_iff.mp follows).2

/-- The change of an update that completes an experiment. -/
def completed : Patch Unit := ⟨fun experiment => { experiment with status := .completed }, fun _ => rfl⟩

/-- Two registries on one directory. The first one registers two experiments; the second one is
opened, completes the first experiment and registers a third one and the second one again. The
first registry still reads. -/
def twoRegistries (uuid : FreshId) : List (ExperimentCall Unit) :=
  [.openRegistry 0, .register 0 (sampleExperiment "first") uuid,
    .register 0 (sampleExperiment "second") uuid, .openRegistry 1,
    .update 1 "first" completed uuid,
    .register 1 { sampleExperiment "third" with createdAt := 5, status := .completed } uuid,
    .register 1 { sampleExperiment "second" with status := .completed } uuid,
    .get 0 "third"]

/-- The records that they register. -/
def twoRegistrations : List (Experiment Unit) :=
  [sampleExperiment "first", sampleExperiment "second",
    { sampleExperiment "first" with status := .completed },
    { sampleExperiment "third" with createdAt := 5, status := .completed },
    { sampleExperiment "second" with status := .completed }]

/-- The second registry is the one that registers once it is opened. -/
theorem oneWriter_twoRegistries (uuid : FreshId) (before : List (ExperimentCall Unit))
    (call : ExperimentCall Unit) (after : List (ExperimentCall Unit))
    (split : twoRegistries uuid = before ++ call :: after)
    (writes : ((({} : Registries Unit).run some before).call some call).2.isSome) :
    lastOpened before = some call.client := by
  have follows : oneWriter some (({} : Registries Unit).run some [])
      (lastOpened ([] : List (ExperimentCall Unit))) (twoRegistries uuid) = true := rfl
  exact writer_of_oneWriter follows before call after split writes

/-- The second registry and one that is opened anew hold three experiments, the first two in the
order in which they were registered first and as they were registered last. -/
theorem one_writer_registry_is_dictionary_of_two :
    let uuid : FreshId := ⟨"uuid", by decide⟩
    let left := ({} : Registries Unit).run some (twoRegistries uuid)
    left.caches 1 = some (dictionary twoRegistrations) ∧
      left.directory.loadIndex some = dictionary twoRegistrations ∧
      (dictionary twoRegistrations).map (fun entry => (entry.1, entry.2.status)) =
        [("first", .completed), ("second", .completed), ("third", .completed)] ∧
      (getExperiment some left.directory (dictionary twoRegistrations) "second").2 =
        .ok (some { sampleExperiment "second" with status := .completed }) := by
  intro uuid left
  have kept := one_writer_registry_is_dictionary some (twoRegistries uuid) (fun _ _ => rfl)
    (oneWriter_twoRegistries uuid)
  exact ⟨kept.1 1 rfl, kept.2.1, by decide, kept.2.2 "second"⟩

end TradeOS.Research
