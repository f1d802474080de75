import TradeOS.Data.SharedStore
import TradeOS.Research.DatasetRegistry

/-!
# Factor sets by name

The alpha registry keeps its factor sets in files of one directory, which several registries may
share. A listing goes through the directory, in whatever order the file system gives, and loads
the files that the registry does not have yet. What it has it never reads again, so the contents
of a listing may be old.

`get_or_create_set` takes the first set with a name from a listing and creates one if there is
none. Names stay unique nevertheless: no registry creates a name that any other has created
(`get_or_create_is_once`), as long as sets are made this way and edited under their own id and
name. For this it does not matter that a cache is old, since an id keeps its name.
-/

set_option autoImplicit false

namespace TradeOS.Research

open Dictionary SharedStore

variable {π : Type}

/-- `AlphaFactorSet`: what the registry reads, and the rest. -/
structure AlphaFactorSet (π : Type) where
  factorSetId : String
  name : String
  createdAt : ℤ
  rest : π

/-- An order in which a directory is listed. -/
abbrev Glob := { order : List String → List String // ∀ names, (order names).Perm names }

/-- Sets under their ids: the files of the directory, or the cache of a registry. -/
abbrev Sets (π : Type) := List (String × AlphaFactorSet π)

/-! ## The operations -/

section Operations

variable (readBack : AlphaFactorSet π → Option (AlphaFactorSet π)) (files cache : Sets π)

/-- The file of a set, read; nothing where it is missing or does not validate. -/
def readSet (id : String) : Option (AlphaFactorSet π) := (files.lookup id).bind readBack

/-- The loop of `list_sets` over the files. It ends at a file that does not validate. -/
def scanSets : Sets π → List String → Sets π × Except Unit Unit
  | cache, [] => (cache, .ok ())
  | cache, id :: ids =>
      if id ∈ cache.map Prod.fst then scanSets cache ids
      else
        match readSet readBack files id with
        | none => (cache, .error ())
        | some factorSet => scanSets (assign cache (id, factorSet)) ids

/-- `list_sets`, the oldest first. -/
def listSets (glob : Glob) : Sets π × Except Unit (List (AlphaFactorSet π)) :=
  match scanSets readBack files cache (glob.val (files.map Prod.fst)) with
  | (cache, .error e) => (cache, .error e)
  | (cache, .ok _) =>
      (cache, .ok ((cache.map Prod.snd).mergeSort fun first second =>
        first.createdAt ≤ second.createdAt))

/-- `register_set`, for a set with an id: the files and the cache. -/
def registerSet (factorSet : AlphaFactorSet π) : Sets π × Sets π :=
  (assign files (factorSet.factorSetId, factorSet), assign cache (factorSet.factorSetId, factorSet))

/-- `get_set`. -/
def getSet (id : String) : Sets π × Except Unit (Option (AlphaFactorSet π)) :=
  match cache.lookup id with
  | some factorSet => (cache, .ok (some factorSet))
  | none =>
      match files.lookup id with
      | none => (cache, .ok none)
      | some written =>
          match readBack written with
          | none => (cache, .error ())
          | some factorSet => (assign cache (id, factorSet), .ok (some factorSet))

/-- `get_or_create_set`, with the set that it may create. -/
def getOrCreateSet (glob : Glob) (name : String) (created : AlphaFactorSet π) :
    (Sets π × Sets π) × Except Unit (AlphaFactorSet π) :=
  match listSets readBack files cache glob with
  | (cache, .error e) => ((files, cache), .error e)
  | (cache, .ok listed) =>
      match listed.filter fun factorSet => factorSet.name = name with
      | existing :: _ => ((files, cache), .ok existing)
      | [] => (registerSet files cache created, .ok created)

end Operations

/-! ## Registries on one directory -/

/-- The files, and the caches of the registries. -/
structure SetRegistries (π : Type) where
  files : Sets π := []
  caches : ℕ → Sets π := fun _ => []

/-- A call, with the number of the registry that is called. A registry that is opened has an empty
cache. What a registry creates has a new id, and a time and defaults of its own. -/
inductive SetCall (π : Type) where
  | openRegistry (client : ℕ)
  | get (client : ℕ) (id : String)
  | list (client : ℕ) (glob : Glob)
  | edit (client : ℕ) (factorSet : AlphaFactorSet π)
  | getOrCreate (client : ℕ) (glob : Glob) (name : String) (uuid : FreshId) (now : ℤ) (rest : π)

section Runs

variable (readBack : AlphaFactorSet π → Option (AlphaFactorSet π))

/-- The registries after a call. -/
def SetRegistries.call (registries : SetRegistries π) : SetCall π → SetRegistries π
  | .openRegistry client =>
      { registries with caches := Function.update registries.caches client [] }
  | .get client id =>
      { registries with
        caches := Function.update registries.caches client
          (getSet readBack registries.files (registries.caches client) id).1 }
  | .list client glob =>
      { registries with
        caches := Function.update registries.caches client
          (listSets readBack registries.files (registries.caches client) glob).1 }
  | .edit client factorSet =>
      let done := registerSet registries.files (registries.caches client) factorSet
      { files := done.1, caches := Function.update registries.caches client done.2 }
  | .getOrCreate client glob name uuid now rest =>
      let done := getOrCreateSet readBack registries.files (registries.caches client) glob name
        ⟨uuid.val, name, now, rest⟩
      { files := done.1.1, caches := Function.update registries.caches client done.1.2 }

/-- A call that respects names: what is edited is there under its id and its name, and a new id is
new. -/
def SetCall.Respectful (registries : SetRegistries π) : SetCall π → Prop
  | .edit _ factorSet =>
      ∃ old, registries.files.lookup factorSet.factorSetId = some old ∧ old.name = factorSet.name
  | .getOrCreate _ _ _ uuid _ _ => registries.files.lookup uuid.val = none
  | _ => True

/-- A run of respectful calls. -/
inductive SetRuns (registries : SetRegistries π) : SetRegistries π → Prop
  | nil : SetRuns registries registries
  | call {reached : SetRegistries π} (runs : SetRuns registries reached) (call : SetCall π)
      (respectful : call.Respectful reached) : SetRuns registries (reached.call readBack call)

end Runs

/-! ## Names -/

/-- What is read back has its id and its name. -/
def KeepsNames (readBack : AlphaFactorSet π → Option (AlphaFactorSet π)) : Prop :=
  ∀ factorSet, ∃ read, readBack factorSet = some read ∧
    read.factorSetId = factorSet.factorSetId ∧ read.name = factorSet.name

/-- A dictionary of sets names an id. -/
def Names (sets : Sets π) (id name : String) : Prop :=
  ∃ factorSet, (id, factorSet) ∈ sets ∧ factorSet.factorSetId = id ∧ factorSet.name = name

/-- The files have distinct ids and distinct names. -/
structure UniqueNames (files : Sets π) : Prop where
  distinct : (files.map Prod.fst).Nodup
  own : ∀ id factorSet, (id, factorSet) ∈ files → factorSet.factorSetId = id
  names : ∀ id other name, Names files id name → Names files other name → id = other

/-- A cache has sets of the directory, under their ids and names. -/
structure Follows (files cache : Sets π) : Prop where
  distinct : (cache.map Prod.fst).Nodup
  names : ∀ id factorSet, (id, factorSet) ∈ cache →
    factorSet.factorSetId = id ∧ Names files id factorSet.name

section Names

variable {readBack : AlphaFactorSet π → Option (AlphaFactorSet π)} {files cache : Sets π}

theorem lookup_of_mem_keys (unique : UniqueNames files) {id : String}
    (member : id ∈ files.map Prod.fst) :
    ∃ factorSet, files.lookup id = some factorSet ∧ (id, factorSet) ∈ files := by
  obtain ⟨entry, listed, rfl⟩ := List.mem_map.mp member
  exact ⟨entry.2, (lookup_eq_some_iff unique.distinct).mpr listed, listed⟩

/-- A file that is read gives its set, by id and name. -/
theorem names_of_readSet (keeps : KeepsNames readBack) (unique : UniqueNames files) {id : String}
    {read : AlphaFactorSet π} (found : readSet readBack files id = some read) :
    read.factorSetId = id ∧ Names files id read.name := by
  obtain ⟨written, stored, same⟩ := Option.bind_eq_some_iff.mp found
  obtain ⟨kept, reads, ids, names⟩ := keeps written
  rw [reads] at same
  obtain rfl := Option.some.inj same
  have member := (lookup_eq_some_iff unique.distinct).mp stored
  have own := unique.own id written member
  exact ⟨ids.trans own, written, member, own, names.symm⟩

theorem scanSets_eq_fetchAll (keeps : KeepsNames readBack) (unique : UniqueNames files) (cache : Sets π)
    {ids : List String} (known : ∀ id ∈ ids, id ∈ files.map Prod.fst) :
    scanSets readBack files cache ids = (fetchAll (readSet readBack files) cache ids, .ok ()) := by
  induction ids generalizing cache with
  | nil => rfl
  | cons id ids ih =>
      have rest : ∀ name ∈ ids, name ∈ files.map Prod.fst := fun name member =>
        known name (List.mem_cons_of_mem _ member)
      have unfolded : fetchAll (readSet readBack files) cache (id :: ids) =
          fetchAll (readSet readBack files) (fetch (readSet readBack files) cache id) ids := rfl
      rw [scanSets, unfolded]
      by_cases held : id ∈ cache.map Prod.fst
      · rw [if_pos held, fetch, if_pos held]
        exact ih cache rest
      · obtain ⟨written, stored, -⟩ := lookup_of_mem_keys unique (known id List.mem_cons_self)
        obtain ⟨kept, reads, -⟩ := keeps written
        have read : readSet readBack files id = some kept := by
          rw [readSet, stored]
          exact reads
        rw [if_neg held, fetch, if_neg held, read]
        exact ih _ rest

theorem Follows.fetch (follows : Follows files cache) (keeps : KeepsNames readBack)
    (unique : UniqueNames files) (id : String) :
    Follows files (fetch (readSet readBack files) cache id) := by
  refine ⟨nodup_fetch follows.distinct id, fun name factorSet member => ?_⟩
  rcases mem_fetch_iff.mp member with old | ⟨rfl, -, read⟩
  · exact follows.names name factorSet old
  · exact names_of_readSet keeps unique read

theorem Follows.fetchAll (follows : Follows files cache) (keeps : KeepsNames readBack)
    (unique : UniqueNames files) (ids : List String) :
    Follows files (fetchAll (readSet readBack files) cache ids) := by
  induction ids generalizing cache with
  | nil => exact follows
  | cons id ids ih => exact ih (follows.fetch keeps unique id)

theorem getSet_fst (id : String) :
    (getSet readBack files cache id).1 = fetch (readSet readBack files) cache id := by
  unfold getSet SharedStore.fetch readSet
  cases known : cache.lookup id with
  | some factorSet => rw [if_pos (mem_keys_of_lookup known)]
  | none =>
      rw [if_neg (lookup_eq_none_iff_notMem.mp known)]
      cases files.lookup id with
      | none => rfl
      | some written =>
          dsimp only
          rw [Option.bind_some]
          cases readBack written with
          | none => rfl
          | some factorSet => rfl

/-- **A listing has every set of the directory once.** -/
theorem listSets_spec (keeps : KeepsNames readBack) (unique : UniqueNames files)
    (follows : Follows files cache) (glob : Glob) :
    ∃ listed, listSets readBack files cache glob =
        (fetchAll (readSet readBack files) cache (glob.val (files.map Prod.fst)), .ok listed) ∧
      (listed.map AlphaFactorSet.factorSetId).Perm (files.map Prod.fst) ∧
      ∀ factorSet ∈ listed, Names files factorSet.factorSetId factorSet.name := by
  have known : ∀ id ∈ glob.val (files.map Prod.fst), id ∈ files.map Prod.fst := fun id member =>
    (glob.property _).mem_iff.mp member
  unfold listSets
  rw [scanSets_eq_fetchAll keeps unique cache known]
  have after := follows.fetchAll keeps unique (glob.val (files.map Prod.fst))
  have sorted := List.mergeSort_perm
    ((SharedStore.fetchAll (readSet readBack files) cache (glob.val (files.map Prod.fst))).map
      Prod.snd) fun first second => decide (first.createdAt ≤ second.createdAt)
  refine ⟨_, rfl, ?_, fun factorSet member => ?_⟩
  · have keys : ((SharedStore.fetchAll (readSet readBack files) cache
        (glob.val (files.map Prod.fst))).map Prod.snd).map AlphaFactorSet.factorSetId =
        (SharedStore.fetchAll (readSet readBack files) cache
          (glob.val (files.map Prod.fst))).map Prod.fst := by
      rw [List.map_map]
      exact List.map_congr_left fun entry member => (after.names entry.1 entry.2 member).1
    refine (sorted.map _).trans ?_
    rw [keys]
    refine (List.perm_ext_iff_of_nodup after.distinct unique.distinct).mpr fun id => ?_
    constructor
    · intro member
      obtain ⟨entry, listed, rfl⟩ := List.mem_map.mp member
      obtain ⟨written, stored, -⟩ := (after.names entry.1 entry.2 listed).2
      exact List.mem_map.mpr ⟨_, stored, rfl⟩
    · intro member
      by_cases held : id ∈ cache.map Prod.fst
      · obtain ⟨entry, listed, rfl⟩ := List.mem_map.mp held
        exact List.mem_map.mpr ⟨entry, mem_fetchAll_iff.mpr (.inl listed), rfl⟩
      · obtain ⟨written, stored, -⟩ := lookup_of_mem_keys unique member
        obtain ⟨kept, reads, -⟩ := keeps written
        have read : readSet readBack files id = some kept := by
          rw [readSet, stored]
          exact reads
        exact List.mem_map.mpr ⟨(id, kept), mem_fetchAll_iff.mpr
          (.inr ⟨(glob.property _).mem_iff.mpr member, held, read⟩), rfl⟩
  · obtain ⟨entry, listed, rfl⟩ := List.mem_map.mp (sorted.mem_iff.mp member)
    obtain ⟨own, names⟩ := after.names entry.1 entry.2 listed
    rw [own]
    exact names

/-! ## One call -/

/-- The directory and the caches agree, and a name that was there stays under its id. -/
structure Agree (files : Sets π) (caches : ℕ → Sets π) : Prop where
  unique : UniqueNames files
  follows : ∀ client, Follows files (caches client)

/-- Every id of a directory keeps its name. -/
def Extends (files later : Sets π) : Prop := ∀ id name, Names files id name → Names later id name

theorem Follows.extend {later : Sets π} (follows : Follows files cache)
    (grows : Extends files later) : Follows later cache := by
  refine ⟨follows.distinct, fun id factorSet member => ?_⟩
  obtain ⟨own, names⟩ := follows.names id factorSet member
  exact ⟨own, grows id factorSet.name names⟩

/-- A set that is written: no other id has its name, and its id had no other. -/
theorem names_assign (factorSet : AlphaFactorSet π) {id name : String} :
    Names (assign files (factorSet.factorSetId, factorSet)) id name ↔
      if factorSet.factorSetId = id then factorSet.name = name else Names files id name := by
  unfold Names
  constructor
  · rintro ⟨other, member, own, named⟩
    have either := mem_assign_iff.mp member
    by_cases here : factorSet.factorSetId = id
    · rw [if_pos here] at either ⊢
      obtain rfl : other = factorSet := either
      exact named
    · rw [if_neg here] at either ⊢
      exact ⟨other, either, own, named⟩
  · intro either
    by_cases here : factorSet.factorSetId = id
    · rw [if_pos here] at either
      exact ⟨factorSet, mem_assign_iff.mpr (by rw [if_pos here]), here, either⟩
    · rw [if_neg here] at either
      obtain ⟨other, member, own, named⟩ := either
      exact ⟨other, mem_assign_iff.mpr (by rwa [if_neg here]), own, named⟩

/-- **A set whose name is its own can be written.** -/
theorem registerSet_keeps (unique : UniqueNames files) (follows : Follows files cache)
    (factorSet : AlphaFactorSet π)
    (fresh : ∀ id, Names files id factorSet.name → id = factorSet.factorSetId)
    (same : ∀ name, Names files factorSet.factorSetId name → name = factorSet.name) :
    UniqueNames (registerSet files cache factorSet).1 ∧
      Follows (registerSet files cache factorSet).1 (registerSet files cache factorSet).2 ∧
      Extends files (registerSet files cache factorSet).1 := by
  have grows : Extends files (registerSet files cache factorSet).1 := by
    intro id name names
    refine (names_assign factorSet).mpr ?_
    by_cases here : factorSet.factorSetId = id
    · rw [if_pos here]
      exact (same name (here ▸ names)).symm
    · rwa [if_neg here]
  refine ⟨⟨nodup_assign unique.distinct _, ?_, ?_⟩, ⟨nodup_assign follows.distinct _, ?_⟩, grows⟩
  · intro id other member
    have either := mem_assign_iff.mp member
    by_cases here : factorSet.factorSetId = id
    · rw [if_pos here] at either
      rw [either]
      exact here
    · rw [if_neg here] at either
      exact unique.own id other either
  · intro id other name first second
    have first := (names_assign factorSet).mp first
    have second := (names_assign factorSet).mp second
    by_cases here : factorSet.factorSetId = id
    · rw [if_pos here] at first
      by_cases there : factorSet.factorSetId = other
      · exact here.symm.trans there
      · rw [if_neg there, ← first] at second
        exact absurd (fresh other second).symm there
    · rw [if_neg here] at first
      by_cases there : factorSet.factorSetId = other
      · rw [if_pos there] at second
        rw [← second] at first
        exact absurd (fresh id first).symm here
      · rw [if_neg there] at second
        exact unique.names id other name first second
  · intro id other member
    have either := mem_assign_iff.mp member
    by_cases here : factorSet.factorSetId = id
    · rw [if_pos here] at either
      obtain rfl : other = factorSet := either
      exact ⟨here, (names_assign other).mpr (if_pos here ▸ rfl)⟩
    · rw [if_neg here] at either
      obtain ⟨own, names⟩ := follows.names id other either
      exact ⟨own, grows id other.name names⟩

/-- What `get_or_create_set` does. -/
structure GotOrCreated (files : Sets π) (name : String) (factorSet : AlphaFactorSet π)
    (left : Sets π × Sets π) : Prop where
  named : factorSet.name = name
  stored : Names left.1 factorSet.factorSetId name
  unique : UniqueNames left.1
  follows : Follows left.1 left.2
  grows : Extends files left.1
  kept : (∃ id, Names files id name) → left.1 = files

/-- **A set is taken if its name is there, and created if not.** -/
theorem getOrCreateSet_spec (keeps : KeepsNames readBack) (unique : UniqueNames files)
    (follows : Follows files cache) (glob : Glob) (name : String) (created : AlphaFactorSet π)
    (given : created.name = name) (fresh : files.lookup created.factorSetId = none) :
    ∃ factorSet, (getOrCreateSet readBack files cache glob name created).2 = .ok factorSet ∧
      GotOrCreated files name factorSet
        (getOrCreateSet readBack files cache glob name created).1 := by
  obtain ⟨listed, done, ids, names⟩ := listSets_spec keeps unique follows glob
  have after := follows.fetchAll keeps unique (glob.val (files.map Prod.fst))
  unfold getOrCreateSet
  rw [done]
  dsimp only
  cases wanted : listed.filter fun factorSet => factorSet.name = name with
  | cons existing rest =>
      have member : existing ∈ listed.filter fun factorSet => factorSet.name = name := by
        rw [wanted]
        exact List.mem_cons_self
      obtain ⟨here, named⟩ := List.mem_filter.mp member
      have named : existing.name = name := of_decide_eq_true named
      exact ⟨existing, rfl, named, named ▸ names existing here, unique, after,
        fun _ _ names => names, fun _ => rfl⟩
  | nil =>
      -- No id of the directory has the name: each is in the listing, with its name.
      have absent : ∀ id, ¬ Names files id name := by
        rintro id ⟨factorSet, stored, own, named⟩
        have key : id ∈ listed.map AlphaFactorSet.factorSetId :=
          ids.mem_iff.mpr (List.mem_map.mpr ⟨_, stored, rfl⟩)
        obtain ⟨other, member, rfl⟩ := List.mem_map.mp key
        obtain ⟨written, file, -, same⟩ := names other member
        have one : written = factorSet := by
          have first := (lookup_eq_some_iff unique.distinct).mpr file
          have second := (lookup_eq_some_iff unique.distinct).mpr stored
          rw [first] at second
          exact Option.some.inj second
        have kept : other ∈ listed.filter fun factorSet => factorSet.name = name :=
          List.mem_filter.mpr ⟨member, decide_eq_true (by rw [← same, one, named])⟩
        rw [wanted] at kept
        exact absurd kept List.not_mem_nil
      have unknown : ∀ other, ¬ Names files created.factorSetId other := by
        rintro other ⟨factorSet, stored, -⟩
        rw [(lookup_eq_some_iff unique.distinct).mpr stored] at fresh
        cases fresh
      obtain ⟨distinct, agrees, grows⟩ := registerSet_keeps unique after created
        (fun id named => absurd (given ▸ named) (absent id))
        (fun other named => absurd named (unknown other))
      refine ⟨created, rfl, given, ?_, distinct, agrees, grows, fun known => ?_⟩
      · exact (names_assign created).mpr (by rw [if_pos rfl, given])
      · obtain ⟨id, named⟩ := known
        exact absurd named (absent id)

/-! ## Runs -/

variable {registries : SetRegistries π}

theorem Agree.update (agree : Agree registries.files registries.caches) (client : ℕ)
    (unique : UniqueNames files) (follows : Follows files cache)
    (grows : Extends registries.files files) :
    Agree files (Function.update registries.caches client cache) := by
  refine ⟨unique, fun other => ?_⟩
  by_cases own : other = client
  · rw [own, Function.update_self]
    exact follows
  · rw [Function.update_of_ne own]
    exact (agree.follows other).extend grows

theorem Extends.refl (files : Sets π) : Extends files files := fun _ _ names => names

/-- **Every respectful call keeps the names unique, and every id its name.** -/
theorem Agree.call (keeps : KeepsNames readBack)
    (agree : Agree registries.files registries.caches) (call : SetCall π)
    (respectful : call.Respectful registries) :
    Agree (registries.call readBack call).files (registries.call readBack call).caches ∧
      Extends registries.files (registries.call readBack call).files := by
  cases call with
  | openRegistry client =>
      exact ⟨agree.update client agree.unique
        ⟨List.nodup_nil, fun _ _ member => absurd member List.not_mem_nil⟩ (.refl _), .refl _⟩
  | get client id =>
      refine ⟨agree.update client agree.unique ?_ (.refl _), .refl _⟩
      rw [getSet_fst]
      exact (agree.follows client).fetch keeps agree.unique id
  | list client glob =>
      obtain ⟨listed, done, -⟩ := listSets_spec keeps agree.unique (agree.follows client) glob
      refine ⟨agree.update client agree.unique ?_ (.refl _), .refl _⟩
      rw [done]
      exact (agree.follows client).fetchAll keeps agree.unique _
  | edit client factorSet =>
      obtain ⟨old, stored, named⟩ := respectful
      have member := (lookup_eq_some_iff agree.unique.distinct).mp stored
      have here : Names registries.files factorSet.factorSetId factorSet.name :=
        ⟨old, member, agree.unique.own _ old member, named⟩
      obtain ⟨unique, follows, grows⟩ := registerSet_keeps agree.unique (agree.follows client)
        factorSet (fun id names => agree.unique.names id _ _ names here) (by
          rintro name ⟨other, found, -, rfl⟩
          have both := (lookup_eq_some_iff agree.unique.distinct).mpr found
          rw [stored] at both
          rw [← Option.some.inj both, named])
      exact ⟨agree.update client unique follows grows, grows⟩
  | getOrCreate client glob name uuid now rest =>
      obtain ⟨factorSet, -, got⟩ := getOrCreateSet_spec keeps agree.unique (agree.follows client)
        glob name ⟨uuid.val, name, now, rest⟩ rfl respectful
      exact ⟨agree.update client got.unique got.follows got.grows, got.grows⟩

theorem Agree.runs (keeps : KeepsNames readBack)
    (agree : Agree registries.files registries.caches) {reached : SetRegistries π}
    (runs : SetRuns readBack registries reached) :
    Agree reached.files reached.caches ∧ Extends registries.files reached.files := by
  induction runs with
  | nil => exact ⟨agree, .refl _⟩
  | call runs call respectful ih =>
      obtain ⟨next, grows⟩ := ih.1.call keeps call respectful
      exact ⟨next, fun id name names => grows id name (ih.2 id name names)⟩

end Names

theorem Agree.nil : Agree ([] : Sets π) fun _ => [] :=
  ⟨⟨List.nodup_nil, fun _ _ member => absurd member List.not_mem_nil,
    fun _ _ _ first => absurd first.choose_spec.1 List.not_mem_nil⟩,
    fun _ => ⟨List.nodup_nil, fun _ _ member => absurd member List.not_mem_nil⟩⟩

/-- **A name is created once.** In every run of respectful calls of any registries on one
directory, a set that was got or created for a name is the one that every registry gets for this
name from then on, by its id, whatever the order of the files in a listing and however old the
caches are; nothing is created again, and two sets never have one name. -/
theorem get_or_create_is_once {readBack : AlphaFactorSet π → Option (AlphaFactorSet π)}
    (keeps : KeepsNames readBack) {first last : SetRegistries π}
    (before : SetRuns readBack {} first) (client other : ℕ) (glob glob' : Glob) (name : String)
    (uuid uuid' : FreshId) (now now' : ℤ) (rest rest' : π)
    (respectful : first.files.lookup uuid.val = none)
    (after : SetRuns readBack
      (first.call readBack (.getOrCreate client glob name uuid now rest)) last)
    (respectful' : last.files.lookup uuid'.val = none) :
    ∃ created found,
      (getOrCreateSet readBack first.files (first.caches client) glob name
        ⟨uuid.val, name, now, rest⟩).2 = .ok created ∧
      (getOrCreateSet readBack last.files (last.caches other) glob' name
        ⟨uuid'.val, name, now', rest'⟩).2 = .ok found ∧
      found.factorSetId = created.factorSetId ∧ found.name = name ∧
      (last.call readBack (.getOrCreate other glob' name uuid' now' rest')).files = last.files ∧
      UniqueNames last.files := by
  obtain ⟨agree, -⟩ := Agree.nil.runs keeps before
  obtain ⟨created, made, got⟩ := getOrCreateSet_spec keeps agree.unique (agree.follows client)
    glob name ⟨uuid.val, name, now, rest⟩ rfl respectful
  obtain ⟨later, grows⟩ := (agree.call keeps (.getOrCreate client glob name uuid now rest)
    respectful).1.runs keeps after
  have there : Names last.files created.factorSetId name := grows _ _ got.stored
  obtain ⟨found, taken, again⟩ := getOrCreateSet_spec keeps later.unique (later.follows other)
    glob' name ⟨uuid'.val, name, now', rest'⟩ rfl respectful'
  have kept := again.kept ⟨_, there⟩
  refine ⟨created, found, made, taken, ?_, again.named, kept, later.unique⟩
  have stored := again.stored
  rw [kept] at stored
  exact later.unique.names _ _ name stored there

theorem get_or_create_is_once_of_two :
    let glob : Glob := ⟨id, fun _ => .refl _⟩
    let first : FreshId := ⟨"first", by decide⟩
    let second : FreshId := ⟨"second", by decide⟩
    let left := ({} : SetRegistries Unit).call some (.getOrCreate 0 glob "momentum" first 0 ())
    ∃ found, (getOrCreateSet some left.files (left.caches 1) glob "momentum"
        ⟨second.val, "momentum", 1, ()⟩).2 = .ok found ∧ found.factorSetId = "first" := by
  intro glob first second left
  have keeps : KeepsNames (some : AlphaFactorSet Unit → _) := fun factorSet =>
    ⟨factorSet, rfl, rfl, rfl⟩
  have files : left.files = [("first", ⟨"first", "momentum", 0, ()⟩)] := by
    simp [left, first, glob, SetRegistries.call, getOrCreateSet, listSets, scanSets, registerSet,
      assign]
  have fresh : left.files.lookup second.val = none := by
    rw [files]
    rfl
  obtain ⟨created, found, made, taken, same, -⟩ := get_or_create_is_once keeps .nil 0 1 glob glob
    "momentum" first second 0 1 () () rfl .nil fresh
  refine ⟨found, taken, same.trans ?_⟩
  simp only [getOrCreateSet, listSets, scanSets, List.map_nil, glob, id_eq, List.mergeSort_nil,
    List.filter_nil, Except.ok.injEq] at made
  rw [← made]

end TradeOS.Research
