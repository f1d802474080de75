import TradeOS.Data.Wildcards
import TradeOS.Research.DatasetCoherence
import Mathlib.Data.List.Dedup
import Mathlib.Data.List.Perm.Basic
import Mathlib.Data.List.Perm.Lattice

/-!
# The listed versions of a dataset

The name of a version file joins the id of the dataset and the version by an underscore, and a
listing reads every file whose name fits the id, an underscore, a star and `.json`. Ids and
versions may hold underscores and wildcards themselves. Two versions have one file exactly if one
id and an underscore begin the other id and the versions make up for it (`joined_eq_iff`), and
an id without wildcards lists what begins with it and an underscore (`listed_plain_iff`).

An id or a version with a slash makes a path of the name. Opening it may raise, or may lead to a
file anywhere, and a listing is for such an id a search below the directory, or raises where the
id begins with the slash. What a path leads to is up to the file system (`FileSystem`).

After every sequence of registrations a listing is right, and the files are apart, exactly if the
versions are separated (`listVersions_exact_iff`), which for names without a slash is a condition
on the names alone (`separated_flat_iff`).
-/

set_option autoImplicit false

namespace TradeOS.Research

open LastWrite Dictionary Wildcards

variable {μ φ : Type}

/-! ## Files -/

/-- The files around a version directory: which file is written when a path is opened in the
directory, if it can be opened, and what the name of a file is that lies in the directory itself. A
name without a slash leads to the file of that name. -/
structure FileSystem (φ : Type) where
  locate : String → Option φ
  nameOf : φ → Option String
  inside : ∀ {path file}, '/' ∉ path.toList → locate path = some file → nameOf file = some path
  unique : ∀ {file other name}, nameOf file = some name → nameOf other = some name → file = other

/-- What the files hold. -/
abbrev Disk (φ μ : Type) := φ → Option (DatasetVersion μ)

namespace FileSystem

variable [DecidableEq φ] (fs : FileSystem φ)

/-- The file of a version. -/
def fileOf (dataset : DatasetVersion μ) : Option φ :=
  fs.locate (versionPath dataset.datasetId dataset.version)

/-- The write of `register`, which raises if the path cannot be opened. -/
def register (disk : Disk φ μ) (dataset : DatasetVersion μ) : Disk φ μ :=
  match fs.fileOf dataset with
  | none => disk
  | some file => Function.update disk file (some dataset)

/-- The files after calls of `register`, in an empty directory at the start. -/
def registerAll (datasets : List (DatasetVersion μ)) : Disk φ μ :=
  datasets.foldl fs.register fun _ => none

/-- The records whose registration returned. -/
def registered (datasets : List (DatasetVersion μ)) : List (DatasetVersion μ) :=
  datasets.filter fun dataset => (fs.fileOf dataset).isSome

/-- **A file holds the record that was last registered under it.** -/
theorem registerAll_eq (datasets : List (DatasetVersion μ)) (file : φ) :
    fs.registerAll datasets file =
      lastWhere (fun dataset => fs.fileOf dataset = some file) (fs.registered datasets) := by
  induction datasets using List.reverseRecOn with
  | nil => rfl
  | append_singleton datasets dataset ih =>
      rw [registerAll, List.foldl_append, List.foldl_cons, List.foldl_nil, ← registerAll, register,
        registered, List.filter_append, ← registered]
      cases opened : fs.fileOf dataset with
      | none =>
          rw [List.filter_cons_of_neg (by simp [opened]), List.filter_nil, List.append_nil]
          exact ih
      | some place =>
          rw [List.filter_cons_of_pos (by simp [opened]), List.filter_nil, lastWhere_concat, opened]
          dsimp only
          rw [Function.update_apply, ih]
          exact if_congr (by rw [Option.some_inj, eq_comm]) rfl rfl

end FileSystem

/-! ## The listing -/

/-- What a listing can raise: a pattern is relative, and two stars next to each other are no part
of a name in it. -/
inductive ListingError where
  | nonRelative
  | doubleStar
  deriving DecidableEq

/-- What a search sees of the files: those that exist, each once, and what it finds for a pattern
with slashes, which are some of them. -/
structure Catalogue (disk : Disk φ μ) where
  files : List φ
  nodup : files.Nodup
  mem_iff : ∀ file, file ∈ files ↔ (disk file).isSome
  below : List Char → Except ListingError (List φ)
  below_nodup : ∀ pattern found, below pattern = .ok found → found.Nodup
  below_present : ∀ pattern found, below pattern = .ok found →
    ∀ file ∈ found, (disk file).isSome

/-- `glob` in the version directory. -/
def glob (fs : FileSystem φ) {disk : Disk φ μ} (catalogue : Catalogue disk) (pattern : List Char) :
    Except ListingError (List φ) :=
  if pattern.head? = some '/' then .error .nonRelative
  else if '/' ∈ pattern then catalogue.below pattern
  else if ['*', '*'] <:+: pattern then .error .doubleStar
  else .ok (catalogue.files.filter fun file =>
    (fs.nameOf file).any fun name => matchesText (parse pattern) name.toList)

/-- The pattern of the version files of a dataset. -/
def versionPattern (datasetId : String) : List Char := (datasetId ++ "_*.json").toList

/-- `list_versions`, the oldest first. -/
def listVersions (readBack : DatasetVersion μ → DatasetVersion μ) (fs : FileSystem φ)
    {disk : Disk φ μ} (catalogue : Catalogue disk) (datasetId : String) :
    Except ListingError (List (DatasetVersion μ)) :=
  (glob fs catalogue (versionPattern datasetId)).map fun paths =>
    ((paths.filterMap disk).map readBack).mergeSort
      fun first second => first.createdAt ≤ second.createdAt

theorem glob_nodup {fs : FileSystem φ} {disk : Disk φ μ} {catalogue : Catalogue disk}
    {pattern : List Char} {found : List φ} (result : glob fs catalogue pattern = .ok found) :
    found.Nodup := by
  unfold glob at result
  split_ifs at result with absolute below double
  · exact catalogue.below_nodup pattern found result
  · cases result
    exact catalogue.nodup.filter _

theorem glob_present {fs : FileSystem φ} {disk : Disk φ μ} {catalogue : Catalogue disk}
    {pattern : List Char} {found : List φ} (result : glob fs catalogue pattern = .ok found) :
    ∀ file ∈ found, (disk file).isSome := by
  intro file member
  unfold glob at result
  split_ifs at result with absolute below double
  · exact catalogue.below_present pattern found result file member
  · cases result
    exact (catalogue.mem_iff file).mp (List.mem_of_mem_filter member)

/-! ## What should be listed -/

/-- The registered datasets and versions. -/
def registeredPairs (registered : List (DatasetVersion μ)) : Set (String × String) :=
  { pair | ∃ dataset ∈ registered, dataset.pair = pair }

/-- The records of a dataset by their versions, as they were last registered. -/
def versionEntries (registered : List (DatasetVersion μ)) (datasetId : String) :
    List (String × DatasetVersion μ) :=
  (registered.filter fun dataset => dataset.datasetId = datasetId).map
    fun dataset => (dataset.version, dataset)

/-- The versions registered for a dataset, each once and with its last record. -/
def versionsOf (registered : List (DatasetVersion μ)) (datasetId : String) :
    List (DatasetVersion μ) :=
  (update [] (versionEntries registered datasetId)).map Prod.snd

theorem assigned_versionEntries (registered : List (DatasetVersion μ))
    (datasetId version : String) :
    assigned (versionEntries registered datasetId) version =
      contentOf registered (datasetId, version) := by
  induction registered using List.reverseRecOn with
  | nil => rfl
  | append_singleton registered last ih =>
      rw [contentOf_concat, versionEntries, List.filter_append, List.map_append]
      by_cases own : last.datasetId = datasetId
      · rw [List.filter_singleton, decide_eq_true own]
        refine (assigned_concat _ _ _).trans ?_
        refine if_congr ?_ rfl ih
        rw [DatasetVersion.pair, own, Prod.mk.injEq, and_iff_right rfl]
      · rw [List.filter_singleton, decide_eq_false own,
          if_neg fun same => own (datasetId_of_pair same)]
        refine Eq.trans ?_ ih
        rw [cond_false, List.map_nil, List.append_nil, versionEntries]

theorem mem_versionEntries_iff {registered : List (DatasetVersion μ)} {datasetId version : String}
    {dataset : DatasetVersion μ} :
    (version, dataset) ∈ update [] (versionEntries registered datasetId) ↔
      contentOf registered (datasetId, version) = some dataset := by
  rw [mem_update_iff, assigned_versionEntries]

theorem mem_versionsOf_iff {registered : List (DatasetVersion μ)} {datasetId : String}
    {dataset : DatasetVersion μ} :
    dataset ∈ versionsOf registered datasetId ↔
      dataset.datasetId = datasetId ∧ contentOf registered dataset.pair = some dataset := by
  rw [versionsOf, List.mem_map]
  constructor
  · rintro ⟨⟨version, found⟩, member, rfl⟩
    have content := mem_versionEntries_iff.mp member
    have own := (of_lastWhere content).2
    exact ⟨datasetId_of_pair own, own.symm ▸ content⟩
  · rintro ⟨rfl, content⟩
    exact ⟨(dataset.version, dataset), mem_versionEntries_iff.mpr content, rfl⟩

/-! ## Joined names -/

/-- Two joined texts are the same if their parts are, or if the separator of each is in a part of
the other. -/
theorem joined_eq_iff {a u b v : List Char} :
    a ++ '_' :: u = b ++ '_' :: v ↔
      (a = b ∧ u = v) ∨ (∃ middle, b = a ++ '_' :: middle ∧ u = middle ++ '_' :: v) ∨
        ∃ middle, a = b ++ '_' :: middle ∧ v = middle ++ '_' :: u := by
  rw [List.append_eq_append_iff]
  constructor
  · rintro (⟨s, longer, rest⟩ | ⟨s, longer, rest⟩)
    · cases s with
      | nil =>
          rw [List.append_nil] at longer
          exact .inl ⟨longer.symm, (List.cons.inj rest).2⟩
      | cons c middle =>
          obtain ⟨rfl, tail⟩ := List.cons.inj rest
          exact .inr (.inl ⟨middle, longer, tail⟩)
    · cases s with
      | nil =>
          rw [List.append_nil] at longer
          exact .inl ⟨longer, (List.cons.inj rest).2.symm⟩
      | cons c middle =>
          obtain ⟨rfl, tail⟩ := List.cons.inj rest
          exact .inr (.inr ⟨middle, longer, tail⟩)
  · rintro (⟨rfl, rfl⟩ | ⟨middle, rfl, rfl⟩ | ⟨middle, rfl, rfl⟩)
    · exact .inl ⟨[], (List.append_nil _).symm, rfl⟩
    · exact .inl ⟨'_' :: middle, rfl, rfl⟩
    · exact .inr ⟨'_' :: middle, rfl, rfl⟩

/-- The second id continues the first one, behind an underscore, and the first version begins
with the rest of it. -/
def Continues (first second : String × String) : Prop :=
  ∃ middle, second.1 = first.1 ++ "_" ++ middle ∧ first.2 = middle ++ "_" ++ second.2

theorem continues_iff {first second : String × String} :
    Continues first second ↔ ∃ middle, second.1.toList = first.1.toList ++ '_' :: middle ∧
      first.2.toList = middle ++ '_' :: second.2.toList := by
  constructor
  · rintro ⟨middle, longer, rest⟩
    exact ⟨middle.toList, by simp [longer], by simp [rest]⟩
  · rintro ⟨middle, longer, rest⟩
    refine ⟨String.ofList middle, String.toList_inj.mp ?_, String.toList_inj.mp ?_⟩
    · simp [longer]
    · simp [rest]

theorem toList_versionPath (datasetId version : String) :
    (versionPath datasetId version).toList =
      datasetId.toList ++ '_' :: version.toList ++ ".json".toList := by
  simp [versionPath]

/-- **Two versions have one file exactly if one id continues the other and its version makes up
for it.** -/
theorem versionPath_eq_iff (first second : String × String) :
    versionPath first.1 first.2 = versionPath second.1 second.2 ↔
      first = second ∨ Continues first second ∨ Continues second first := by
  rw [← String.toList_inj, toList_versionPath, toList_versionPath, List.append_cancel_right_eq,
    joined_eq_iff, continues_iff, continues_iff, String.toList_inj, String.toList_inj, Prod.ext_iff]

theorem not_continues_self (pair : String × String) : ¬Continues pair pair := by
  rw [continues_iff]
  rintro ⟨middle, longer, -⟩
  have lengths := congrArg List.length longer
  simp at lengths

/-! ## Listed names -/

/-- A version file is listed for a dataset. -/
def Listed (datasetId : String) (pair : String × String) : Prop :=
  matchesText (parse (versionPattern datasetId)) (versionPath pair.1 pair.2).toList = true

/-- The name of a version of another dataset begins with an id and an underscore: its own id
does, or the id is its own one with a part of the version. -/
def BeginsWith (datasetId : String) (pair : String × String) : Prop :=
  (∃ rest, pair.1 = datasetId ++ "_" ++ rest) ∨
    ∃ middle rest, datasetId = pair.1 ++ "_" ++ middle ∧ pair.2 = middle ++ "_" ++ rest

theorem beginsWith_iff {datasetId : String} {pair : String × String} :
    BeginsWith datasetId pair ↔
      (∃ rest, pair.1.toList = datasetId.toList ++ '_' :: rest) ∨
        ∃ middle rest, datasetId.toList = pair.1.toList ++ '_' :: middle ∧
          pair.2.toList = middle ++ '_' :: rest := by
  constructor
  · rintro (⟨rest, longer⟩ | ⟨middle, rest, longer, version⟩)
    · exact .inl ⟨rest.toList, by simp [longer]⟩
    · exact .inr ⟨middle.toList, rest.toList, by simp [longer], by simp [version]⟩
  · rintro (⟨rest, longer⟩ | ⟨middle, rest, longer, version⟩)
    · exact .inl ⟨String.ofList rest, String.toList_inj.mp (by simp [longer])⟩
    · exact .inr ⟨String.ofList middle, String.ofList rest, String.toList_inj.mp (by simp [longer]),
        String.toList_inj.mp (by simp [version])⟩

/-- **An id without wildcards lists its own versions, and those of the datasets whose names begin
with it and an underscore.** -/
theorem listed_plain_iff {datasetId : String} (plain : Plain datasetId.toList)
    (pair : String × String) :
    Listed datasetId pair ↔ pair.1 = datasetId ∨ BeginsWith datasetId pair := by
  have pattern : versionPattern datasetId =
      (datasetId.toList ++ ['_']) ++ '*' :: ".json".toList := by simp [versionPattern]
  have plain' : Plain (datasetId.toList ++ ['_']) := by
    intro c member
    rcases List.mem_append.mp member with own | last
    · exact plain c own
    · rw [List.mem_singleton.mp last]
      decide
  rw [Listed, pattern, matches_around_star plain' (by decide), toList_versionPath, beginsWith_iff,
    ← String.toList_inj]
  have joined : ∀ middle : List Char,
      pair.1.toList ++ '_' :: pair.2.toList ++ ".json".toList =
          datasetId.toList ++ ['_'] ++ middle ++ ".json".toList ↔
        pair.1.toList ++ '_' :: pair.2.toList = datasetId.toList ++ '_' :: middle := by
    intro middle
    rw [List.append_cancel_right_eq, List.append_assoc, List.singleton_append]
  simp only [joined, joined_eq_iff]
  constructor
  · rintro ⟨rest, ⟨same, -⟩ | ⟨middle, longer, version⟩ | ⟨middle, longer, -⟩⟩
    · exact .inl same
    · exact .inr (.inr ⟨middle, rest, longer, version⟩)
    · exact .inr (.inl ⟨middle, longer⟩)
  · rintro (same | ⟨rest, longer⟩ | ⟨middle, rest, longer, version⟩)
    · exact ⟨_, .inl ⟨same, rfl⟩⟩
    · exact ⟨_, .inr (.inr ⟨rest, longer, rfl⟩)⟩
    · exact ⟨rest, .inr (.inl ⟨middle, longer, version⟩)⟩

/-- Two stars of a pattern are two stars of the id. -/
theorem doubleStar_iff (datasetId : String) :
    ['*', '*'] <:+: versionPattern datasetId ↔ ['*', '*'] <:+: datasetId.toList := by
  have pattern : versionPattern datasetId = datasetId.toList ++ "_*.json".toList := by
    simp [versionPattern]
  rw [pattern, List.infix_append_iff_ne_nil]
  constructor
  · rintro (own | last | ⟨front, back, -, some, both, -, begins⟩)
    · exact own
    · exact absurd last (by decide)
    · obtain ⟨c, rest, rfl⟩ := List.exists_cons_of_ne_nil some
      have star : c ∈ ['*', '*'] := by
        rw [both]
        exact List.mem_append_right _ List.mem_cons_self
      obtain ⟨tail, split⟩ := begins
      have underscore : c = '_' := by
        rw [List.cons_append] at split
        exact (List.cons.inj split).1
      rw [underscore] at star
      exact absurd star (by decide)
  · exact .inl

/-! ## Listings after registrations -/

/-- An id and a version without slashes. -/
def Flat (pair : String × String) : Prop := '/' ∉ pair.1.toList ∧ '/' ∉ pair.2.toList

instance (pair : String × String) : Decidable (Flat pair) := inferInstanceAs (Decidable (_ ∧ _))

theorem versionPath_flat {pair : String × String} (flat : Flat pair) :
    '/' ∉ (versionPath pair.1 pair.2).toList := by
  rw [toList_versionPath]
  intro member
  rcases List.mem_append.mp member with joined | suffix
  · rcases List.mem_append.mp joined with own | rest
    · exact flat.1 own
    · rcases List.mem_cons.mp rest with underscore | version
      · exact absurd underscore (by decide)
      · exact flat.2 version
  · exact absurd suffix (by decide)

section Registrations

variable (fs : FileSystem φ)

/-- The files of two versions are one: without slashes one id continues the other and its version
makes up for it, and paths lead to one file. -/
def Clash (first second : String × String) : Prop :=
  if Flat first ∧ Flat second then Continues first second ∨ Continues second first
  else fs.locate (versionPath first.1 first.2) = fs.locate (versionPath second.1 second.2)

variable {disk : Disk φ μ} (catalogue : Catalogue disk)

/-- The search of a listing finds a version: without slashes the name of its file fits the
pattern. -/
def Fits (datasetId : String) (pair : String × String) : Prop :=
  if '/' ∉ datasetId.toList ∧ Flat pair then Listed datasetId pair
  else ∃ found, glob fs catalogue (versionPattern datasetId) = .ok found ∧
    ∃ file ∈ found, fs.locate (versionPath pair.1 pair.2) = some file

/-- The search of a listing does not raise. -/
def Admits (datasetId : String) : Prop :=
  datasetId.toList.head? ≠ some '/' ∧
    if '/' ∈ datasetId.toList then
      ∃ found, catalogue.below (versionPattern datasetId) = .ok found
    else ¬['*', '*'] <:+: datasetId.toList

/-- No two registered versions have one file, what is found for an id are its own versions, and
the search for it does not raise. -/
structure Separated (registered : List (DatasetVersion μ)) (datasetId : String) : Prop where
  apart : ∀ first ∈ registeredPairs registered, ∀ second ∈ registeredPairs registered,
    first ≠ second → ¬Clash fs first second
  own : ∀ pair ∈ registeredPairs registered, Fits fs catalogue datasetId pair ↔ pair.1 = datasetId
  pattern : Admits catalogue datasetId

/-- A listing returns the versions registered for the dataset, each once and with its last
record. -/
def ListsOwn (readBack : DatasetVersion μ → DatasetVersion μ)
    (registered : List (DatasetVersion μ)) (datasetId : String) : Prop :=
  ∃ listed, listVersions readBack fs catalogue datasetId = .ok listed ∧
    listed.Perm ((versionsOf registered datasetId).map readBack)

/-- No two registered versions have one file. -/
def OwnFiles (registered : List (DatasetVersion μ)) : Prop :=
  Set.InjOn (fun pair : String × String => fs.locate (versionPath pair.1 pair.2))
    (registeredPairs registered)

variable {fs catalogue} {datasetId : String}

theorem mem_versionPattern_iff : '/' ∈ versionPattern datasetId ↔ '/' ∈ datasetId.toList := by
  simp [versionPattern]

theorem glob_eq_ok_iff :
    (∃ found, glob fs catalogue (versionPattern datasetId) = .ok found) ↔
      Admits catalogue datasetId := by
  have head : (versionPattern datasetId).head? = some '/' ↔ datasetId.toList.head? = some '/' := by
    rw [versionPattern, String.toList_append]
    cases datasetId.toList <;> simp
  unfold glob Admits
  simp only [head, mem_versionPattern_iff, doubleStar_iff]
  by_cases absolute : datasetId.toList.head? = some '/'
  · rw [if_pos absolute]
    exact iff_of_false nofun fun both => both.1 absolute
  rw [if_neg absolute, Ne, and_iff_right absolute]
  by_cases below : '/' ∈ datasetId.toList
  · rw [if_pos below, if_pos below]
  rw [if_neg below, if_neg below]
  by_cases double : ['*', '*'] <:+: datasetId.toList
  · rw [if_pos double]
    exact iff_of_false nofun fun single => single double
  · rw [if_neg double]
    exact iff_of_true ⟨_, rfl⟩ double

/-- For names without slashes the search compares with the names. -/
theorem fits_iff {found : List φ}
    (result : glob fs catalogue (versionPattern datasetId) = .ok found) {pair : String × String}
    {file : φ} (opened : fs.locate (versionPath pair.1 pair.2) = some file)
    (present : (disk file).isSome) :
    Fits fs catalogue datasetId pair ↔ file ∈ found := by
  unfold Fits
  split_ifs with flat
  · have name := fs.inside (versionPath_flat flat.2) opened
    unfold glob at result
    rw [if_neg (mt mem_versionPattern_iff.mp flat.1)] at result
    split_ifs at result with absolute double
    cases result
    rw [List.mem_filter, catalogue.mem_iff, and_iff_right present, name, Option.any_some, Listed]
  · constructor
    · rintro ⟨other, same, place, member, placed⟩
      rw [result] at same
      rw [opened] at placed
      cases same
      cases placed
      exact member
    · exact fun member => ⟨found, result, file, member, opened⟩

/-- Files of different versions are one if and only if the versions clash. -/
theorem clash_iff {first second : String × String} (differ : first ≠ second)
    {file : φ} (opened : fs.locate (versionPath first.1 first.2) = some file) :
    Clash fs first second ↔
      fs.locate (versionPath first.1 first.2) = fs.locate (versionPath second.1 second.2) := by
  unfold Clash
  split_ifs with flat
  · have paths : Continues first second ∨ Continues second first ↔
        versionPath first.1 first.2 = versionPath second.1 second.2 := by
      rw [versionPath_eq_iff, or_iff_right differ]
    rw [paths]
    constructor
    · exact fun same => congrArg fs.locate same
    · intro same
      have one := fs.inside (versionPath_flat flat.1) opened
      have other := fs.inside (versionPath_flat flat.2) (same.symm.trans opened)
      exact Option.some_inj.mp (one.symm.trans other)
  · exact Iff.rfl

/-- The listing, in the order of the directory. -/
theorem listVersions_eq_ok_iff {readBack : DatasetVersion μ → DatasetVersion μ}
    {listed : List (DatasetVersion μ)} :
    listVersions readBack fs catalogue datasetId = .ok listed ↔
      ∃ found, glob fs catalogue (versionPattern datasetId) = .ok found ∧
        listed = ((found.filterMap disk).map readBack).mergeSort
          fun first second => first.createdAt ≤ second.createdAt := by
  unfold listVersions
  cases glob fs catalogue (versionPattern datasetId) with
  | error error => simp [Except.map]
  | ok found => simp [Except.map, eq_comm]

/-- **Without slashes, versions are separated exactly if no registered dataset continues another
one with a version that makes up for it, only versions of the dataset fit its pattern, and its id
has no two stars next to each other.** -/
theorem separated_flat_iff {registered : List (DatasetVersion μ)}
    (flat : ∀ pair ∈ registeredPairs registered, Flat pair) (plain : '/' ∉ datasetId.toList) :
    Separated fs catalogue registered datasetId ↔
      (∀ first ∈ registeredPairs registered, ∀ second ∈ registeredPairs registered,
          ¬Continues first second) ∧
        (∀ pair ∈ registeredPairs registered, Listed datasetId pair ↔ pair.1 = datasetId) ∧
          ¬['*', '*'] <:+: datasetId.toList := by
  have relative : datasetId.toList.head? ≠ some '/' := fun first =>
    plain (List.mem_of_mem_head? first)
  constructor
  · rintro ⟨apart, own, -, single⟩
    refine ⟨fun first here second there continues => ?_, fun pair member => ?_, ?_⟩
    · have differ : first ≠ second := by
        rintro rfl
        exact not_continues_self first continues
      refine apart first here second there differ ?_
      rw [Clash, if_pos ⟨flat first here, flat second there⟩]
      exact .inl continues
    · have fits := own pair member
      rwa [Fits, if_pos ⟨plain, flat pair member⟩] at fits
    · rwa [if_neg plain] at single
  · rintro ⟨apart, own, single⟩
    refine ⟨fun first here second there _ => ?_, fun pair member => ?_, relative, ?_⟩
    · rw [Clash, if_pos ⟨flat first here, flat second there⟩]
      rintro (continues | continues)
      · exact apart first here second there continues
      · exact apart second there first here continues
    · rw [Fits, if_pos ⟨plain, flat pair member⟩]
      exact own pair member
    · rwa [if_neg plain]

end Registrations

section Run

variable [DecidableEq φ] {fs : FileSystem φ} {datasets : List (DatasetVersion μ)}
  {readBack : DatasetVersion μ → DatasetVersion μ} {datasetId : String}

theorem registeredPairs_of_content {registered : List (DatasetVersion μ)}
    {pair : String × String} {dataset : DatasetVersion μ}
    (content : contentOf registered pair = some dataset) : pair ∈ registeredPairs registered :=
  ⟨dataset, of_lastWhere content⟩

/-- A registered version has a file. -/
theorem exists_file {pair : String × String}
    (member : pair ∈ registeredPairs (fs.registered datasets)) :
    ∃ file, fs.locate (versionPath pair.1 pair.2) = some file ∧
      (fs.registerAll datasets file).isSome := by
  obtain ⟨dataset, registered, rfl⟩ := member
  obtain ⟨file, opened⟩ := Option.isSome_iff_exists.mp (List.mem_filter.mp registered).2
  refine ⟨file, opened, ?_⟩
  rw [fs.registerAll_eq, lastWhere_isSome_iff]
  exact ⟨dataset, registered, opened⟩

/-- If no two versions have one file, the file of a version has its last record. -/
theorem file_of_apart (apart : OwnFiles fs (fs.registered datasets)) {pair : String × String}
    (member : pair ∈ registeredPairs (fs.registered datasets)) {file : φ}
    (opened : fs.locate (versionPath pair.1 pair.2) = some file) :
    fs.registerAll datasets file = contentOf (fs.registered datasets) pair := by
  rw [fs.registerAll_eq]
  refine lastWhere_congr fun dataset registered => ?_
  constructor
  · intro same
    exact apart ⟨dataset, registered, rfl⟩ member (same.trans opened.symm)
  · rintro rfl
    exact opened

theorem ownFiles_iff : OwnFiles fs (fs.registered datasets) ↔
    ∀ first ∈ registeredPairs (fs.registered datasets),
      ∀ second ∈ registeredPairs (fs.registered datasets), first ≠ second →
        ¬Clash fs first second := by
  constructor
  · intro apart first here second there differ clash
    obtain ⟨file, opened, -⟩ := exists_file here
    exact differ (apart here there ((clash_iff differ opened).mp clash))
  · intro separate first here second there same
    by_contra differ
    obtain ⟨file, opened, -⟩ := exists_file here
    exact separate first here second there differ ((clash_iff differ opened).mpr same)

/-- The last records of a dataset, each with its version. -/
def lastEntries (datasets : List (DatasetVersion μ)) (datasetId : String) :
    List (String × DatasetVersion μ) :=
  update [] (versionEntries datasets datasetId)

omit [DecidableEq φ] in
theorem registeredPairs_of_lastEntry {entry : String × DatasetVersion μ}
    (member : entry ∈ lastEntries (fs.registered datasets) datasetId) :
    (datasetId, entry.1) ∈ registeredPairs (fs.registered datasets) :=
  registeredPairs_of_content (mem_versionEntries_iff.mp member)

omit [DecidableEq φ] in
/-- Versions with files of their own have different files. -/
theorem entryFiles_nodup (apart : OwnFiles fs (fs.registered datasets)) :
    ((lastEntries (fs.registered datasets) datasetId).map fun entry =>
      fs.locate (versionPath datasetId entry.1)).Nodup := by
  refine List.Nodup.map_on ?_ (List.Nodup.of_map _ (nodup_update _))
  intro first here second there same
  have pairs := apart (registeredPairs_of_lastEntry here) (registeredPairs_of_lastEntry there) same
  exact List.inj_on_of_nodup_map (nodup_update _) here there (Prod.mk.inj pairs).2

/-- If the files that are found are those of the dataset, they are the files of its last records. -/
theorem entryFiles_perm (apart : OwnFiles fs (fs.registered datasets)) {found : List φ}
    (nodup : found.Nodup) (present : ∀ file ∈ found, (fs.registerAll datasets file).isSome)
    (own : ∀ pair ∈ registeredPairs (fs.registered datasets), ∀ file,
      fs.locate (versionPath pair.1 pair.2) = some file → (file ∈ found ↔ pair.1 = datasetId)) :
    (found.map some).Perm ((lastEntries (fs.registered datasets) datasetId).map fun entry =>
      fs.locate (versionPath datasetId entry.1)) := by
  refine (List.perm_ext_iff_of_nodup (nodup.map fun _ _ => Option.some.inj)
    (entryFiles_nodup apart)).mpr fun place => ?_
  rw [List.mem_map, List.mem_map]
  constructor
  · rintro ⟨file, member, rfl⟩
    have written := present file member
    rw [fs.registerAll_eq, lastWhere_isSome_iff] at written
    obtain ⟨dataset, registered, opened⟩ := written
    obtain rfl : dataset.pair.1 = datasetId :=
      (own _ ⟨dataset, registered, rfl⟩ file opened).mp member
    have last : (contentOf (fs.registered datasets) dataset.pair).isSome :=
      lastWhere_isSome_iff.mpr ⟨dataset, registered, rfl⟩
    obtain ⟨last, content⟩ := Option.isSome_iff_exists.mp last
    exact ⟨(dataset.version, last), mem_versionEntries_iff.mpr content, opened⟩
  · rintro ⟨entry, member, rfl⟩
    have named := registeredPairs_of_lastEntry member
    obtain ⟨file, opened, -⟩ := exists_file named
    exact ⟨file, (own _ named file opened).mpr rfl, opened.symm⟩

/-- **If the files that are found are those of the dataset, so are the records.** -/
theorem found_perm (apart : OwnFiles fs (fs.registered datasets)) {found : List φ}
    (nodup : found.Nodup) (present : ∀ file ∈ found, (fs.registerAll datasets file).isSome)
    (own : ∀ pair ∈ registeredPairs (fs.registered datasets), ∀ file,
      fs.locate (versionPath pair.1 pair.2) = some file → (file ∈ found ↔ pair.1 = datasetId)) :
    (found.filterMap (fs.registerAll datasets)).Perm
      (versionsOf (fs.registered datasets) datasetId) := by
  have reads : found.filterMap (fs.registerAll datasets) =
      (found.map some).filterMap fun place => place.bind (fs.registerAll datasets) := by
    rw [List.filterMap_map]
    rfl
  rw [reads]
  refine ((entryFiles_perm apart nodup present own).filterMap _).trans (List.Perm.of_eq ?_)
  rw [List.filterMap_map, versionsOf, ← List.filterMap_eq_map]
  refine List.filterMap_congr fun entry member => ?_
  have named := registeredPairs_of_lastEntry member
  obtain ⟨file, opened, -⟩ := exists_file named
  rw [Function.comp_apply, opened, Option.bind_some, file_of_apart apart named opened]
  exact mem_versionEntries_iff.mp member

/-- **If the records that are read are those of the dataset, so are the files that are found.** -/
theorem mem_found_iff {readBack : DatasetVersion μ → DatasetVersion μ}
    (keeps : ∀ dataset, (readBack dataset).pair = dataset.pair)
    (apart : OwnFiles fs (fs.registered datasets)) {found : List φ}
    (exact : ((found.filterMap (fs.registerAll datasets)).map readBack).Perm
      ((versionsOf (fs.registered datasets) datasetId).map readBack)) {pair : String × String}
    (member : pair ∈ registeredPairs (fs.registered datasets)) {file : φ}
    (opened : fs.locate (versionPath pair.1 pair.2) = some file) :
    file ∈ found ↔ pair.1 = datasetId := by
  obtain ⟨dataset, content⟩ := Option.isSome_iff_exists.mp (lastWhere_isSome_iff.mpr member)
  have holds := (file_of_apart apart member opened).trans content
  have pairs {other : DatasetVersion μ} (same : readBack other = readBack dataset) :
      other.pair = pair := by
    rw [← keeps other, same, keeps, (of_lastWhere content).2]
  constructor
  · intro finds
    have read : readBack dataset ∈ (versionsOf (fs.registered datasets) datasetId).map readBack :=
      exact.mem_iff.mp (List.mem_map_of_mem (List.mem_filterMap.mpr ⟨file, finds, holds⟩))
    obtain ⟨other, expected, same⟩ := List.mem_map.mp read
    rw [← pairs same]
    exact (mem_versionsOf_iff.mp expected).1
  · rintro rfl
    have expected : dataset ∈ versionsOf (fs.registered datasets) pair.1 := by
      have own := (of_lastWhere content).2
      exact mem_versionsOf_iff.mpr ⟨datasetId_of_pair own, own.symm ▸ content⟩
    obtain ⟨other, listed, same⟩ := List.mem_map.mp
      (exact.mem_iff.mpr (List.mem_map_of_mem expected))
    obtain ⟨place, finds, written⟩ := List.mem_filterMap.mp listed
    rw [fs.registerAll_eq] at written
    have placed : fs.locate (versionPath pair.1 pair.2) = some place := by
      rw [← pairs same]
      exact (of_lastWhere written).2
    rw [opened] at placed
    cases placed
    exact finds

/-- **After registrations, listing a dataset returns exactly the versions registered for it, and
no two registered versions have one file, if and only if the versions are separated**, for records
that keep their ids and versions when they are read back. -/
theorem listVersions_exact_iff (readBack : DatasetVersion μ → DatasetVersion μ)
    (keeps : ∀ dataset, (readBack dataset).pair = dataset.pair) (fs : FileSystem φ)
    (datasets : List (DatasetVersion μ)) (catalogue : Catalogue (fs.registerAll datasets))
    (datasetId : String) :
    (ListsOwn fs catalogue readBack (fs.registered datasets) datasetId ∧
        OwnFiles fs (fs.registered datasets)) ↔
      Separated fs catalogue (fs.registered datasets) datasetId := by
  constructor
  · rintro ⟨⟨listed, result, exact⟩, apart⟩
    obtain ⟨found, search, rfl⟩ := listVersions_eq_ok_iff.mp result
    refine ⟨ownFiles_iff.mp apart, fun pair member => ?_, glob_eq_ok_iff.mp ⟨found, search⟩⟩
    obtain ⟨file, opened, present⟩ := exists_file member
    rw [fits_iff search opened present]
    exact mem_found_iff keeps apart ((List.mergeSort_perm _ _).symm.trans exact) member opened
  · rintro ⟨separate, own, admits⟩
    have apart := ownFiles_iff.mpr separate
    obtain ⟨found, search⟩ := glob_eq_ok_iff.mpr admits
    refine ⟨⟨_, listVersions_eq_ok_iff.mpr ⟨found, search, rfl⟩, ?_⟩, apart⟩
    refine (List.mergeSort_perm _ _).trans (List.Perm.map readBack ?_)
    refine found_perm apart (glob_nodup search) (glob_present search)
      fun pair member file opened => ?_
    obtain ⟨other, placed, present⟩ := exists_file member
    rw [opened] at placed
    cases placed
    rw [← fits_iff search opened present, own pair member]

end Run

/-! ### A directory without further directories -/

theorem flat_inside {path file : String} (plain : '/' ∉ path.toList)
    (opened : (if '/' ∈ path.toList then none else some path) = some file) :
    some file = some path := by
  rw [if_neg plain] at opened
  exact opened.symm

/-- A version directory that holds files only: a path with a slash cannot be opened. -/
def flatDirectory : FileSystem String where
  locate path := if '/' ∈ path.toList then none else some path
  nameOf := some
  inside := flat_inside
  unique first second := Option.some.inj (first.trans second.symm)

/-- The names of the files that were written. -/
def writtenNames (datasets : List (DatasetVersion μ)) : List String :=
  ((flatDirectory.registered datasets).map fun dataset =>
    versionPath dataset.datasetId dataset.version).dedup

theorem mem_writtenNames_iff (datasets : List (DatasetVersion μ)) (file : String) :
    file ∈ writtenNames datasets ↔ (flatDirectory.registerAll datasets file).isSome := by
  rw [flatDirectory.registerAll_eq, lastWhere_isSome_iff, writtenNames, List.mem_dedup,
    List.mem_map]
  refine exists_congr fun dataset => and_congr_right fun member => ?_
  have opened := (List.mem_filter.mp member).2
  simp only [FileSystem.fileOf, flatDirectory] at opened ⊢
  split_ifs at opened ⊢ with slash
  · cases opened
  · exact Option.some_inj.symm

theorem below_nothing {disk : Disk String μ} (_ : List Char) (found : List String)
    (result : (Except.ok [] : Except ListingError (List String)) = .ok found) :
    ∀ file ∈ found, (disk file).isSome := by
  cases result
  exact fun file member => absurd member List.not_mem_nil

theorem nodup_nothing (_ : List Char) (found : List String)
    (result : (Except.ok [] : Except ListingError (List String)) = .ok found) : found.Nodup := by
  cases result
  exact List.nodup_nil

/-- What a search sees of that directory. -/
def flatCatalogue (datasets : List (DatasetVersion μ)) :
    Catalogue (flatDirectory.registerAll datasets) where
  files := writtenNames datasets
  nodup := List.nodup_dedup _
  mem_iff := mem_writtenNames_iff datasets
  below _ := .ok []
  below_nodup := nodup_nothing
  below_present := below_nothing

/-- The records of datasets and their versions. -/
def recordsOf (pairs : List (String × String)) : List (DatasetVersion Unit) :=
  pairs.map fun pair =>
    { datasetId := pair.1, name := pair.1, version := pair.2, symbols := [], startTime := 0
      endTime := 0, createdAt := 0, metadata := () }

/-- Two versions of the prices, and one of the volumes. -/
def threeVersions : List (String × String) :=
  [("prices", "1.0.0"), ("volumes", "1.0.0"), ("prices", "1.1.0")]

theorem listVersions_exact_three :
    ((versionsOf (flatDirectory.registered (recordsOf threeVersions)) "prices").map
        DatasetVersion.version) = ["1.0.0", "1.1.0"] ∧
      ListsOwn flatDirectory (flatCatalogue (recordsOf threeVersions)) id
        (flatDirectory.registered (recordsOf threeVersions)) "prices" ∧
      OwnFiles flatDirectory (flatDirectory.registered (recordsOf threeVersions)) := by
  have listed : ∀ pair ∈ registeredPairs (flatDirectory.registered (recordsOf threeVersions)),
      pair ∈ threeVersions := by
    rintro pair ⟨dataset, member, rfl⟩
    obtain ⟨pair, given, rfl⟩ := List.mem_map.mp (List.mem_of_mem_filter member)
    exact given
  refine ⟨by with_unfolding_all decide, ?_⟩
  refine (listVersions_exact_iff id (fun _ => rfl) flatDirectory (recordsOf threeVersions)
    (flatCatalogue _) "prices").mpr ?_
  refine (separated_flat_iff (fun pair member => ?_) (by decide)).mpr ⟨?_, ?_, by decide⟩
  · have flat : ∀ pair ∈ threeVersions, Flat pair := by decide
    exact flat pair (listed pair member)
  · intro first here second there continues
    have paths : ∀ first ∈ threeVersions, ∀ second ∈ threeVersions,
        versionPath first.1 first.2 = versionPath second.1 second.2 → first = second := by decide
    have same := paths first (listed first here) second (listed second there)
      ((versionPath_eq_iff first second).mpr (.inr (.inl continues)))
    exact not_continues_self second (same ▸ continues)
  · have fits : ∀ pair ∈ threeVersions,
        matchesText (parse (versionPattern "prices")) (versionPath pair.1 pair.2).toList = true ↔
          pair.1 = "prices" := by
      with_unfolding_all decide
    exact fun pair member => fits pair (listed pair member)

/-- A version of a dataset of prices, and one of a dataset of daily prices. -/
def dailyVersions : List (String × String) := [("prices", "1.0.0"), ("prices_daily", "1.0.0")]

/-- The listing of the prices holds the daily prices too, a version of the prices has the file of
the daily prices, and the listing of an id that begins with a slash raises. -/
theorem listing_of_another :
    (∃ listed, listVersions id flatDirectory (flatCatalogue (recordsOf dailyVersions)) "prices" =
        .ok listed ∧ ∃ dataset ∈ listed, dataset.pair = ("prices_daily", "1.0.0")) ∧
      versionPath "prices" "daily_1.0.0" = versionPath "prices_daily" "1.0.0" ∧
      listVersions id flatDirectory (flatCatalogue (recordsOf dailyVersions)) "/tmp/prices" =
        .error .nonRelative := by
  refine ⟨⟨_, listVersions_eq_ok_iff.mpr ⟨_, rfl, rfl⟩, ?_⟩, by decide, rfl⟩
  have file : (flatDirectory.registerAll (recordsOf dailyVersions)
      (versionPath "prices_daily" "1.0.0")).map DatasetVersion.pair =
        some ("prices_daily", "1.0.0") := by
    with_unfolding_all decide
  obtain ⟨dataset, written, pair⟩ := Option.map_eq_some_iff.mp file
  refine ⟨dataset, (List.mergeSort_perm _ _).mem_iff.mpr ?_, pair⟩
  rw [List.map_id]
  refine List.mem_filterMap.mpr ⟨_, List.mem_filter.mpr ⟨?_, ?_⟩, written⟩
  · exact (mem_writtenNames_iff _ _).mpr (by rw [written]; rfl)
  · exact (listed_plain_iff (by decide) ("prices_daily", "1.0.0")).mpr
      (.inr (.inl ⟨"daily", by decide⟩))

end TradeOS.Research
