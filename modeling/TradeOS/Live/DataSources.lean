import TradeOS.Data.Overlays

/-!
# Data source profiles

A profile names a provider for each kind of external data. The registry keeps the profiles that were
saved in a file, by id, and lists the default profile with them, whose place a saved profile of its
id takes. A live run starts with one profile.

A profile is saved only if all its providers are registered, and no registered provider is
unavailable. So a run refuses the id of a profile that was never saved, and the id of one that is
disabled, and no other (`profiles_of_saves`).
-/

set_option autoImplicit false

namespace TradeOS.Live

open Dictionary LastWrite

/-! ## Providers -/

inductive ProviderCapabilityStatus where
  | real
  | proxy
  | placeholder
  | unavailable
  deriving DecidableEq, Repr

/-- A provider, without the texts that describe it. -/
structure ProviderCapability where
  providerId : String
  category : String
  status : ProviderCapabilityStatus
  testable : Bool

/-- `CAPABILITIES`. -/
def capabilities : List ProviderCapability :=
  [⟨"yahoo_market", "market", .real, true⟩,
    ⟨"csv_local", "market", .real, true⟩,
    ⟨"trading_terminal_api", "market", .placeholder, false⟩,
    ⟨"yahoo_fundamentals", "fundamental", .real, true⟩,
    ⟨"fred_macro", "macro", .real, true⟩,
    ⟨"macro_news", "macro", .proxy, true⟩,
    ⟨"yahoo_news", "news", .real, true⟩,
    ⟨"rss_news", "news", .placeholder, false⟩,
    ⟨"intraday_bars_proxy", "orderflow", .proxy, true⟩,
    ⟨"trade_prints", "orderflow", .placeholder, false⟩,
    ⟨"level2_orderbook", "orderflow", .placeholder, false⟩,
    ⟨"news_sentiment", "sentiment", .proxy, true⟩,
    ⟨"social_sentiment", "sentiment", .placeholder, false⟩,
    ⟨"funding_oi_liquidation", "sentiment", .placeholder, false⟩,
    ⟨"simulation_execution", "execution", .real, true⟩,
    ⟨"paper_execution", "execution", .placeholder, false⟩,
    ⟨"live_broker", "execution", .placeholder, false⟩]

/-- `get_capability`: a provider that is not registered is unavailable. -/
def getCapability (providerId : String) : ProviderCapability :=
  (capabilities.find? fun capability => capability.providerId = providerId).getD
    { providerId := providerId
      category := "unknown"
      status := .unavailable
      testable := false }

theorem status_ne_unavailable {providerId : String}
    (registered : providerId ∈ capabilities.map ProviderCapability.providerId) :
    (getCapability providerId).status ≠ .unavailable := by
  have sound : ∀ capability ∈ capabilities, capability.status ≠ .unavailable := by decide
  obtain ⟨capability, member, named⟩ := List.mem_map.mp registered
  have found : (capabilities.find? fun capability => capability.providerId = providerId).isSome :=
    List.find?_isSome.mpr ⟨capability, member, decide_eq_true named⟩
  obtain ⟨first, first_eq⟩ := Option.isSome_iff_exists.mp found
  rw [getCapability, first_eq]
  exact sound first (List.mem_of_find?_eq_some first_eq)

/-! ## Profiles -/

structure DataSourceProfile where
  profileId : String
  marketProvider : String := "yahoo_market"
  fundamentalProvider : String := "yahoo_fundamentals"
  macroProvider : String := "fred_macro"
  newsProvider : String := "yahoo_news"
  orderflowProvider : String := "intraday_bars_proxy"
  sentimentProvider : String := "news_sentiment"
  executionProvider : String := "simulation_execution"
  enabled : Bool := true
  notes : String := ""
  id_length : 1 ≤ profileId.length ∧ profileId.length ≤ 64

/-- The providers of a profile, in the order in which they are checked. -/
def DataSourceProfile.providerIds (profile : DataSourceProfile) : List String :=
  [profile.marketProvider, profile.fundamentalProvider, profile.macroProvider,
    profile.newsProvider, profile.orderflowProvider, profile.sentimentProvider,
    profile.executionProvider]

def DataSourceProfile.entry (profile : DataSourceProfile) : String × DataSourceProfile :=
  (profile.profileId, profile)

theorem default_id_length : 1 ≤ "default-live".length ∧ "default-live".length ≤ 64 := by decide

/-- `DEFAULT_PROFILE`. -/
def defaultProfile : DataSourceProfile where
  profileId := "default-live"
  notes := "Default local profile: Yahoo/FRED real data plus explicit orderflow/sentiment proxy " ++
    "boundaries."
  id_length := default_id_length

inductive ProfileError where
  | unknownProviders (ids : List String)
  | notFound (wanted : String)
  | disabled (profileId : String)
  | unavailable (ids : List String)
  deriving DecidableEq, Repr

/-- All providers of a profile are registered. -/
def Registered (profile : DataSourceProfile) : Prop :=
  ∀ providerId ∈ profile.providerIds,
    providerId ∈ capabilities.map ProviderCapability.providerId

instance : DecidablePred Registered := fun profile =>
  inferInstanceAs (Decidable (∀ providerId ∈ profile.providerIds, _))

theorem registered_default : Registered defaultProfile := by
  decide

/-- `DataSourceRegistry._validate_profile`. -/
def validateProfile (profile : DataSourceProfile) : Except ProfileError Unit :=
  let unknown := profile.providerIds.filter fun providerId =>
    providerId ∉ capabilities.map ProviderCapability.providerId
  if unknown.isEmpty then .ok () else .error (.unknownProviders unknown)

/-! ## The registry -/

/-- The file of the profiles, if there is one. -/
abbrev ProfileFile := Option (List DataSourceProfile)

/-- `_read_profiles`. -/
def readProfiles (file : ProfileFile) : List DataSourceProfile := file.getD []

/-- `list_profiles`. -/
def listProfiles (file : ProfileFile) : List DataSourceProfile :=
  (update [defaultProfile.entry] ((readProfiles file).map DataSourceProfile.entry)).map Prod.snd

/-- The id that is looked for: that of the default profile if there is none. -/
def wantedId : Option String → String
  | none => defaultProfile.profileId
  | some profileId => if profileId = "" then defaultProfile.profileId else profileId

/-- `get_profile`. -/
def getProfile (file : ProfileFile) (profileId : Option String) :
    Except ProfileError DataSourceProfile :=
  match (listProfiles file).find? fun profile => profile.profileId = wantedId profileId with
  | some profile => .ok profile
  | none => .error (.notFound (wantedId profileId))

/-- `save_profile`, with the profiles that it writes. -/
def saveProfile (file : ProfileFile) (profile : DataSourceProfile) :
    Except ProfileError (List DataSourceProfile) := do
  validateProfile profile
  let profiles := update [] ((readProfiles file).map DataSourceProfile.entry)
  return (assign profiles profile.entry).map Prod.snd

/-- The file after a save, which may be refused. -/
def afterSave (file : ProfileFile) (profile : DataSourceProfile) : ProfileFile :=
  match saveProfile file profile with
  | .ok written => some written
  | .error _ => file

/-- The file after a list of saves. -/
def profileFile (saves : List DataSourceProfile) : ProfileFile := saves.foldl afterSave none

/-- The saves that are not refused. -/
def accepted (saves : List DataSourceProfile) : List DataSourceProfile :=
  saves.filter fun profile => Registered profile

/-! ## Live runs -/

/-- `LiveAnalysisOrchestrator._validate_profile`. -/
def checkProfile (profile : DataSourceProfile) : Except ProfileError Unit :=
  let unavailable := profile.providerIds.filter fun providerId =>
    (getCapability providerId).status = .unavailable
  if ¬ profile.enabled then .error (.disabled profile.profileId)
  else if unavailable.isEmpty then .ok () else .error (.unavailable unavailable)

/-- The profile that a run starts with: the one that it is given, or else the one of an id. -/
def startProfile (file : ProfileFile) (given : Option DataSourceProfile)
    (profileId : Option String) : Except ProfileError DataSourceProfile := do
  let profile ← given.elim (getProfile file profileId) .ok
  checkProfile profile
  return profile

/-! ## The profiles of a list of saves -/

theorem validateProfile_eq_ok_iff (profile : DataSourceProfile) :
    validateProfile profile = .ok () ↔ Registered profile := by
  unfold validateProfile Registered
  simp [List.isEmpty_iff, List.filter_eq_nil_iff]

theorem afterSave_eq (file : ProfileFile) (profile : DataSourceProfile) :
    afterSave file profile =
      if Registered profile then
        some ((assign (update [] ((readProfiles file).map DataSourceProfile.entry))
          profile.entry).map Prod.snd)
      else file := by
  unfold afterSave saveProfile
  by_cases registered : Registered profile
  · rw [if_pos registered, (validateProfile_eq_ok_iff profile).mpr registered]
    rfl
  · rw [if_neg registered]
    cases checked : validateProfile profile with
    | ok => exact absurd ((validateProfile_eq_ok_iff profile).mp checked) registered
    | error raised => rfl

/-- A dictionary of profiles has each under its id. -/
theorem id_of_mem_update {profiles : List DataSourceProfile} :
    ∀ entry ∈ update [] (profiles.map DataSourceProfile.entry), entry.2.profileId = entry.1 :=
  fun _ member => key_of_mem_update member

/-- The profiles of a dictionary, under their ids again. -/
theorem entries_values (profiles : List DataSourceProfile) :
    ((update [] (profiles.map DataSourceProfile.entry)).map Prod.snd).map DataSourceProfile.entry =
      update [] (profiles.map DataSourceProfile.entry) :=
  map_values id_of_mem_update

/-- **The file is the dictionary of the accepted saves.** -/
theorem readProfiles_profileFile (saves : List DataSourceProfile) :
    (readProfiles (profileFile saves)).map DataSourceProfile.entry =
      update [] ((accepted saves).map DataSourceProfile.entry) := by
  have empty : (([] : List (String × DataSourceProfile)).map Prod.fst).Nodup := List.nodup_nil
  induction saves using List.reverseRecOn with
  | nil => rfl
  | append_singleton saves profile ih =>
      rw [profileFile, List.foldl_append]
      change (readProfiles (afterSave (profileFile saves) profile)).map _ = _
      rw [afterSave_eq, accepted, List.filter_append, List.filter_singleton]
      by_cases registered : Registered profile
      · rw [if_pos registered, decide_eq_true registered, cond_true, ih, update_update empty,
          ← update_concat, List.map_append]
        have written := entries_values (accepted saves ++ [profile])
        rw [List.map_append] at written
        exact written
      · rw [if_neg registered, decide_eq_false registered, ih, cond_false, List.append_nil]
        rfl

/-- The default profile, and behind it the profiles that were saved. -/
def stored (saves : List DataSourceProfile) : List DataSourceProfile :=
  defaultProfile :: accepted saves

theorem registered_of_mem_stored {saves : List DataSourceProfile} {profile : DataSourceProfile}
    (member : profile ∈ stored saves) : Registered profile := by
  rcases List.mem_cons.mp member with rfl | later
  · exact registered_default
  · exact of_decide_eq_true (List.mem_filter.mp later).2

theorem listProfiles_profileFile (saves : List DataSourceProfile) :
    listProfiles (profileFile saves) =
      (update [] ((stored saves).map DataSourceProfile.entry)).map Prod.snd := by
  have one : (([defaultProfile.entry]).map Prod.fst).Nodup := List.nodup_singleton _
  rw [listProfiles, readProfiles_profileFile, update_update one]
  rfl

theorem getProfile_profileFile (saves : List DataSourceProfile) (profileId : Option String) :
    getProfile (profileFile saves) profileId =
      match lastWhere (fun profile => profile.profileId = wantedId profileId) (stored saves) with
      | some profile => .ok profile
      | none => .error (.notFound (wantedId profileId)) := by
  rw [getProfile, listProfiles_profileFile,
    find?_values (f := DataSourceProfile.profileId) id_of_mem_update, lookup_update]
  rw [← assigned_values (f := DataSourceProfile.profileId)]
  rfl

/-- A profile of registered providers is refused only if it is disabled. -/
theorem checkProfile_of_registered {profile : DataSourceProfile} (registered : Registered profile) :
    checkProfile profile =
      if profile.enabled then .ok () else .error (.disabled profile.profileId) := by
  have available : (profile.providerIds.filter fun providerId =>
      (getCapability providerId).status = .unavailable) = [] := by
    refine List.filter_eq_nil_iff.mpr fun providerId member => ?_
    rw [decide_eq_true_eq]
    exact status_ne_unavailable (registered providerId member)
  rw [checkProfile, available]
  cases profile.enabled with
  | true => rfl
  | false => rfl

/-- **What a registry lists and what a live run starts with, after any saves.** The list is the
dictionary of the default profile and the accepted saves, by id. A run that is given an id starts
with the last of these profiles of the id, if it is enabled; an id that is absent or empty is that
of the default profile. It is refused for an id that was never saved, and for a disabled profile,
and never for its providers. -/
theorem profiles_of_saves (saves : List DataSourceProfile) :
    listProfiles (profileFile saves) =
        (update [] ((stored saves).map DataSourceProfile.entry)).map Prod.snd ∧
      ∀ profileId, startProfile (profileFile saves) none profileId =
        match lastWhere (fun profile => profile.profileId = wantedId profileId) (stored saves) with
        | none => .error (.notFound (wantedId profileId))
        | some profile =>
            if profile.enabled then .ok profile else .error (.disabled profile.profileId) := by
  refine ⟨listProfiles_profileFile saves, fun profileId => ?_⟩
  rw [startProfile, Option.elim_none, getProfile_profileFile]
  cases last : lastWhere (fun profile => profile.profileId = wantedId profileId) (stored saves) with
  | none => rfl
  | some profile =>
      have registered := registered_of_mem_stored (of_lastWhere last).1
      change (do checkProfile profile; return profile) = _
      rw [checkProfile_of_registered registered]
      dsimp only
      cases profile.enabled with
      | true => rfl
      | false => rfl

end TradeOS.Live
