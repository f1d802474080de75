import TradeOS.Data.Dictionary

/-!
# The registry of data providers

A provider is registered under a name, and the name is put into the list of every domain that the
provider supports. A domain is served by the first name of its list.

The lists are never cleaned when a name is registered again. If the new provider supports less
than the one it replaces (`Narrows`), the name stays in lists where it does not belong, and a later
`unregister` removes it from the domains of the new provider only. Without such a registration the
lists say exactly which providers support which domain (`Routed`); `routed_iff` is this for every
run, in both directions.
-/

set_option autoImplicit false

namespace TradeOS.Store

open Dictionary

/-- `DataDomain`. -/
inductive DataDomain where
  | marketData
  | fundamentals
  | macroData
  | news
  | sentiment
  | localFile
  deriving DecidableEq, Repr

/-- The text of a domain. -/
def DataDomain.value : DataDomain → String
  | marketData => "market_data"
  | fundamentals => "fundamentals"
  | macroData => "macro"
  | news => "news"
  | sentiment => "sentiment"
  | localFile => "local_file"

/-- A provider: its domains, and the rest. -/
structure DataProvider (π : Type) where
  supportedDomains : List DataDomain
  rest : π

/-- What a request for a provider raises. -/
inductive ProviderError where
  | keyError (text : String)
  | valueError (text : String)
  deriving DecidableEq

/-- `DataProviderRegistry`. -/
structure DataProviderRegistry (π : Type) where
  providers : List (String × DataProvider π) := []
  domainProviders : DataDomain → List String := fun _ => []
  default : Option String := none

variable {π : Type}

/-! ## The operations -/

namespace DataProviderRegistry

variable (registry : DataProviderRegistry π)

/-- The lists with a name put into one of them. -/
def listed (name : String) (lists : DataDomain → List String) (domain : DataDomain) :
    DataDomain → List String :=
  if name ∈ lists domain then lists
  else Function.update lists domain (lists domain ++ [name])

/-- The lists with a name removed from one of them. -/
def delisted (name : String) (lists : DataDomain → List String) (domain : DataDomain) :
    DataDomain → List String :=
  if name ∈ lists domain then Function.update lists domain ((lists domain).erase name) else lists

/-- `register`. -/
def register (name : String) (provider : DataProvider π) (setDefault : Bool) :
    DataProviderRegistry π where
  providers := assign registry.providers (name, provider)
  domainProviders := provider.supportedDomains.foldl (listed name) registry.domainProviders
  default :=
    if setDefault || registry.default.getD "" = "" then some name else registry.default

/-- `unregister`. -/
def unregister (name : String) : DataProviderRegistry π :=
  match registry.providers.lookup name with
  | none => registry
  | some provider =>
      let left := registry.providers.filter fun entry => entry.1 ≠ name
      { providers := left
        domainProviders := provider.supportedDomains.foldl (delisted name) registry.domainProviders
        default :=
          if registry.default = some name then left.head?.map Prod.fst else registry.default }

@[simp] theorem domainProviders_register (name : String) (provider : DataProvider π)
    (setDefault : Bool) : (registry.register name provider setDefault).domainProviders =
      provider.supportedDomains.foldl (listed name) registry.domainProviders :=
  rfl

/-- The end of `shutdown`, after every provider was disconnected. -/
def shutdown (_ : DataProviderRegistry π) : DataProviderRegistry π := {}

/-- `get`. -/
def get (name : Option String) : Except ProviderError (DataProvider π) :=
  match name.or registry.default with
  | none => .error (.keyError "Provider not found: None")
  | some name =>
      match registry.providers.lookup name with
      | none => .error (.keyError ("Provider not found: " ++ name))
      | some provider => .ok provider

/-- `get_for_domain`. -/
def getForDomain (domain : DataDomain) (name : Option String) :
    Except ProviderError (DataProvider π) :=
  match name.filter (· ≠ "") with
  | some name => do
      let provider ← registry.get (some name)
      if domain ∈ provider.supportedDomains then return provider
      else throw (.valueError
        ("Provider " ++ name ++ " does not support domain " ++ domain.value))
  | none =>
      match registry.domainProviders domain with
      | [] => .error (.keyError ("No provider registered for domain: " ++ domain.value))
      | first :: _ => registry.get (some first)

end DataProviderRegistry

/-- A call that changes the registry. -/
inductive ProviderCall (π : Type) where
  | register (name : String) (provider : DataProvider π) (setDefault : Bool)
  | unregister (name : String)
  | shutdown

/-- The registry after a call. -/
def ProviderCall.apply (registry : DataProviderRegistry π) :
    ProviderCall π → DataProviderRegistry π
  | .register name provider setDefault => registry.register name provider setDefault
  | .unregister name => registry.unregister name
  | .shutdown => registry.shutdown

/-- The registry after a list of calls. -/
def providersAfter (calls : List (ProviderCall π)) : DataProviderRegistry π :=
  calls.foldl ProviderCall.apply {}

/-! ## The lists of the domains -/

section Lists

open DataProviderRegistry

variable {name : String} {lists : DataDomain → List String}

theorem foldl_listed (domains : List DataDomain) (domain : DataDomain) :
    domains.foldl (listed name) lists domain =
      if domain ∈ domains ∧ name ∉ lists domain then lists domain ++ [name]
      else lists domain := by
  induction domains generalizing lists with
  | nil => simp
  | cons first domains ih =>
      rw [List.foldl_cons, ih]
      unfold listed
      by_cases known : name ∈ lists first
      · rw [if_pos known]
        by_cases here : domain = first
        · subst here
          simp [known]
        · simp [here]
      · rw [if_neg known]
        by_cases here : domain = first
        · subst here
          simp [known]
        · simp [here]

theorem foldl_delisted (distinct : ∀ domain, (lists domain).Nodup) (domains : List DataDomain)
    (domain : DataDomain) :
    domains.foldl (delisted name) lists domain =
      if domain ∈ domains then (lists domain).erase name else lists domain := by
  induction domains generalizing lists with
  | nil => simp
  | cons first domains ih =>
      have still : ∀ other, (delisted name lists first other).Nodup := by
        intro other
        unfold delisted
        by_cases known : name ∈ lists first
        · rw [if_pos known]
          by_cases here : other = first
          · subst here
            rw [Function.update_self]
            exact (distinct other).erase name
          · rw [Function.update_of_ne here]
            exact distinct other
        · rw [if_neg known]
          exact distinct other
      rw [List.foldl_cons, ih still]
      unfold delisted
      by_cases known : name ∈ lists first
      · rw [if_pos known]
        by_cases here : domain = first
        · subst here
          have gone : name ∉ (lists domain).erase name := (distinct domain).not_mem_erase
          simp [List.erase_of_not_mem gone]
        · simp [here]
      · rw [if_neg known]
        by_cases here : domain = first
        · subst here
          simp [List.erase_of_not_mem known]
        · simp [here]

end Lists

/-! ## Routing -/

/-- A registered provider supports a domain. -/
def Supports (registry : DataProviderRegistry π) (name : String) (domain : DataDomain) : Prop :=
  ∃ provider, (name, provider) ∈ registry.providers ∧ domain ∈ provider.supportedDomains

/-- What holds in every run: names are distinct, every supporting provider is listed, and there is
a default exactly when there are providers, which is one of them. -/
structure Sound (registry : DataProviderRegistry π) : Prop where
  distinct : (registry.providers.map Prod.fst).Nodup
  nodup : ∀ domain, (registry.domainProviders domain).Nodup
  listed : ∀ name domain, Supports registry name domain →
    name ∈ registry.domainProviders domain
  default : ∀ name, registry.default = some name → name ∈ registry.providers.map Prod.fst
  chosen : registry.default = none → registry.providers = []

/-- The lists have nobody else. -/
def Routed (registry : DataProviderRegistry π) : Prop :=
  ∀ name domain, name ∈ registry.domainProviders domain → Supports registry name domain

/-- A call that registers a name again, for a provider that supports less. -/
def Narrows (registry : DataProviderRegistry π) : ProviderCall π → Prop
  | .register name provider _ =>
      ∃ domain, Supports registry name domain ∧ domain ∉ provider.supportedDomains
  | _ => False

section Steps

variable {registry : DataProviderRegistry π}

theorem supports_register {name other : String} {provider : DataProvider π} {setDefault : Bool}
    {domain : DataDomain} :
    Supports (registry.register name provider setDefault) other domain ↔
      if name = other then domain ∈ provider.supportedDomains
      else Supports registry other domain := by
  unfold Supports DataProviderRegistry.register
  constructor
  · rintro ⟨found, member, supported⟩
    have either := mem_assign_iff.mp member
    by_cases here : name = other
    · rw [if_pos here] at either ⊢
      obtain rfl : found = provider := either
      exact supported
    · rw [if_neg here] at either ⊢
      exact ⟨found, either, supported⟩
  · intro either
    by_cases here : name = other
    · rw [if_pos here] at either
      exact ⟨provider, mem_assign_iff.mpr (by rw [if_pos here]), either⟩
    · rw [if_neg here] at either
      obtain ⟨found, member, supported⟩ := either
      exact ⟨found, mem_assign_iff.mpr (by rwa [if_neg here]), supported⟩

theorem mem_domainProviders_register {name other : String} {provider : DataProvider π}
    {setDefault : Bool} {domain : DataDomain} :
    other ∈ (registry.register name provider setDefault).domainProviders domain ↔
      other ∈ registry.domainProviders domain ∨
        name = other ∧ domain ∈ provider.supportedDomains := by
  rw [DataProviderRegistry.domainProviders_register, foldl_listed]
  by_cases added : domain ∈ provider.supportedDomains ∧ name ∉ registry.domainProviders domain
  · rw [if_pos added, List.mem_append, List.mem_singleton, eq_comm (a := other)]
    exact or_congr_right (and_iff_left added.1).symm
  · rw [if_neg added]
    refine ⟨.inl, fun either => either.elim id ?_⟩
    rintro ⟨rfl, supported⟩
    by_contra absent
    exact added ⟨supported, absent⟩

theorem unregister_of_lookup {name : String} {provider : DataProvider π}
    (found : registry.providers.lookup name = some provider) :
    registry.unregister name =
      { providers := registry.providers.filter fun entry => entry.1 ≠ name
        domainProviders := provider.supportedDomains.foldl (DataProviderRegistry.delisted name)
          registry.domainProviders
        default := if registry.default = some name then
            (registry.providers.filter fun entry => entry.1 ≠ name).head?.map Prod.fst
          else registry.default } := by
  unfold DataProviderRegistry.unregister
  rw [found]

theorem Sound.register (sound : Sound registry) (name : String) (provider : DataProvider π)
    (setDefault : Bool) : Sound (registry.register name provider setDefault) := by
  constructor
  · exact nodup_assign sound.distinct _
  · intro domain
    rw [DataProviderRegistry.domainProviders_register, foldl_listed]
    by_cases added : domain ∈ provider.supportedDomains ∧ name ∉ registry.domainProviders domain
    · rw [if_pos added]
      exact (sound.nodup domain).append (List.nodup_singleton name)
        (List.disjoint_singleton.mpr added.2)
    · rw [if_neg added]
      exact sound.nodup domain
  · intro other domain supports
    rw [supports_register] at supports
    rw [mem_domainProviders_register]
    by_cases here : name = other
    · rw [if_pos here] at supports
      exact .inr ⟨here, supports⟩
    · rw [if_neg here] at supports
      exact .inl (sound.listed other domain supports)
  · intro other is
    unfold DataProviderRegistry.register at is ⊢
    rw [mem_keys_assign]
    dsimp only at is
    split at is
    · exact .inl (Option.some.inj is).symm
    · exact .inr (sound.default other is)
  · intro absent
    unfold DataProviderRegistry.register at absent
    dsimp only at absent
    split at absent
    · cases absent
    · next given =>
        rw [absent] at given
        simp at given

theorem supports_unregister {name other : String} {domain : DataDomain} :
    Supports (registry.unregister name) other domain ↔
      other ≠ name ∧ Supports registry other domain := by
  cases found : registry.providers.lookup name with
  | none =>
      have same : registry.unregister name = registry := by
        unfold DataProviderRegistry.unregister
        rw [found]
      rw [same]
      refine ⟨fun supports => ⟨?_, supports⟩, And.right⟩
      rintro rfl
      obtain ⟨provider, member, -⟩ := supports
      exact lookup_eq_none_iff_notMem.mp found (List.mem_map.mpr ⟨_, member, rfl⟩)
  | some provider =>
      rw [unregister_of_lookup found]
      simp only [Supports, List.mem_filter, decide_eq_true_eq]
      constructor
      · rintro ⟨other, ⟨member, different⟩, supported⟩
        exact ⟨different, other, member, supported⟩
      · rintro ⟨different, other, member, supported⟩
        exact ⟨other, ⟨member, different⟩, supported⟩

theorem mem_domainProviders_unregister (sound : Sound registry) {name other : String}
    {domain : DataDomain} :
    other ∈ (registry.unregister name).domainProviders domain ↔
      other ∈ registry.domainProviders domain ∧ (other = name → ¬ Supports registry name domain) := by
  cases found : registry.providers.lookup name with
  | none =>
      have same : registry.unregister name = registry := by
        unfold DataProviderRegistry.unregister
        rw [found]
      rw [same]
      refine ⟨fun member => ⟨member, fun _ supports => ?_⟩, And.left⟩
      obtain ⟨provider, member, -⟩ := supports
      exact lookup_eq_none_iff_notMem.mp found (List.mem_map.mpr ⟨_, member, rfl⟩)
  | some provider =>
      have here : Supports registry name domain ↔ domain ∈ provider.supportedDomains := by
        constructor
        · rintro ⟨other, member, supported⟩
          rw [(lookup_eq_some_iff sound.distinct).mpr member] at found
          rwa [← Option.some.inj found]
        · exact fun supported => ⟨provider, (lookup_eq_some_iff sound.distinct).mp found, supported⟩
      rw [unregister_of_lookup found, here]
      dsimp only
      rw [foldl_delisted sound.nodup]
      by_cases supported : domain ∈ provider.supportedDomains
      · rw [if_pos supported, (sound.nodup domain).mem_erase_iff]
        exact ⟨fun both => ⟨both.2, fun same => absurd same both.1⟩,
          fun both => ⟨fun same => both.2 same supported, both.1⟩⟩
      · rw [if_neg supported]
        exact (and_iff_left fun _ => supported).symm

theorem Sound.unregister (sound : Sound registry) (name : String) :
    Sound (registry.unregister name) := by
  cases found : registry.providers.lookup name with
  | none =>
      unfold DataProviderRegistry.unregister
      rw [found]
      exact sound
  | some provider =>
      have lists := fun other domain =>
        @mem_domainProviders_unregister π registry sound name other domain
      have supported := fun other domain =>
        @supports_unregister π registry name other domain
      rw [unregister_of_lookup found] at lists supported ⊢
      constructor
      · exact sound.distinct.sublist (List.filter_sublist.map _)
      · intro domain
        dsimp only
        rw [foldl_delisted sound.nodup]
        by_cases own : domain ∈ provider.supportedDomains
        · rw [if_pos own]
          exact (sound.nodup domain).erase name
        · rw [if_neg own]
          exact sound.nodup domain
      · intro other domain supports
        obtain ⟨different, before⟩ := (supported other domain).mp supports
        exact (lists other domain).mpr
          ⟨sound.listed other domain before, fun same => absurd same different⟩
      · intro other is
        dsimp only at is ⊢
        split at is
        · obtain ⟨entry, first, rfl⟩ := Option.map_eq_some_iff.mp is
          exact List.mem_map.mpr ⟨entry, List.mem_of_head? first, rfl⟩
        · next kept =>
            obtain ⟨entry, member, rfl⟩ := List.mem_map.mp (sound.default other is)
            refine List.mem_map.mpr ⟨entry, List.mem_filter.mpr ⟨member, ?_⟩, rfl⟩
            refine decide_eq_true fun same => kept ?_
            rw [is, same]
      · intro absent
        dsimp only at absent ⊢
        split at absent
        · exact List.head?_eq_none_iff.mp (Option.map_eq_none_iff.mp absent)
        · rw [sound.chosen absent]
          rfl

theorem sound_empty : Sound ({} : DataProviderRegistry π) := by
  refine ⟨List.nodup_nil, fun _ => List.nodup_nil, ?_, ?_, fun _ => rfl⟩
  · rintro _ _ ⟨_, member, -⟩
    cases member
  · intro _ is
    cases is

theorem Sound.apply (sound : Sound registry) (call : ProviderCall π) :
    Sound (call.apply registry) := by
  cases call with
  | register name provider setDefault => exact sound.register name provider setDefault
  | unregister name => exact sound.unregister name
  | shutdown => exact sound_empty

/-- **A call keeps the lists right exactly when it does not narrow.** -/
theorem routed_apply_iff (sound : Sound registry) (routed : Routed registry)
    (call : ProviderCall π) : Routed (call.apply registry) ↔ ¬ Narrows registry call := by
  cases call with
  | register name provider setDefault =>
      constructor
      · rintro after ⟨domain, supports, narrower⟩
        have still : name ∈ (registry.register name provider setDefault).domainProviders domain :=
          mem_domainProviders_register.mpr (.inl (sound.listed name domain supports))
        have supported := supports_register.mp (after name domain still)
        rw [if_pos rfl] at supported
        exact narrower supported
      · intro wide other domain member
        refine supports_register.mpr ?_
        by_cases here : name = other
        · rw [if_pos here]
          rcases mem_domainProviders_register.mp member with old | ⟨-, supported⟩
          · by_contra narrower
            exact wide ⟨domain, here ▸ routed other domain old, narrower⟩
          · exact supported
        · rw [if_neg here]
          rcases mem_domainProviders_register.mp member with old | ⟨same, -⟩
          · exact routed other domain old
          · exact absurd same here
  | unregister name =>
      refine iff_of_true (fun other domain member => ?_) id
      obtain ⟨old, gone⟩ := (mem_domainProviders_unregister sound).mp member
      have supports := routed other domain old
      refine supports_unregister.mpr ⟨fun same => ?_, supports⟩
      exact gone same (same ▸ supports)
  | shutdown => exact iff_of_true (fun _ _ member => absurd member List.not_mem_nil) id

end Steps

/-- A domain is answered by a provider that supports it, and by none if there is none. -/
def Answers (registry : DataProviderRegistry π) (domain : DataDomain) : Prop :=
  match registry.getForDomain domain none with
  | .ok provider => domain ∈ provider.supportedDomains
  | .error _ => ∀ name, ¬ Supports registry name domain

theorem Routed.answers {registry : DataProviderRegistry π} (sound : Sound registry)
    (routed : Routed registry) (domain : DataDomain) : Answers registry domain := by
  unfold Answers DataProviderRegistry.getForDomain
  cases list : registry.domainProviders domain with
  | nil =>
      intro name supports
      have member := sound.listed name domain supports
      rw [list] at member
      cases member
  | cons first rest =>
      obtain ⟨provider, member, supported⟩ := routed first domain (by rw [list]; simp)
      have found := (lookup_eq_some_iff sound.distinct).mpr member
      simp only [Option.filter_none, DataProviderRegistry.get, Option.some_or, found]
      exact supported

theorem providersAfter_concat (calls : List (ProviderCall π)) (call : ProviderCall π) :
    providersAfter (calls ++ [call]) = call.apply (providersAfter calls) := by
  rw [providersAfter, List.foldl_append]
  rfl

theorem sound_providersAfter (calls : List (ProviderCall π)) : Sound (providersAfter calls) := by
  induction calls using List.reverseRecOn with
  | nil => exact sound_empty
  | append_singleton calls call ih =>
      rw [providersAfter_concat]
      exact ih.apply call

/-- **The lists of the domains are right in every state of a run exactly when no call of it
registers a name again for a provider that supports less.** In every run the names are distinct,
every supporting provider is listed, and the default is a provider if there are any; and where the
lists are right, every domain is answered by a provider that supports it. -/
theorem routed_iff (calls : List (ProviderCall π)) :
    ((∀ before, before <+: calls → Routed (providersAfter before)) ↔
      ∀ before call after, calls = before ++ call :: after →
        ¬ Narrows (providersAfter before) call) ∧
      Sound (providersAfter calls) ∧
      (Routed (providersAfter calls) → ∀ domain, Answers (providersAfter calls) domain) := by
  refine ⟨⟨?_, ?_⟩, sound_providersAfter calls, fun routed =>
    routed.answers (sound_providersAfter calls)⟩
  · rintro routed before call after rfl
    have now := routed before ⟨call :: after, rfl⟩
    refine (routed_apply_iff (sound_providersAfter before) now call).mp ?_
    rw [← providersAfter_concat]
    exact routed _ ⟨after, by simp⟩
  · intro wide before
    induction before using List.reverseRecOn with
    | nil => exact fun _ _ _ member => absurd member List.not_mem_nil
    | append_singleton before call ih =>
        rintro ⟨after, rfl⟩
        rw [providersAfter_concat]
        refine (routed_apply_iff (sound_providersAfter before) (ih ?_) call).mpr ?_
        · exact ⟨call :: after, by simp⟩
        · exact wide before call after (by simp)

end TradeOS.Store
