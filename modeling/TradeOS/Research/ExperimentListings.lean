import TradeOS.Data.Overlays
import TradeOS.Data.StableOrder
import TradeOS.Research.ExperimentHistory
import Mathlib.Algebra.Order.Ring.Unbundled.Rat

/-!
# What the registry of experiments lists

A listing goes through the cache of a registry, sorts what it wants of it and cuts the rest off.
With one writer at a time the cache is the dictionary of all registrations, and so both listings
are prefixes of a ranking that the history alone determines
(`listings_are_prefixes_of_rankings`): the experiments wanted, each as it was registered last, by
creation time or by score, and in a tie in the order in which their ids were registered first. An
update of an experiment does not move it within a tie.

A negative limit cuts off as many from the end. For `list`, and only there, a limit of zero is none.
-/

set_option autoImplicit false

namespace TradeOS.Research

open Dictionary StableOrder

variable {π β : Type} [LinearOrder β]

/-! ## Rankings -/

/-- The place of an experiment in the order in which the ids were registered first. -/
def turn (registered : List (Experiment π)) (experiment : Experiment π) : ℕ :=
  (registered.map Experiment.experimentId).idxOf experiment.experimentId

/-- A list has every experiment that is wanted, as it was registered last, the highest score first
and those of one score by their turns. -/
structure Ranks (registered : List (Experiment π)) (wanted : Experiment π → Prop)
    (score : Experiment π → β) (ranking : List (Experiment π)) : Prop where
  mem_iff : ∀ experiment, experiment ∈ ranking ↔
    lastRegistered registered experiment.experimentId = some experiment ∧ wanted experiment
  ranked : ranking.Pairwise (Precedes score (turn registered))

/-- There is one ranking at most. -/
theorem Ranks.eq_iff {registered : List (Experiment π)} {wanted : Experiment π → Prop}
    {score : Experiment π → β} {ranking : List (Experiment π)}
    (ranks : Ranks registered wanted score ranking) (other : List (Experiment π)) :
    Ranks registered wanted score other ↔ other = ranking := by
  constructor
  · intro second
    exact eq_of_ranked second.ranked ranks.ranked fun experiment =>
      (second.mem_iff experiment).trans (ranks.mem_iff experiment).symm
  · rintro rfl
    exact ranks

/-! ## The values of the dictionary -/

section Values

variable (registered : List (Experiment π))

theorem entries_keys : (registered.map Experiment.entry).map Prod.fst =
    registered.map Experiment.experimentId := by
  rw [List.map_map]
  rfl

/-- An experiment is kept under its id. -/
theorem id_of_mem_dictionary {registered : List (Experiment π)} {entry : String × Experiment π}
    (member : entry ∈ dictionary registered) : entry.2.experimentId = entry.1 :=
  key_of_mem_update member

theorem mem_values_iff (experiment : Experiment π) :
    experiment ∈ (dictionary registered).map Prod.snd ↔
      lastRegistered registered experiment.experimentId = some experiment := by
  rw [lastRegistered, ← mem_update_iff, List.mem_map]
  constructor
  · rintro ⟨entry, member, rfl⟩
    rw [id_of_mem_dictionary member]
    exact member
  · exact fun member => ⟨_, member, rfl⟩

theorem pairwise_values : ((dictionary registered).map Prod.snd).Pairwise fun first second =>
    turn registered first < turn registered second := by
  have keys := pairwise_keys_update (registered.map Experiment.entry)
  rw [entries_keys] at keys
  rw [List.pairwise_map] at keys ⊢
  refine keys.imp_of_mem fun inFirst inSecond earlier => ?_
  rw [turn, turn, id_of_mem_dictionary inFirst, id_of_mem_dictionary inSecond]
  exact earlier

/-- **The sorted values that are wanted are the ranking.** -/
theorem ranks_mergeSort {score : Experiment π → β} {le : Experiment π → Experiment π → Bool}
    (ranks : ∀ x y, le x y = true ↔ score y ≤ score x) (kept : Experiment π → Bool)
    {wanted : Experiment π → Prop}
    (keeps : ∀ experiment, kept experiment = true ↔ wanted experiment) :
    Ranks registered wanted score
      ((((dictionary registered).map Prod.snd).filter kept).mergeSort le) := by
  constructor
  · intro experiment
    rw [List.mem_mergeSort, List.mem_filter, mem_values_iff, keeps]
  · exact pairwise_mergeSort ranks ((pairwise_values registered).filter kept)

end Values

/-! ## The listings -/

/-- What `list` wants: an absent or empty text is no condition. -/
def Wanted (status modelName : Option String) (experiment : Experiment π) : Prop :=
  (∀ text, status = some text → text = "" ∨ experiment.status.value = text) ∧
    ∀ text, modelName = some text → text = "" ∨ experiment.modelName = text

/-- What `top_experiments` wants. -/
def Scored (metric minStatus : String) (experiment : Experiment π) : Prop :=
  experiment.status.value = minStatus ∧ (experiment.metrics.lookup metric).isSome

/-- The score of an experiment that has one. -/
def scoreOf (metric : String) (experiment : Experiment π) : ℚ :=
  (experiment.metrics.lookup metric).getD 0

section Listings

variable (registered : List (Experiment π)) (status modelName : Option String)
  (metric minStatus : String)

theorem all_iff_listed {filter : Option String} {field : String} :
    (filter.all fun text => text = "" ∨ field = text) = true ↔
      ∀ text, filter = some text → text = "" ∨ field = text := by
  cases filter with
  | none => exact iff_of_true rfl nofun
  | some text =>
      rw [Option.all_some, decide_eq_true_iff]
      constructor
      · intro admitted other same
        rwa [← Option.some.inj same]
      · exact fun all => all text rfl

/-- The test of `list`. -/
def listed (experiment : Experiment π) : Bool :=
  (status.all fun text => text = "" ∨ experiment.status.value = text) &&
    modelName.all fun text => text = "" ∨ experiment.modelName = text

theorem listed_iff (experiment : Experiment π) :
    listed status modelName experiment = true ↔ Wanted status modelName experiment :=
  Bool.and_eq_true_iff.trans (and_congr all_iff_listed all_iff_listed)

/-- What `list` cuts its page from. -/
theorem ranks_listExperiments :
    ∃ ranking, Ranks registered (Wanted status modelName) Experiment.createdAt ranking ∧
      ∀ limit, listExperiments (dictionary registered) status modelName limit =
        if limit.getD 0 = 0 then ranking else slicePrefix (limit.getD 0) ranking := by
  refine ⟨_, ranks_mergeSort registered (fun _ _ => decide_eq_true_iff)
    (listed status modelName) (listed_iff status modelName), fun limit => ?_⟩
  cases limit with
  | none => rfl
  | some limit => rfl

/-- The test of `top_experiments`. -/
def scored (experiment : Experiment π) : Bool :=
  decide (experiment.status.value = minStatus) && (experiment.metrics.lookup metric).isSome

theorem scored_iff (experiment : Experiment π) :
    scored metric minStatus experiment = true ↔ Scored metric minStatus experiment := by
  rw [scored, Bool.and_eq_true, decide_eq_true_iff]
  rfl

/-- An experiment with its score. -/
def withScore (experiment : Experiment π) : Option (ℚ × Experiment π) :=
  if experiment.status.value = minStatus then
    (experiment.metrics.lookup metric).map fun score => (score, experiment)
  else none

theorem withScore_eq (experiment : Experiment π) :
    withScore metric minStatus experiment =
      if scored metric minStatus experiment then some (scoreOf metric experiment, experiment)
      else none := by
  unfold withScore scored scoreOf
  by_cases same : experiment.status.value = minStatus
  · rw [if_pos same, decide_eq_true same, Bool.true_and]
    cases experiment.metrics.lookup metric with
    | none => rfl
    | some score => rfl
  · rw [if_neg same, decide_eq_false same, Bool.false_and]
    rfl

/-- The experiments of the pairs are those that pass the test. -/
theorem map_snd_withScore (values : List (Experiment π)) :
    (values.filterMap (withScore metric minStatus)).map Prod.snd =
      values.filter (scored metric minStatus) := by
  induction values with
  | nil => rfl
  | cons experiment values ih =>
      rw [List.filterMap_cons, List.filter_cons, withScore_eq]
      split
      · next absent =>
          split at absent
          · cases absent
          · next fails =>
              rw [if_neg fails]
              exact ih
      · next made found =>
          split at found
          · next passes =>
              rw [if_pos passes, ← Option.some.inj found, List.map_cons, ih]
          · cases found

theorem fst_of_mem_withScore {values : List (Experiment π)} {made : ℚ × Experiment π}
    (member : made ∈ values.filterMap (withScore metric minStatus)) :
    made.1 = scoreOf metric made.2 := by
  obtain ⟨experiment, -, found⟩ := List.mem_filterMap.mp member
  rw [withScore_eq] at found
  split at found
  · rw [← Option.some.inj found]
  · cases found

/-- What `top_experiments` cuts its page from. -/
theorem ranks_topExperiments :
    ∃ ranking, Ranks registered (Scored metric minStatus) (scoreOf metric) ranking ∧
      ∀ limit, topExperiments (dictionary registered) metric limit minStatus =
        slicePrefix limit ranking := by
  have ranks : Ranks registered (Scored metric minStatus) (scoreOf metric) _ :=
    ranks_mergeSort registered (fun _ _ => decide_eq_true_iff) (scored metric minStatus)
      (scored_iff metric minStatus)
  refine ⟨_, ranks, fun limit => congrArg (slicePrefix limit) ?_⟩
  rw [← map_snd_withScore]
  refine List.map_mergeSort fun first inFirst second inSecond => ?_
  rw [fst_of_mem_withScore metric minStatus inFirst, fst_of_mem_withScore metric minStatus inSecond]

end Listings

end TradeOS.Research
