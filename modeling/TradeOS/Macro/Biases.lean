import TradeOS.Data.Dictionary
import TradeOS.Macro.Engine

/-!
# The biases of a macro signal

The biases for equity and bonds are set from the regime, the inflation, the rates and the
liquidity, and then the shock writes over them. Every shock says something about equity and about
bonds (`shock_complete`), in the words `positive`, `negative` and `neutral`, so nothing of what was
set before is left (`bias_eq_word`).

The shock depends on the category of the event, and this on the order in which the sets of
categories are run through. `categoryOf_iff` says which categories an event name may get, and
`forall_category_iff` what is computed from them in all orders.
-/

set_option autoImplicit false

namespace TradeOS.Macro

open OrderFlow FirstMatch Dictionary

/-! ## Words -/

/-- The bias for an asset. -/
def AssetBiases.of (biases : AssetBiases) : Asset → String
  | .equity => biases.equity
  | .bond => biases.bond
  | .commodity => biases.commodity
  | .fx => biases.fx

theorem of_affected (biases : AssetBiases) (asset other : Asset) (impact : Impact) :
    (biases.affected (other, impact)).of asset =
      if asset = other then impact.word else biases.of asset := by
  cases other <;> cases asset <;> rfl

/-- A shock that names every asset once writes its words over the biases. -/
theorem of_foldl_affected (assets : List (Asset × Impact)) (biases : AssetBiases) (asset : Asset)
    (distinct : (assets.map Prod.fst).Nodup) :
    (assets.foldl AssetBiases.affected biases).of asset =
      ((assets.lookup asset).map Impact.word).getD (biases.of asset) := by
  induction assets generalizing biases with
  | nil => rfl
  | cons entry assets ih =>
      obtain ⟨other, impact⟩ := entry
      obtain ⟨fresh, rest⟩ := List.nodup_cons.mp distinct
      rw [List.foldl_cons, ih _ rest, of_affected]
      by_cases here : asset = other
      · subst here
        rw [lookup_eq_none_iff_notMem.mpr fresh, if_pos rfl, List.lookup_cons_self]
        rfl
      · rw [if_neg here, List.lookup_cons, beq_eq_false_iff_ne.mpr here]

/-- Every asset is named once, and equity and bonds are. -/
structure Complete (assets : List (Asset × Impact)) : Prop where
  distinct : (assets.map Prod.fst).Nodup
  equity : (assets.lookup .equity).isSome
  bond : (assets.lookup .bond).isSome

instance (assets : List (Asset × Impact)) : Decidable (Complete assets) :=
  decidable_of_iff ((assets.map Prod.fst).Nodup ∧ (assets.lookup .equity).isSome ∧
      (assets.lookup .bond).isSome)
    ⟨fun ⟨distinct, equity, bond⟩ => ⟨distinct, equity, bond⟩,
      fun ⟨distinct, equity, bond⟩ => ⟨distinct, equity, bond⟩⟩

theorem complete_impactsOf (category : String) : Complete (impactsOf category) := by
  have rows : ∀ row ∈ categoryImpactMap, Complete row.2 := by decide
  unfold impactsOf
  cases found : categoryImpactMap.lookup category with
  | none => exact (by decide : Complete [(.equity, .neutral), (.bond, .neutral),
      (.commodity, .neutral), (.fx, .neutral)])
  | some assets =>
      obtain ⟨before, after, split, -⟩ := List.lookup_eq_some_iff.mp found
      exact rows (category, assets) (split ▸ List.mem_append_right before List.mem_cons_self)

/-- **Every shock is complete.** -/
theorem shock_complete (order : SetOrder String) (events : List MacroEvent) (returns1d : ℚ)
    (volatility20d : Option ℚ) :
    Complete (analyzeShock order events returns1d volatility20d).affectedAssets := by
  unfold analyzeShock
  cases shockEvent events with
  | some event => exact complete_impactsOf _
  | none =>
      dsimp only
      unfold calcShockFromReturns
      split_ifs
      · exact (by decide : Complete [(.equity, .negative), (.bond, .positive),
          (.commodity, .negative)])
      · exact (by decide : Complete [(.equity, .positive), (.bond, .negative),
          (.commodity, .positive)])
      · exact (by decide : Complete [(.equity, .neutral), (.bond, .neutral),
          (.commodity, .neutral)])

/-- The assets that every shock names. -/
def Named (asset : Asset) : Prop := asset = .equity ∨ asset = .bond

/-- **The bias for equity and for bonds is the word of the shock.** -/
theorem bias_eq_word {metrics : Metrics} (complete : Complete metrics.shock.affectedAssets)
    {asset : Asset} (named : Named asset) :
    ∃ impact, metrics.shock.affectedAssets.lookup asset = some impact ∧
      (calcAssetBiases metrics).of asset = impact.word := by
  have some : (metrics.shock.affectedAssets.lookup asset).isSome := by
    rcases named with rfl | rfl
    · exact complete.equity
    · exact complete.bond
  obtain ⟨impact, found⟩ := Option.isSome_iff_exists.mp some
  refine ⟨impact, found, ?_⟩
  rw [calcAssetBiases, of_foldl_affected _ _ _ complete.distinct, found]
  rfl

theorem word_injective : Function.Injective Impact.word := by
  intro one other same
  revert same
  cases one <;> cases other <;> decide

/-! ## Categories -/

/-- The categories that an event name may get: those of high impact that it mentions, or if there
is none those of medium impact. -/
def candidates (eventName : String) : List String :=
  let high := highImpactCategories.filter (mentions (lower eventName))
  if high = [] then mediumImpactCategories.filter (mentions (lower eventName)) else high

theorem nodup_candidates (eventName : String) : (candidates eventName).Nodup := by
  have high : highImpactCategories.Nodup := by decide
  have medium : mediumImpactCategories.Nodup := by decide
  unfold candidates
  dsimp only
  split
  · exact medium.filter _
  · exact high.filter _

/-- The search in the two sets is one search for the candidates. -/
theorem categoryOf_eq (order : SetOrder String) (eventName : String) :
    (∃ category ∈ candidates eventName, categoryOf order eventName = category) ∨
      (candidates eventName = [] ∧ categoryOf order eventName = "unknown") := by
  unfold candidates categoryOf
  dsimp only
  cases found : (order.val highImpactCategories).find? (mentions (lower eventName)) with
  | some category =>
      have member := List.mem_filter.mpr (of_find?_eq_some found)
      rw [if_neg (List.ne_nil_of_mem member)]
      exact .inl ⟨category, member, rfl⟩
  | none =>
      rw [if_pos (List.filter_eq_nil_iff.mpr ((find?_eq_none_iff order).mp found))]
      cases later : (order.val mediumImpactCategories).find? (mentions (lower eventName)) with
      | some category =>
          exact .inl ⟨category, List.mem_filter.mpr (of_find?_eq_some later), rfl⟩
      | none =>
          exact .inr ⟨List.filter_eq_nil_iff.mpr ((find?_eq_none_iff order).mp later), rfl⟩

/-- An order that runs through a candidate first finds it. -/
theorem categoryOf_withFirst {eventName category : String}
    (member : category ∈ candidates eventName) :
    categoryOf (withFirst category) eventName = category := by
  unfold candidates at member
  unfold categoryOf
  dsimp only at member ⊢
  by_cases high : highImpactCategories.filter (mentions (lower eventName)) = []
  · rw [if_pos high] at member
    obtain ⟨listed, mentioned⟩ := List.mem_filter.mp member
    rw [(find?_eq_none_iff _).mpr (List.filter_eq_nil_iff.mp high),
      find?_withFirst listed mentioned]
    rfl
  · rw [if_neg high] at member
    obtain ⟨listed, mentioned⟩ := List.mem_filter.mp member
    rw [find?_withFirst listed mentioned]

/-- **What is computed from the category of an event is the same in all orders exactly if it is the
same for all candidates.** -/
theorem forall_category_iff {β : Type} (f : String → β) (eventName : String) :
    (∀ one other : SetOrder String,
        f (categoryOf one eventName) = f (categoryOf other eventName)) ↔
      ∀ category ∈ candidates eventName, ∀ other ∈ candidates eventName,
        f category = f other := by
  constructor
  · intro same category member other second
    have orders := same (withFirst category) (withFirst other)
    rwa [categoryOf_withFirst member, categoryOf_withFirst second] at orders
  · intro agree one other
    rcases categoryOf_eq one eventName with ⟨first, member, found⟩ | ⟨none, found⟩
    · rcases categoryOf_eq other eventName with ⟨second, later, reached⟩ | ⟨none, -⟩
      · rw [found, reached]
        exact agree first member second later
      · rw [none] at member
        cases member
    · rcases categoryOf_eq other eventName with ⟨second, later, -⟩ | ⟨-, reached⟩
      · rw [none] at later
        cases later
      · rw [found, reached]

/-- The category itself is the same in all orders if there is one candidate at most. -/
theorem unique_category_iff (eventName : String) :
    (∀ one other : SetOrder String, categoryOf one eventName = categoryOf other eventName) ↔
      (candidates eventName).length ≤ 1 := by
  rw [forall_category_iff fun category => category]
  constructor
  · intro agree
    cases list : candidates eventName with
    | nil => exact Nat.zero_le 1
    | cons first rest =>
        cases rest with
        | nil => exact le_rfl
        | cons second rest =>
            rw [list] at agree
            have distinct := nodup_candidates eventName
            rw [list, agree first (by simp) second (by simp)] at distinct
            simp at distinct
  · intro short category member other second
    cases list : candidates eventName with
    | nil =>
        rw [list] at member
        cases member
    | cons first rest =>
        rw [list] at short member second
        have none : rest.length = 0 := Nat.le_zero.mp (Nat.le_of_succ_le_succ short)
        obtain rfl := List.length_eq_zero_iff.mp none
        rw [List.mem_singleton.mp member, List.mem_singleton.mp second]

end TradeOS.Macro
