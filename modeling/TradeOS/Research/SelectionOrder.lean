import TradeOS.Data.BestIndependent
import TradeOS.Data.Ranking
import TradeOS.Research.FactorSelection
import Mathlib.Data.Rat.Sqrt

/-!
# What selection owes to the order of the columns

The selector is documented to drop, of two correlated factors, the one with the lower IC. Its
pruning does not look at the ICs: it goes through the columns in their order, and of two correlated
factors it drops the one that comes later.

For every strategy, what is selected is the choice of a greedy pruning of the factors that pass the
IC threshold (`exists_select_eq`). So the better of two correlated factors is preferred, and the
order of the columns does not matter, exactly for a table of a certain kind
(`prefersBetter_iff`): of two factors that are correlated with each other only, the better one comes
first, and the choice of the pruning is that of a list without conflicts or a steady one.
-/

set_option autoImplicit false

namespace TradeOS.Alpha

open GreedyIndependence Numeric Ranking

/-- The strategies of `select`. -/
inductive Strategy where
  | icIr
  | corrIc
  | bestOnly
  deriving DecidableEq

def Strategy.text : Strategy → String
  | icIr => "ic_ir"
  | corrIc => "corr_ic"
  | bestOnly => "best_only"

section Filters

variable (corr : List (ℚ × ℚ) → Option ℚ) (sqrt : ℚ → ℚ) (selector : FactorSelector)

/-- The factor passes the IC threshold. -/
def FactorSelector.passes (rows : List FactorRow) (name : String) : Bool :=
  match informationCoefficient corr rows name with
  | some ic => selector.minIc ≤ |ic|
  | none => false

/-- The factor passes the IR threshold. -/
def FactorSelector.hasRatio (rows : List FactorRow) (name : String) : Bool :=
  match informationRatio corr sqrt rows name with
  | some ir => selector.minIr ≤ ir
  | none => false

/-- The factors that pass the IC threshold. -/
def FactorSelector.passing (factors : FactorTable) : List String :=
  factors.names.filter (selector.passes corr factors.rows)

/-- The factors that are left after the pruning. -/
def FactorSelector.survivors (factors : FactorTable) : List String :=
  selector.correlationPrune (selector.passing corr factors) factors.rows.length
    (corrMatrix corr factors.rows) (some selector.corrThreshold)

/-- The factors that a strategy may rank. -/
def Strategy.eligible (rows : List FactorRow) : Strategy → String → Bool
  | icIr => selector.hasRatio corr sqrt rows
  | _ => fun _ => true

/-- The IC of a factor, where it is defined. -/
def coefficient (rows : List FactorRow) (name : String) : ℚ :=
  (informationCoefficient corr rows name).getD 0

/-- The factors whose correlation reaches the threshold. -/
def FactorSelector.conflicts (rows : List FactorRow) : String → String → Bool :=
  correlated selector.corrThreshold (corrMatrix corr rows)

/-- No two factors have ICs of the same size. -/
def DistinctCoefficients (factors : FactorTable) : Prop :=
  ∀ a ∈ factors.names, ∀ b ∈ factors.names, ∀ x y,
    informationCoefficient corr factors.rows a = some x →
      informationCoefficient corr factors.rows b = some y → |x| = |y| → a = b

/-- What a strategy takes of the factors that the pruning keeps. -/
def Taken (rows : List FactorRow) (strategy : Strategy) (kept : List String) (name : String) :
    Prop :=
  if strategy = .corrIc then name ∈ kept
  else Chosen (strategy.eligible corr sqrt selector rows) (coefficient corr rows) 5 kept name

end Filters

section Selection

variable {corr : List (ℚ × ℚ) → Option ℚ} {sqrt : ℚ → ℚ} {selector : FactorSelector}
  {factors : FactorTable} {rows : List FactorRow} {names : List String} {name : String}

/-- Without rows the tests of the filters fail, so that the case of an empty table is none of its
own. -/
theorem ite_empty_eq_filter {p : String → Bool} (quiet : rows = [] → ∀ name, p name = false) :
    (if names = [] ∨ rows = [] then [] else names.filter p) = names.filter p := by
  split
  · rename_i empty
    rcases empty with rfl | bare
    · rfl
    · refine (List.filter_eq_nil_iff.mpr fun name _ => ?_).symm
      rw [quiet bare name]
      exact Bool.false_ne_true
  · rfl

theorem icThreshold_eq : selector.icThreshold corr names rows none =
    names.filter (selector.passes corr rows) :=
  ite_empty_eq_filter fun bare _ => by
    rw [bare]
    rfl

theorem irThreshold_eq : selector.irThreshold corr sqrt names rows none =
    names.filter (selector.hasRatio corr sqrt rows) :=
  ite_empty_eq_filter fun bare _ => by
    rw [bare]
    rfl

/-- A filter may be read from the list that it leaves. -/
theorem filter_mem_filter (p : String → Bool) :
    (names.filter fun f => f ∈ names.filter p) = names.filter p := by
  refine List.filter_congr fun f member => ?_
  rw [Bool.eq_iff_iff, decide_eq_true_eq, List.mem_filter, and_iff_right member]

/-- A factor that passes has an IC, and it is ranked by it. -/
theorem rankScore_of_passes (sqrt : ℚ → ℚ) (passes : selector.passes corr rows name = true) :
    rankScore corr sqrt "ic_mean" (withLabels rows name) = some (coefficient corr rows name) := by
  rw [FactorSelector.passes] at passes
  cases ic : informationCoefficient corr rows name with
  | none =>
      rw [ic] at passes
      cases passes
  | some x =>
      rw [coefficient, ic, Option.getD_some]
      rw [informationCoefficient] at ic
      split at ic
      · cases ic
      · rename_i several
        rw [rankScore, if_neg several, ic]
        cases Extended.sampleStd sqrt ((withLabels rows name).map Prod.fst) <;> simp

theorem coefficient_injOn (distinct : DistinctCoefficients corr factors) {a b : String}
    (first : a ∈ selector.passing corr factors) (second : b ∈ selector.passing corr factors)
    (same : coefficient corr factors.rows a = coefficient corr factors.rows b) : a = b := by
  obtain ⟨inside, passes⟩ := List.mem_filter.mp first
  obtain ⟨other, passed⟩ := List.mem_filter.mp second
  rw [FactorSelector.passes] at passes passed
  cases left : informationCoefficient corr factors.rows a with
  | none =>
      rw [left] at passes
      cases passes
  | some x =>
      cases right : informationCoefficient corr factors.rows b with
      | none =>
          rw [right] at passed
          cases passed
      | some y =>
          rw [coefficient, coefficient, left, right, Option.getD_some, Option.getD_some] at same
          exact distinct a inside b other x y left right (congrArg abs same)

theorem passes_of_mem_passing (member : name ∈ selector.passing corr factors) :
    selector.passes corr factors.rows name = true :=
  (List.mem_filter.mp member).2

/-- `best_k` takes the factors with few better ones. -/
theorem mem_bestK_iff (selector : FactorSelector) (distinct : DistinctCoefficients corr factors)
    (inside : ∀ a ∈ names, a ∈ selector.passing corr factors) (apart : names.Nodup) (k : ℕ) :
    name ∈ FactorSelector.bestK corr sqrt names factors.rows k "ic_mean" ↔
      name ∈ names ∧ names.countP (fun b => decide
        (coefficient corr factors.rows name < coefficient corr factors.rows b)) < k := by
  rw [FactorSelector.bestK]
  by_cases empty : names = [] ∨ factors.rows = []
  · have none : names = [] := by
      refine empty.elim id fun bare => List.eq_nil_iff_forall_not_mem.mpr fun a member => ?_
      have passes := passes_of_mem_passing (inside a member)
      rw [bare] at passes
      cases passes
    rw [if_pos empty, none]
    simp
  · rw [if_neg empty]
    have score (a : String) (member : a ∈ names) :=
      rankScore_of_passes sqrt (passes_of_mem_passing (inside a member))
    refine mem_take_insertionSort_iff (fun a first b second => ?_) ?_ k
    · simp only [score a first, score b second, scoreBelow, decide_eq_false_iff_not, not_lt]
    · exact apart.map_on fun a first b second same =>
        coefficient_injOn distinct (inside a first) (inside b second) same

theorem passing_nodup : (selector.passing corr factors).Nodup := factors.distinct.filter _

theorem passing_eq_nil (empty : factors.names = [] ∨ factors.rows = []) :
    selector.passing corr factors = [] := by
  rw [FactorSelector.passing, ← icThreshold_eq, FactorSelector.icThreshold, if_pos empty]

theorem survivors_eq : selector.survivors corr factors =
    greedy (selector.conflicts corr factors.rows) (selector.passing corr factors) := by
  by_cases bare : factors.rows = []
  · rw [FactorSelector.survivors, passing_eq_nil (.inr bare)]
    rfl
  · exact correlationPrune_eq selector _ passing_nodup fun none =>
      absurd (List.length_eq_zero_iff.mp none) bare

theorem survivors_eq_passing (few : (selector.passing corr factors).length ≤ 1) :
    selector.survivors corr factors = selector.passing corr factors := by
  rw [survivors_eq, greedy_eq_self]
  exact independent_of_length_le_one few

theorem mem_passing_of_mem_survivors (kept : name ∈ selector.survivors corr factors) :
    name ∈ selector.passing corr factors := by
  rw [survivors_eq] at kept
  exact mem_of_mem_greedy kept

theorem survivors_nodup : (selector.survivors corr factors).Nodup := by
  rw [survivors_eq]
  exact passing_nodup.sublist (greedy_sublist _)

/-- The best of several factors that a strategy may rank. -/
theorem mem_bestK_filter_iff (sqrt : ℚ → ℚ) (able : String → Bool) (name : String)
    (distinct : DistinctCoefficients corr factors) {kept : List String}
    (inside : ∀ a ∈ kept, a ∈ selector.passing corr factors) (apart : kept.Nodup)
    (several : ¬ kept.length ≤ 1) :
    name ∈ FactorSelector.bestK corr sqrt (kept.filter able) factors.rows 5 "ic_mean" ↔
      Chosen able (coefficient corr factors.rows) 5 kept name := by
  rw [mem_bestK_iff selector distinct
      (fun a member => inside a (List.mem_filter.mp member).1) (apart.filter able),
    List.mem_filter, ← numBetter_eq_countP_filter, chosen_iff_best (not_le.mp several), Best,
    and_assoc]

/-- A single factor that a strategy may rank is taken as it is. -/
theorem mem_filter_iff_chosen {able : String → Bool} {score : String → ℚ} {kept : List String}
    (several : ¬ kept.length ≤ 1) (few : (kept.filter able).length ≤ 1) :
    name ∈ kept.filter able ↔ Chosen able score 5 kept name := by
  have bound : numBetter able score kept name < 5 := by
    rw [numBetter_eq_countP_filter]
    exact List.countP_le_length.trans_lt (few.trans_lt (by decide))
  rw [chosen_iff_best (not_le.mp several), Best, List.mem_filter, and_iff_left bound]

theorem taken_single_iff {strategy : Strategy} {kept : List String} (few : kept.length ≤ 1) :
    Taken corr sqrt selector rows strategy kept name ↔ name ∈ kept := by
  rw [Taken, Chosen, if_pos few, ite_self]

/-- **What is selected is the choice of what the pruning leaves.** -/
theorem exists_select_eq (sqrt : ℚ → ℚ) (selector : FactorSelector)
    (distinct : DistinctCoefficients corr factors) (strategy : Strategy) :
    ∃ chosen, selector.select corr sqrt factors strategy.text = .ok chosen ∧
      ∀ name, name ∈ chosen ↔ Taken corr sqrt selector factors.rows strategy
        (selector.survivors corr factors) name := by
  simp only [FactorSelector.select, icThreshold_eq, irThreshold_eq, filter_mem_filter]
  rw [← FactorSelector.passing, ← FactorSelector.survivors]
  by_cases empty : factors.names = [] ∨ factors.rows = []
  · refine ⟨[], if_pos empty, fun name => ?_⟩
    rw [survivors_eq, passing_eq_nil empty]
    exact (taken_single_iff (show ([] : List String).length ≤ 1 from Nat.zero_le 1)).symm
  by_cases few : (selector.passing corr factors).length ≤ 1
  · refine ⟨selector.passing corr factors, by rw [if_neg empty, if_pos few], fun name => ?_⟩
    rw [survivors_eq_passing few]
    exact (taken_single_iff few).symm
  rw [if_neg empty, if_neg few]
  by_cases single : (selector.survivors corr factors).length ≤ 1
  · exact ⟨_, if_pos single, fun name => (taken_single_iff single).symm⟩
  rw [if_neg single]
  have inside (a : String) (kept : a ∈ selector.survivors corr factors) :=
    mem_passing_of_mem_survivors kept
  cases strategy with
  | icIr =>
      rw [if_pos (show Strategy.icIr.text = "ic_ir" from rfl)]
      by_cases last : ((selector.survivors corr factors).filter
          (selector.hasRatio corr sqrt factors.rows)).length ≤ 1
      · exact ⟨_, if_pos last, fun name => mem_filter_iff_chosen single last⟩
      · exact ⟨_, if_neg last, fun name =>
          mem_bestK_filter_iff sqrt _ name distinct inside survivors_nodup single⟩
  | corrIc =>
      have all : (selector.survivors corr factors).filter (selector.passes corr factors.rows) =
          selector.survivors corr factors :=
        List.filter_eq_self.mpr fun a kept => passes_of_mem_passing (inside a kept)
      refine ⟨_, rfl, fun name => ?_⟩
      rw [all]
      rfl
  | bestOnly =>
      have every : (selector.survivors corr factors).filter (fun _ => true) =
          selector.survivors corr factors := List.filter_eq_self.mpr fun _ _ => rfl
      have best (name : String) :=
        mem_bestK_filter_iff sqrt (fun _ => true) name distinct inside survivors_nodup single
      rw [every] at best
      exact ⟨_, rfl, best⟩

/-! ## The correlation of two factors -/

theorem conflicts_symmetric (selector : FactorSelector) (rows : List FactorRow)
    (symmetric : Correlation.Symmetric corr) (a b : String) :
    selector.conflicts corr rows a b = selector.conflicts corr rows b a := by
  refine correlated_symmetric (fun a b => ?_) a b
  rw [corrMatrix, ← completePairs_swap, symmetric, corrMatrix]

theorem conflicts_irreflexive (a : String) : selector.conflicts corr rows a a = false := by
  simp [FactorSelector.conflicts, correlated]

end Selection

/-! ## The preferred factor -/

section Preference

variable (corr : List (ℚ × ℚ) → Option ℚ) (sqrt : ℚ → ℚ) (selector : FactorSelector)
  (factors : FactorTable) (strategy : Strategy)

/-- Two factors that pass the IC threshold are correlated with each other and with no other one,
and the first has the lower IC. -/
structure Rivals (worse better : String) : Prop where
  worsePasses : worse ∈ selector.passing corr factors
  betterPasses : better ∈ selector.passing corr factors
  correlated : selector.conflicts corr factors.rows better worse = true
  alone : ∀ c ∈ factors.names, c ≠ worse → c ≠ better →
    selector.conflicts corr factors.rows c worse = false ∧
      selector.conflicts corr factors.rows c better = false
  lower : |coefficient corr factors.rows worse| < |coefficient corr factors.rows better|

/-- Of two such factors `select` removes the worse one, and it selects the same factors for every
order of the columns. -/
structure PrefersBetter : Prop where
  removes : ∀ worse better, Rivals corr selector factors worse better →
    worse ∉ selector.survivors corr factors ∧ better ∈ selector.survivors corr factors ∧
      ∀ chosen, selector.select corr sqrt factors strategy.text = .ok chosen → worse ∉ chosen
  ignoresOrder : ∀ other : FactorTable, other.rows = factors.rows →
    other.names.Perm factors.names →
      ∃ chosen others, selector.select corr sqrt factors strategy.text = .ok chosen ∧
        selector.select corr sqrt other strategy.text = .ok others ∧
          ∀ name, name ∈ others ↔ name ∈ chosen

/-- No two factors that pass are correlated, or the strategy ranks them by their ICs and the ranking
is steady. -/
def OrderFree : Prop :=
  (∀ a ∈ selector.passing corr factors, ∀ b ∈ selector.passing corr factors,
    selector.conflicts corr factors.rows a b = false) ∨
  (strategy ≠ .corrIc ∧
    Steady (selector.conflicts corr factors.rows)
      (strategy.eligible corr sqrt selector factors.rows) (coefficient corr factors.rows) 5
      (selector.passing corr factors))

/-- The better of two such factors comes first, and the order does not matter otherwise. -/
structure WellOrdered : Prop where
  betterFirst : ∀ worse better, Rivals corr selector factors worse better →
    [better, worse].Sublist factors.names
  orderFree : OrderFree corr sqrt selector factors strategy

end Preference

section Characterisation

variable {corr : List (ℚ × ℚ) → Option ℚ} {sqrt : ℚ → ℚ} {selector : FactorSelector}
  {factors : FactorTable} {strategy : Strategy} {worse better : String}

/-- What is taken is what is left after the pruning, or a part of it. -/
theorem mem_of_taken {rows : List FactorRow} {kept : List String} {name : String}
    (taken : Taken corr sqrt selector rows strategy kept name) : name ∈ kept := by
  rw [Taken] at taken
  split at taken
  · exact taken
  · exact mem_of_chosen taken

/-- The order of the factors that pass is free exactly under the condition. -/
theorem taken_perm_iff (sqrt : ℚ → ℚ) (selector : FactorSelector) (factors : FactorTable)
    (strategy : Strategy) (symmetric : Correlation.Symmetric corr) :
    (∀ ys : List String, ys.Perm (selector.passing corr factors) → ∀ name,
      Taken corr sqrt selector factors.rows strategy
          (greedy (selector.conflicts corr factors.rows) ys) name ↔
        Taken corr sqrt selector factors.rows strategy
          (greedy (selector.conflicts corr factors.rows) (selector.passing corr factors)) name) ↔
      OrderFree corr sqrt selector factors strategy := by
  have symm (a b : String) := conflicts_symmetric selector factors.rows symmetric a b
  by_cases pruneOnly : strategy = .corrIc
  · simp only [Taken, if_pos pruneOnly]
    rw [greedy_perm_iff symm conflicts_irreflexive, OrderFree]
    exact (or_iff_left fun both => both.1 pruneOnly).symm
  · simp only [Taken, if_neg pruneOnly]
    rw [OrderFree, and_iff_right pruneOnly]
    exact ignoresOrder_iff passing_nodup symm conflicts_irreflexive

theorem Rivals.differ (rivals : Rivals corr selector factors worse better) : better ≠ worse := by
  rintro rfl
  exact lt_irrefl _ rivals.lower

/-- The better one survives exactly if it comes first. -/
theorem survives_iff (symmetric : Correlation.Symmetric corr)
    (rivals : Rivals corr selector factors worse better) :
    better ∈ selector.survivors corr factors ↔ [better, worse].Sublist factors.names := by
  have symm (a b : String) := conflicts_symmetric selector factors.rows symmetric a b
  rw [survivors_eq, mem_greedy_iff_before passing_nodup symm rivals.differ rivals.betterPasses
    rivals.worsePasses rivals.correlated]
  · constructor
    · intro before
      exact before.trans List.filter_sublist
    · intro before
      have filtered := before.filter (selector.passes corr factors.rows)
      rwa [List.filter_eq_self.mpr] at filtered
      intro name member
      rcases List.mem_pair.mp member with rfl | rfl
      · exact passes_of_mem_passing rivals.betterPasses
      · exact passes_of_mem_passing rivals.worsePasses
  · intro c member notBetter notWorse
    exact (rivals.alone c (List.mem_filter.mp member).1 notWorse notBetter).symm

/-- If the better one survives, the worse one does not. -/
theorem not_survives (symmetric : Correlation.Symmetric corr)
    (rivals : Rivals corr selector factors worse better)
    (kept : better ∈ selector.survivors corr factors) :
    worse ∉ selector.survivors corr factors := by
  rw [survivors_eq] at kept ⊢
  exact not_mem_greedy (conflicts_symmetric _ _ symmetric) rivals.differ rivals.correlated kept

/-- The table with the columns in another order. -/
def FactorTable.reorder (factors : FactorTable) (names : List String)
    (perm : names.Perm factors.names) : FactorTable where
  names := names
  distinct := perm.nodup_iff.mpr factors.distinct
  rows := factors.rows

/-- The order of the factors that pass follows the columns, and it can be any. -/
theorem forall_reorder_iff {p : List String → Prop} :
    (∀ other : FactorTable, other.rows = factors.rows → other.names.Perm factors.names →
        p (selector.passing corr other)) ↔
      ∀ ys : List String, ys.Perm (selector.passing corr factors) → p ys := by
  constructor
  · intro every ys perm
    have whole : (ys ++ factors.names.filter fun name => !selector.passes corr factors.rows name)
        |>.Perm factors.names :=
      (perm.append_right _).trans
        (List.filter_append_perm (selector.passes corr factors.rows) factors.names)
    have passing : selector.passing corr (factors.reorder _ whole) = ys := by
      rw [FactorSelector.passing, FactorTable.reorder, List.filter_append, List.filter_filter,
        List.filter_eq_self.mpr fun name member =>
          passes_of_mem_passing (perm.mem_iff.mp member)]
      simp
    rw [← passing]
    exact every (factors.reorder _ whole) rfl whole
  · rintro every ⟨names, apart, rows⟩ rfl perm
    exact every _ (perm.filter _)

/-- The same factors are selected for another order exactly if the same are taken. -/
theorem select_same_iff (distinct : DistinctCoefficients corr factors) {other : FactorTable}
    (rows : other.rows = factors.rows) (perm : other.names.Perm factors.names) :
    (∃ chosen others, selector.select corr sqrt factors strategy.text = .ok chosen ∧
      selector.select corr sqrt other strategy.text = .ok others ∧
        ∀ name, name ∈ others ↔ name ∈ chosen) ↔
      ∀ name, Taken corr sqrt selector factors.rows strategy
          (greedy (selector.conflicts corr factors.rows) (selector.passing corr other)) name ↔
        Taken corr sqrt selector factors.rows strategy
          (greedy (selector.conflicts corr factors.rows) (selector.passing corr factors)) name := by
  have apart : DistinctCoefficients corr other := by
    intro a first b second
    rw [rows]
    exact distinct a (perm.mem_iff.mp first) b (perm.mem_iff.mp second)
  obtain ⟨chosen, own, taken⟩ := exists_select_eq sqrt selector distinct strategy
  obtain ⟨others, reordered, retaken⟩ := exists_select_eq sqrt selector apart strategy
  rw [survivors_eq] at taken retaken
  rw [rows] at retaken
  constructor
  · rintro ⟨chosen, others, first, second, same⟩ name
    cases own.symm.trans first
    cases reordered.symm.trans second
    rw [← retaken, ← taken]
    exact same name
  · intro same
    refine ⟨chosen, others, own, reordered, fun name => ?_⟩
    rw [retaken, taken]
    exact same name

/-- **The better of two correlated factors is preferred, and the order of the columns does not
matter, exactly for a well ordered table.** -/
theorem prefersBetter_iff (corr : List (ℚ × ℚ) → Option ℚ) (sqrt : ℚ → ℚ)
    (selector : FactorSelector) (factors : FactorTable) (strategy : Strategy)
    (symmetric : Correlation.Symmetric corr) (distinct : DistinctCoefficients corr factors) :
    PrefersBetter corr sqrt selector factors strategy ↔
      WellOrdered corr sqrt selector factors strategy := by
  have free := taken_perm_iff sqrt selector factors strategy symmetric
  rw [← forall_reorder_iff (p := fun ys => ∀ name, Taken corr sqrt selector factors.rows strategy
    (greedy (selector.conflicts corr factors.rows) ys) name ↔ _)] at free
  constructor
  · rintro ⟨removes, ignores⟩
    refine ⟨fun worse better rivals => ?_, free.mp fun other rows perm => ?_⟩
    · exact (survives_iff symmetric rivals).mp (removes worse better rivals).2.1
    · exact (select_same_iff distinct rows perm).mp (ignores other rows perm)
  · rintro ⟨betterFirst, orderFree⟩
    refine ⟨fun worse better rivals => ?_, fun other rows perm => ?_⟩
    · have kept := (survives_iff symmetric rivals).mpr (betterFirst worse better rivals)
      have out := not_survives symmetric rivals kept
      refine ⟨out, kept, fun chosen selected member => out ?_⟩
      obtain ⟨others, own, taken⟩ := exists_select_eq sqrt selector distinct strategy
      cases own.symm.trans selected
      exact mem_of_taken ((taken worse).mp member)
    · exact (select_same_iff distinct rows perm).mpr (free.mpr orderFree other rows perm)

/-! ## A table whose worse factor comes first -/

/-- A row of two factors, the second of which is the label. -/
def tiltRow (momentum value : ℚ) : FactorRow where
  values name := if name = "momentum" then some momentum else some value
  label := some value

/-- A factor that follows the labels less closely than the one behind it. -/
def tiltedTable : FactorTable where
  names := ["momentum", "value"]
  distinct := by decide
  rows := [tiltRow 31 1, tiltRow 17 1, tiltRow (-17) (-1), tiltRow (-31) (-1)]

theorem coefficient_momentum : informationCoefficient (Correlation.pearson Rat.sqrt)
    tiltedTable.rows "momentum" = some (24 / 25) := by decide +kernel

theorem coefficient_value : informationCoefficient (Correlation.pearson Rat.sqrt)
    tiltedTable.rows "value" = some 1 := by decide +kernel

theorem tilted_distinct : DistinctCoefficients (Correlation.pearson Rat.sqrt) tiltedTable := by
  intro a first b second x y left right same
  rcases List.mem_pair.mp first with rfl | rfl
  · rcases List.mem_pair.mp second with rfl | rfl
    · rfl
    · rw [coefficient_momentum] at left
      rw [coefficient_value] at right
      cases left
      cases right
      norm_num at same
  · rcases List.mem_pair.mp second with rfl | rfl
    · rw [coefficient_value] at left
      rw [coefficient_momentum] at right
      cases left
      cases right
      norm_num at same
    · rfl

theorem tilted_rivals : Rivals (Correlation.pearson Rat.sqrt) FactorSelector.default tiltedTable
    "momentum" "value" where
  worsePasses := by decide +kernel
  betterPasses := by decide +kernel
  correlated := by decide +kernel
  alone c member notWorse notBetter := by
    rcases List.mem_pair.mp member with rfl | rfl
    · exact absurd rfl notWorse
    · exact absurd rfl notBetter
  lower := by
    rw [coefficient, coefficient, coefficient_momentum, coefficient_value]
    norm_num

/-- The worse factor is kept and the better one dropped, and the other way round if the columns are
exchanged. -/
theorem tilted_not_preferred :
    DistinctCoefficients (Correlation.pearson Rat.sqrt) tiltedTable ∧
      ¬ PrefersBetter (Correlation.pearson Rat.sqrt) Rat.sqrt FactorSelector.default tiltedTable
        .icIr := by
  refine ⟨tilted_distinct, fun prefers => ?_⟩
  have removed := (prefers.removes "momentum" "value" tilted_rivals).1
  have kept : "momentum" ∈
      FactorSelector.default.survivors (Correlation.pearson Rat.sqrt) tiltedTable := by
    decide +kernel
  exact removed kept

theorem prefersBetter_tilted :
    PrefersBetter (Correlation.pearson Rat.sqrt) Rat.sqrt FactorSelector.default tiltedTable
        .bestOnly ↔
      WellOrdered (Correlation.pearson Rat.sqrt) Rat.sqrt FactorSelector.default tiltedTable
        .bestOnly :=
  prefersBetter_iff (Correlation.pearson Rat.sqrt) Rat.sqrt FactorSelector.default tiltedTable
    .bestOnly (Correlation.pearson_symmetric Rat.sqrt) tilted_distinct

end Characterisation

end TradeOS.Alpha
