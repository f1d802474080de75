import TradeOS.Data.Dictionary
import TradeOS.Numeric.Decimal
import TradeOS.Research.Labels

/-!
# Direction labels for several horizons and thresholds

`build_direction_labels` computes a label for every pair of a horizon and a threshold
and stores it under the name that its specification gives. The name has the horizon
and not the threshold, so the labels of one horizon share a name, and the one of the
last threshold is what is left (`mem_buildDirectionLabels_iff`).

Every requested label is there exactly if there is one threshold at most, or no
horizon (`directionLabels_complete_iff`).
-/

set_option autoImplicit false

namespace TradeOS.Research

open Dictionary LastWrite Numeric

/-! ## Specifications and results -/

/-- `LabelSpec`. The identifier, the version and the time of creation are left out. -/
structure LabelSpec where
  labelName : String
  labelType : LabelType := .regression
  horizon : ℕ := 1
  horizonUnit : String := "D"
  description : String := ""
  parameters : List (String × ℚ) := []

/-- `LabelResult`: the specification and the table. -/
structure LabelResult where
  spec : LabelSpec
  series : List LabelRow

/-- The name of a direction label. -/
def directionName (horizon : ℕ) : String := "direction_" ++ toString horizon ++ "d"

/-- `build_spec`. -/
def DirectionLabelBuilder.buildSpec (self : DirectionLabelBuilder) : LabelSpec where
  labelName := directionName self.horizon
  labelType := .classification
  horizon := self.horizon
  description := "Direction label over " ++ toString self.horizon ++ " days, threshold=" ++
    formatDefault self.threshold
  parameters := [("threshold", self.threshold)]

/-- What `compute` returns. -/
def DirectionLabelBuilder.labelResult (self : DirectionLabelBuilder) (data : List PriceRow) :
    LabelResult :=
  ⟨self.buildSpec, self.compute data⟩

/-- The assignments of one turn of the outer loop. -/
def horizonEntries (data : List PriceRow) (thresholds : List ℚ) (h : ℕ) :
    List (String × LabelResult) :=
  thresholds.map fun thr =>
    let builder : DirectionLabelBuilder := ⟨h, thr⟩
    (builder.buildSpec.labelName, builder.labelResult data)

/-- `build_direction_labels`. -/
def buildDirectionLabels (data : List PriceRow) (horizons : List ℕ := [1, 5])
    (thresholds : List ℚ := [0, 1 / 100]) : List (String × LabelResult) :=
  update [] (horizons.flatMap (horizonEntries data thresholds))

/-! ## Names -/

/-- The name tells the horizon. -/
theorem directionName_injective : Function.Injective directionName := by
  intro h h' same
  have lists := congrArg String.toList same
  simp only [directionName, String.toList_append] at lists
  have digits : (toString h).toList = (toString h').toList :=
    List.append_cancel_left (List.append_cancel_right lists)
  rw [Nat.toString_eq_repr, Nat.toString_eq_repr, Nat.toList_repr, Nat.toList_repr] at digits
  have read := congrArg (fun cs => Nat.ofDigitChars 10 cs 0) digits
  simpa using read

/-! ## What is left of the assignments -/

section Build

variable {data : List PriceRow} {horizons : List ℕ} {thresholds : List ℚ}

/-- Of one turn, the last threshold is left, under the name of the horizon. -/
theorem assigned_horizonEntries (h : ℕ) (name : String) :
    assigned (horizonEntries data thresholds h) name =
      if directionName h = name then
        thresholds.getLast?.map fun thr => (DirectionLabelBuilder.mk h thr).labelResult data
      else none := by
  induction thresholds using List.reverseRecOn with
  | nil => simp [horizonEntries, assigned]
  | append_singleton thresholds thr ih =>
      rw [horizonEntries, List.map_append, List.map_singleton, assigned_concat,
        List.getLast?_concat, Option.map_some]
      change (if directionName h = name then _ else assigned (horizonEntries data thresholds h) name)
        = _
      rw [ih]
      split_ifs
      · rfl
      · rfl

theorem assigned_flatMap_iff (name : String) (result : LabelResult) :
    assigned (horizons.flatMap (horizonEntries data thresholds)) name = some result ↔
      ∃ h ∈ horizons, directionName h = name ∧ ∃ thr, thresholds.getLast? = some thr ∧
        result = (DirectionLabelBuilder.mk h thr).labelResult data := by
  induction horizons using List.reverseRecOn with
  | nil => exact iff_of_false nofun (by simp)
  | append_singleton horizons h ih =>
      have split : assigned ((horizons ++ [h]).flatMap (horizonEntries data thresholds)) name =
          (assigned (horizonEntries data thresholds h) name).or
            (assigned (horizons.flatMap (horizonEntries data thresholds)) name) := by
        rw [List.flatMap_append, List.flatMap_singleton]
        exact lastWrite_append _ _
      rw [split, assigned_horizonEntries]
      cases final : thresholds.getLast? with
      | none =>
          have silent : ¬ ∃ h ∈ horizons, directionName h = name ∧
              ∃ thr, thresholds.getLast? = some thr ∧
                result = (DirectionLabelBuilder.mk h thr).labelResult data := by
            simp [final]
          rw [Option.map_none, ite_self, Option.none_or]
          exact iff_of_false (fun found => silent (ih.mp found)) (by simp)
      | some thr =>
          rw [Option.map_some]
          by_cases own : directionName h = name
          · rw [if_pos own, Option.some_or, Option.some.injEq]
            constructor
            · intro same
              exact ⟨h, List.mem_append_right _ List.mem_cons_self, own, thr, rfl, same.symm⟩
            · rintro ⟨h', _, named, thr', sameThr, same⟩
              cases directionName_injective (named.trans own.symm)
              cases sameThr
              exact same.symm
          · rw [if_neg own, Option.none_or, ih, final]
            constructor
            · rintro ⟨h', member, rest⟩
              exact ⟨h', List.mem_append_left _ member, rest⟩
            · rintro ⟨h', member, named, rest⟩
              rcases List.mem_append.mp member with earlier | last
              · exact ⟨h', earlier, named, rest⟩
              · cases List.mem_singleton.mp last
                exact absurd named own

/-- **What is returned**: for every horizon the label of the last threshold. -/
theorem mem_buildDirectionLabels_iff (name : String) (result : LabelResult) :
    (name, result) ∈ buildDirectionLabels data horizons thresholds ↔
      ∃ h ∈ horizons, directionName h = name ∧ ∃ thr, thresholds.getLast? = some thr ∧
        result = (DirectionLabelBuilder.mk h thr).labelResult data := by
  rw [buildDirectionLabels, mem_update_iff, assigned_flatMap_iff]

/-- There is one result for every horizon, with a threshold at least. -/
theorem length_buildDirectionLabels (distinct : horizons.Nodup) (some : thresholds ≠ []) :
    (buildDirectionLabels data horizons thresholds).length = horizons.length := by
  have names : ((buildDirectionLabels data horizons thresholds).map Prod.fst).Perm
      (horizons.map directionName) := by
    refine (List.perm_ext_iff_of_nodup (nodup_update _)
      (distinct.map directionName_injective)).mpr ?_
    intro name
    rw [List.mem_map, List.mem_map]
    constructor
    · rintro ⟨⟨_, result⟩, listed, rfl⟩
      obtain ⟨h, member, named, _⟩ := (mem_buildDirectionLabels_iff _ _).mp listed
      exact ⟨h, member, named⟩
    · rintro ⟨h, member, named⟩
      have kept : (name, (DirectionLabelBuilder.mk h (thresholds.getLast some)).labelResult data) ∈
          buildDirectionLabels data horizons thresholds :=
        (mem_buildDirectionLabels_iff _ _).mpr ⟨h, member, named, thresholds.getLast some,
          List.getLast?_eq_getLast_of_ne_nil some, rfl⟩
      exact ⟨_, kept, rfl⟩
  simpa using names.length_eq

theorem buildDirectionLabels_nil : buildDirectionLabels data horizons [] = [] := by
  rw [List.eq_nil_iff_forall_not_mem]
  rintro ⟨name, result⟩ listed
  obtain ⟨_, _, _, _, last, _⟩ := (mem_buildDirectionLabels_iff _ _).mp listed
  cases last

end Build

/-! ## All requested labels -/

/-- For every pair of a horizon and a threshold its label is returned, and there are
as many labels as pairs. -/
structure AllReturned (data : List PriceRow) (horizons : List ℕ) (thresholds : List ℚ) : Prop where
  each : ∀ h ∈ horizons, ∀ thr ∈ thresholds, ∃ name,
    (name, (DirectionLabelBuilder.mk h thr).labelResult data) ∈
      buildDirectionLabels data horizons thresholds
  size : (buildDirectionLabels data horizons thresholds).length =
    horizons.length * thresholds.length

/-- A result tells the threshold of its builder. -/
theorem labelResult_threshold {data : List PriceRow} {h h' : ℕ} {thr thr' : ℚ}
    (same : (DirectionLabelBuilder.mk h thr).labelResult data =
      (DirectionLabelBuilder.mk h' thr').labelResult data) : thr = thr' := by
  have parameters := congrArg (fun result => result.spec.parameters) same
  simpa [DirectionLabelBuilder.labelResult, DirectionLabelBuilder.buildSpec] using parameters

/-- Where every label is returned, every threshold is the last one. -/
theorem AllReturned.getLast? {data : List PriceRow} {horizons : List ℕ} {thresholds : List ℚ}
    (all : AllReturned data horizons thresholds) (nonempty : horizons ≠ []) {thr : ℚ}
    (listed : thr ∈ thresholds) : thresholds.getLast? = some thr := by
  obtain ⟨h, member⟩ := List.exists_mem_of_ne_nil horizons nonempty
  obtain ⟨name, found⟩ := all.each h member thr listed
  obtain ⟨_, _, _, thr', final, same⟩ := (mem_buildDirectionLabels_iff _ _).mp found
  rw [labelResult_threshold same]
  exact final

theorem allReturned_singleton (data : List PriceRow) {horizons : List ℕ}
    (distinct : horizons.Nodup) (thr : ℚ) : AllReturned data horizons [thr] := by
  refine ⟨?_, ?_⟩
  · intro h member thr' listed
    cases List.mem_singleton.mp listed
    exact ⟨directionName h, (mem_buildDirectionLabels_iff _ _).mpr
      ⟨h, member, rfl, thr, rfl, rfl⟩⟩
  · rw [length_buildDirectionLabels distinct (List.cons_ne_nil _ _), List.length_singleton,
      mul_one]

/-- **When every requested label is returned.** For every table and all lists of
distinct horizons and thresholds: exactly if there is one threshold at most, or no
horizon. -/
theorem directionLabels_complete_iff (data : List PriceRow) (horizons : List ℕ)
    (thresholds : List ℚ) (distinctHorizons : horizons.Nodup)
    (distinctThresholds : thresholds.Nodup) :
    AllReturned data horizons thresholds ↔ thresholds.length ≤ 1 ∨ horizons = [] := by
  constructor
  · intro all
    by_contra several
    obtain ⟨more, some⟩ := not_or.mp several
    cases thresholds with
    | nil => exact more (Nat.zero_le 1)
    | cons first rest =>
        cases rest with
        | nil => exact more le_rfl
        | cons second rest =>
            have both := (all.getLast? some List.mem_cons_self).symm.trans
              (all.getLast? some (List.mem_cons_of_mem _ List.mem_cons_self))
            cases both
            exact (List.nodup_cons.mp distinctThresholds).1 List.mem_cons_self
  · rintro (few | none)
    · cases thresholds with
      | nil =>
          refine ⟨fun _ _ _ absurdity => absurd absurdity List.not_mem_nil, ?_⟩
          rw [buildDirectionLabels_nil]
          rfl
      | cons thr rest =>
          have single : rest = [] :=
            List.eq_nil_of_length_eq_zero (Nat.le_zero.mp (Nat.le_of_succ_le_succ few))
          cases single
          exact allReturned_singleton data distinctHorizons thr
    · cases none
      refine ⟨fun _ absurdity => absurd absurdity List.not_mem_nil, ?_⟩
      simp [buildDirectionLabels, update]

/-- Two horizons with one threshold. -/
theorem directionLabels_complete_sample : AllReturned doubled [1, 5] [0] :=
  (directionLabels_complete_iff doubled [1, 5] [0] (by decide) (by decide)).mpr (.inl le_rfl)

/-- The default lists ask for four labels, and two are returned. -/
theorem directionLabels_lost :
    ([1, 5] : List ℕ).Nodup ∧ ([0, 1 / 100] : List ℚ).Nodup ∧
      (buildDirectionLabels doubled).map Prod.fst = ["direction_1d", "direction_5d"] ∧
      ¬ AllReturned doubled [1, 5] [0, 1 / 100] := by
  refine ⟨by decide, by norm_num, by with_unfolding_all decide, ?_⟩
  intro all
  have size := all.size
  rw [length_buildDirectionLabels (by decide) (by simp)] at size
  cases size

end TradeOS.Research
