import TradeOS.Numeric.Rounding
import Mathlib.Data.List.Perm.Basic

/-!
# The score of the fundamentals

Ratios are scored piecewise linearly between twenty and a hundred, and a missing ratio has the
neutral score fifty. The scores of a dimension are averaged, and the dimensions are weighted to
an overall score, which has a rating.

The average of the quality ratios leaves out the scores that are fifty, to leave out what is
missing. But a present ratio of `0.0825` has that score too. So the overall score is monotone in
every ratio (`overall_mono_of_other`) except for a quality ratio that reaches or leaves this
value, and there `overall_mono_iff` says exactly when: the new score must not be below the
average it joins, and the old one not above the average it leaves.
-/

set_option autoImplicit false

namespace TradeOS.Fundamental

open Numeric

/-! ## The ratios -/

structure ValuationRatios where
  pe : Option ℚ
  pb : Option ℚ

structure QualityRatios where
  roe : Option ℚ
  roa : Option ℚ
  netMargin : Option ℚ

structure GrowthMetrics where
  revenueGrowthYoy : Option ℚ
  netIncomeGrowthYoy : Option ℚ
  epsGrowthYoy : Option ℚ
  dividendGrowthYoy : Option ℚ

structure LeverageMetrics where
  debtToEquity : Option ℚ

inductive FundamentalRating where
  | a
  | b
  | c
  | d
  deriving DecidableEq, Repr

structure ScoreBreakdown where
  valuationScore : ℚ
  qualityScore : ℚ
  growthScore : ℚ
  leverageScore : ℚ
  overallScore : ℚ

structure QualityValueGrowth where
  qualityScore : ℚ
  valueScore : ℚ
  growthScore : ℚ
  hasGrowthData : Bool

/-! ## The scores of single ratios -/

/-- The score of a ratio that should be small. -/
def scoreFalling (excellentMax fairMax poorMin value : ℚ) : ℚ :=
  if value ≤ excellentMax then 100
  else if value ≤ fairMax then 60 + (fairMax - value) / (fairMax - excellentMax) * 40
  else if value ≤ poorMin then 20 + (poorMin - value) / (poorMin - fairMax) * 40
  else 20

/-- `_score_pe`. -/
def scorePe (pe : Option ℚ) : ℚ :=
  match pe with
  | none => 50
  | some pe => if pe ≤ 0 then 50 else scoreFalling 15 25 40 pe

/-- `_score_pb`. -/
def scorePb (pb : Option ℚ) : ℚ :=
  match pb with
  | none => 50
  | some pb => if pb ≤ 0 then 50 else scoreFalling 2 4 8 pb

/-- `_score_roe`. -/
def scoreRoe (roe : Option ℚ) : ℚ :=
  match roe with
  | none => 50
  | some roe =>
      if 1 / 5 ≤ roe then 100
      else if 1 / 10 ≤ roe then 60 + (roe - 1 / 10) / (1 / 5 - 1 / 10) * 40
      else if 3 / 100 ≤ roe then 20 + (roe - 3 / 100) / (1 / 10 - 3 / 100) * 40
      else 20

/-- `_score_de`. -/
def scoreDe (de : Option ℚ) : ℚ :=
  match de with
  | none => 50
  | some de => scoreFalling (1 / 2) (3 / 2) 3 de

/-! ## The scores of the dimensions -/

/-- The mean of scores, or a default where there are none. -/
def meanOr (default : ℚ) (scores : List ℚ) : ℚ :=
  if scores.isEmpty then default else scores.sum / scores.length

/-- The score of the valuation. -/
def valuationScore (v : ValuationRatios) : ℚ :=
  if v.pe.isSome ∧ v.pb.isSome then (scorePe v.pe + scorePb v.pb) / 2
  else if v.pe.isSome then scorePe v.pe
  else if v.pb.isSome then scorePb v.pb
  else 40

/-- The mean of the scores that are not the neutral one. -/
def meanOfMarked (scores : List ℚ) : ℚ := meanOr 40 (scores.filter fun score => score ≠ 50)

/-- The score of the quality. -/
def qualityScore (q : QualityRatios) : ℚ :=
  let roeScore := scoreRoe q.roe
  let roaScore := if q.roa.isSome then scoreRoe q.roa else 50
  let netMarginScore := if q.netMargin.isSome then scoreRoe q.netMargin else 50
  meanOfMarked [roeScore, roaScore, netMarginScore]

/-- The score of the growth, with the data that there is. -/
def growthScore (g : GrowthMetrics) : ℚ :=
  let present := [g.revenueGrowthYoy, g.netIncomeGrowthYoy, g.epsGrowthYoy].filter Option.isSome
  if present.isEmpty then 30 else meanOr 40 (present.map scoreRoe)

/-- The overall score of the four dimensions, before it is rounded. -/
def overallScore (v : ValuationRatios) (q : QualityRatios) (g : GrowthMetrics)
    (l : LeverageMetrics) : ℚ :=
  valuationScore v * (25 / 100) + qualityScore q * (35 / 100) + growthScore g * (20 / 100) +
    scoreDe l.debtToEquity * (20 / 100)

/-- The rating of an overall score. -/
def ratingOf (overall : ℚ) : FundamentalRating :=
  if 75 ≤ overall then .a
  else if 55 ≤ overall then .b
  else if 35 ≤ overall then .c
  else .d

/-- `score_fundamentals`. -/
def scoreFundamentals (v : ValuationRatios) (q : QualityRatios) (g : GrowthMetrics)
    (l : LeverageMetrics) : ScoreBreakdown × FundamentalRating × QualityValueGrowth :=
  let overall := overallScore v q g l
  ({ valuationScore := roundTo 1 (valuationScore v)
     qualityScore := roundTo 1 (qualityScore q)
     growthScore := roundTo 1 (growthScore g)
     leverageScore := roundTo 1 (scoreDe l.debtToEquity)
     overallScore := roundTo 1 overall },
    ratingOf overall,
    { qualityScore := roundTo 1 (qualityScore q)
      valueScore := roundTo 1 (valuationScore v)
      growthScore := roundTo 1 (growthScore g)
      hasGrowthData := g.revenueGrowthYoy.isSome || g.netIncomeGrowthYoy.isSome ||
        g.epsGrowthYoy.isSome })

/-! ## Monotone scores -/

section Monotone

variable {low high x y : ℚ}

/-- The part of a range that lies above a value of it. -/
theorem partAbove_mem (range : low < high) (above : low ≤ x) (below : x ≤ high) :
    0 ≤ (high - x) / (high - low) ∧ (high - x) / (high - low) ≤ 1 := by
  have wide : 0 < high - low := sub_pos.mpr range
  exact ⟨div_nonneg (sub_nonneg.mpr below) wide.le,
    (div_le_one wide).mpr (sub_le_sub_left above high)⟩

theorem partAbove_anti (range : low < high) (le : x ≤ y) :
    (high - y) / (high - low) ≤ (high - x) / (high - low) :=
  div_le_div_of_nonneg_right (sub_le_sub_left le high) (sub_pos.mpr range).le

/-- A larger ratio that should be small has no larger score. The pieces meet, so it is enough to
compare the values in one piece and the bounds of different ones. -/
theorem scoreFalling_anti {excellentMax fairMax poorMin : ℚ} (first : excellentMax < fairMax)
    (second : fairMax < poorMin) (le : x ≤ y) :
    scoreFalling excellentMax fairMax poorMin y ≤ scoreFalling excellentMax fairMax poorMin x := by
  have upperX := @partAbove_mem _ _ x first
  have upperY := @partAbove_mem _ _ y first
  have lowerX := @partAbove_mem _ _ x second
  have lowerY := @partAbove_mem _ _ y second
  have upper := partAbove_anti first le
  have lower := partAbove_anti second le
  unfold scoreFalling
  generalize (fairMax - x) / (fairMax - excellentMax) = upperPartX at *
  generalize (fairMax - y) / (fairMax - excellentMax) = upperPartY at *
  generalize (poorMin - x) / (poorMin - fairMax) = lowerPartX at *
  generalize (poorMin - y) / (poorMin - fairMax) = lowerPartY at *
  split_ifs <;> grind

end Monotone

/-- A ratio that should be large is scored as its opposite, which should be small. -/
theorem scoreRoe_eq (x : ℚ) :
    scoreRoe (some x) = scoreFalling (-(1 / 5)) (-(1 / 10)) (-(3 / 100)) (-x) := by
  simp only [scoreRoe, scoreFalling, neg_le_neg_iff, neg_sub_neg]

theorem scoreRoe_mono {x y : ℚ} (le : x ≤ y) : scoreRoe (some x) ≤ scoreRoe (some y) := by
  rw [scoreRoe_eq, scoreRoe_eq]
  exact scoreFalling_anti (by norm_num) (by norm_num) (neg_le_neg le)

/-- The neutral score of a ratio that is present. -/
theorem scoreRoe_eq_fifty_iff (x : ℚ) : scoreRoe (some x) = 50 ↔ x = 33 / 400 := by
  simp only [scoreRoe]
  split_ifs <;> constructor <;> intro same <;> norm_num at * <;> linarith

theorem scorePe_anti {x y : ℚ} (pos : 0 < x) (le : x ≤ y) :
    scorePe (some y) ≤ scorePe (some x) := by
  simp only [scorePe, if_neg (not_le.mpr pos), if_neg (not_le.mpr (pos.trans_le le))]
  exact scoreFalling_anti (by norm_num) (by norm_num) le

theorem scorePb_anti {x y : ℚ} (pos : 0 < x) (le : x ≤ y) :
    scorePb (some y) ≤ scorePb (some x) := by
  simp only [scorePb, if_neg (not_le.mpr pos), if_neg (not_le.mpr (pos.trans_le le))]
  exact scoreFalling_anti (by norm_num) (by norm_num) le

theorem scoreDe_anti {x y : ℚ} (le : x ≤ y) : scoreDe (some y) ≤ scoreDe (some x) :=
  scoreFalling_anti (by norm_num) (by norm_num) le

/-! ## The mean of the marked scores -/

section Marked

variable {a b : ℚ} {others : List ℚ}

theorem meanOfMarked_perm {scores scores' : List ℚ} (perm : scores.Perm scores') :
    meanOfMarked scores = meanOfMarked scores' := by
  have kept := perm.filter fun score => score ≠ 50
  simp only [meanOfMarked, meanOr, List.isEmpty_iff_length_eq_zero, kept.length_eq, kept.sum_eq]

theorem meanOfMarked_neutral (others : List ℚ) :
    meanOfMarked (50 :: others) = meanOfMarked others := by
  simp [meanOfMarked]

/-- The number of the marked scores. -/
def marked (scores : List ℚ) : ℕ := (scores.filter fun score => score ≠ 50).length

/-- A marked score joins the mean of the others with their number. -/
theorem meanOfMarked_cons (differs : a ≠ 50) (others : List ℚ) :
    meanOfMarked (a :: others) =
      (a + marked others * meanOfMarked others) / (marked others + 1) := by
  have kept : (a :: others).filter (fun score => score ≠ 50) =
      a :: others.filter fun score => score ≠ 50 :=
    List.filter_cons_of_pos (by simpa using differs)
  have sum : (others.filter fun score => score ≠ 50).sum =
      marked others * meanOfMarked others := by
    unfold marked meanOfMarked meanOr
    cases others.filter fun score => score ≠ 50 with
    | nil => simp
    | cons score scores =>
        have count : ((score :: scores).length : ℚ) ≠ 0 := by
          rw [List.length_cons]
          exact_mod_cast Nat.succ_ne_zero scores.length
        rw [if_neg (by simp), mul_div_cancel₀ _ count]
  rw [meanOfMarked, kept, meanOr, if_neg (by simp), List.sum_cons, sum, List.length_cons,
    Nat.cast_add_one, marked]

/-- The mean does not fall exactly if no score is below the mean it joins, or above the mean it
leaves. -/
theorem meanOfMarked_le_iff (le : a ≤ b) :
    meanOfMarked (a :: others) ≤ meanOfMarked (b :: others) ↔
      (a = 50 → b = 50 ∨ meanOfMarked others ≤ b) ∧
        (b = 50 → a = 50 ∨ a ≤ meanOfMarked others) := by
  have count : (0 : ℚ) < marked others + 1 := Nat.cast_add_one_pos _
  by_cases old : a = 50 <;> by_cases new : b = 50
  · subst old new
    simp
  · subst old
    rw [meanOfMarked_neutral, meanOfMarked_cons new, le_div_iff₀ count]
    simp only [new, false_or, forall_const, false_imp_iff, and_true]
    constructor <;> intro bound <;> linarith
  · subst new
    rw [meanOfMarked_neutral, meanOfMarked_cons old, div_le_iff₀ count]
    simp only [old, false_or, forall_const, false_imp_iff, true_and]
    constructor <;> intro bound <;> linarith
  · rw [meanOfMarked_cons old, meanOfMarked_cons new]
    simp only [old, new, false_imp_iff, and_self, iff_true]
    exact div_le_div_of_nonneg_right (add_le_add_left le _) count.le

end Marked

/-! ## Monotone dimensions -/

/-- Scores that are nowhere smaller have no smaller mean. -/
theorem meanOr_mono (default : ℚ) {scores scores' : List ℚ}
    (le : List.Forall₂ (· ≤ ·) scores scores') :
    meanOr default scores ≤ meanOr default scores' := by
  have same := le.length_eq
  simp only [meanOr, List.isEmpty_iff_length_eq_zero, same]
  split
  · exact le_rfl
  · exact div_le_div_of_nonneg_right le.sum_le_sum (Nat.cast_nonneg _)

/-- A ratio is missing as before, or has no smaller score. -/
structure NoWorse (before after : Option ℚ) : Prop where
  present : before.isSome = after.isSome
  score : scoreRoe before ≤ scoreRoe after

theorem NoWorse.refl (ratio : Option ℚ) : NoWorse ratio ratio := ⟨rfl, le_rfl⟩

theorem noWorse_of_le {x y : ℚ} (le : x ≤ y) : NoWorse (some x) (some y) := ⟨rfl, scoreRoe_mono le⟩

theorem growthScore_mono {g g' : GrowthMetrics}
    (revenue : NoWorse g.revenueGrowthYoy g'.revenueGrowthYoy)
    (netIncome : NoWorse g.netIncomeGrowthYoy g'.netIncomeGrowthYoy)
    (eps : NoWorse g.epsGrowthYoy g'.epsGrowthYoy) : growthScore g ≤ growthScore g' := by
  have each : List.Forall₂ NoWorse [g.revenueGrowthYoy, g.netIncomeGrowthYoy, g.epsGrowthYoy]
      [g'.revenueGrowthYoy, g'.netIncomeGrowthYoy, g'.epsGrowthYoy] :=
    .cons revenue (.cons netIncome (.cons eps .nil))
  have kept := List.rel_filter (fun before after (better : NoWorse before after) =>
    Bool.eq_iff_iff.mp better.present) each
  simp only [growthScore, List.isEmpty_iff_length_eq_zero, kept.length_eq]
  split
  · exact le_rfl
  · refine meanOr_mono 40 ?_
    rw [List.forall₂_map_left_iff, List.forall₂_map_right_iff]
    exact kept.imp fun before after better => better.score

theorem qualityScore_eq (q : QualityRatios) :
    qualityScore q = meanOfMarked [scoreRoe q.roe, scoreRoe q.roa, scoreRoe q.netMargin] := by
  obtain ⟨roe, roa, netMargin⟩ := q
  cases roa <;> cases netMargin <;> rfl

/-! ## Better ratios -/

/-- The ratios of a company. -/
structure Ratios where
  valuation : ValuationRatios
  quality : QualityRatios
  growth : GrowthMetrics
  leverage : LeverageMetrics

inductive Ratio where
  | pe
  | pb
  | roe
  | roa
  | netMargin
  | revenueGrowthYoy
  | netIncomeGrowthYoy
  | epsGrowthYoy
  | dividendGrowthYoy
  | debtToEquity
  deriving DecidableEq, Repr

namespace Ratios

/-- A ratio, if it is present. -/
def get (ratios : Ratios) : Ratio → Option ℚ
  | .pe => ratios.valuation.pe
  | .pb => ratios.valuation.pb
  | .roe => ratios.quality.roe
  | .roa => ratios.quality.roa
  | .netMargin => ratios.quality.netMargin
  | .revenueGrowthYoy => ratios.growth.revenueGrowthYoy
  | .netIncomeGrowthYoy => ratios.growth.netIncomeGrowthYoy
  | .epsGrowthYoy => ratios.growth.epsGrowthYoy
  | .dividendGrowthYoy => ratios.growth.dividendGrowthYoy
  | .debtToEquity => ratios.leverage.debtToEquity

/-- The ratios with another value of one of them. -/
def set (ratios : Ratios) (ratio : Ratio) (value : ℚ) : Ratios :=
  match ratio with
  | .pe => { ratios with valuation.pe := some value }
  | .pb => { ratios with valuation.pb := some value }
  | .roe => { ratios with quality.roe := some value }
  | .roa => { ratios with quality.roa := some value }
  | .netMargin => { ratios with quality.netMargin := some value }
  | .revenueGrowthYoy => { ratios with growth.revenueGrowthYoy := some value }
  | .netIncomeGrowthYoy => { ratios with growth.netIncomeGrowthYoy := some value }
  | .epsGrowthYoy => { ratios with growth.epsGrowthYoy := some value }
  | .dividendGrowthYoy => { ratios with growth.dividendGrowthYoy := some value }
  | .debtToEquity => { ratios with leverage.debtToEquity := some value }

/-- The unrounded overall score. -/
def overall (ratios : Ratios) : ℚ :=
  overallScore ratios.valuation ratios.quality ratios.growth ratios.leverage

/-- The rating that is returned. -/
def rating (ratios : Ratios) : FundamentalRating :=
  (scoreFundamentals ratios.valuation ratios.quality ratios.growth ratios.leverage).2.1

/-- The scores of the other quality ratios, for a quality ratio. -/
def fellows (ratios : Ratios) : Ratio → Option (List ℚ)
  | .roe => some [scoreRoe ratios.quality.roa, scoreRoe ratios.quality.netMargin]
  | .roa => some [scoreRoe ratios.quality.roe, scoreRoe ratios.quality.netMargin]
  | .netMargin => some [scoreRoe ratios.quality.roe, scoreRoe ratios.quality.roa]
  | _ => none

end Ratios

/-- A value of a ratio is as good as an old one, or better. -/
def Improves : Ratio → ℚ → ℚ → Prop
  | .pe, old, new => 0 < new ∧ new ≤ old
  | .pb, old, new => 0 < new ∧ new ≤ old
  | .debtToEquity, old, new => new ≤ old
  | _, old, new => old ≤ new

/-- The ratings from the best to the worst. -/
def FundamentalRating.grade : FundamentalRating → ℕ
  | .a => 0
  | .b => 1
  | .c => 2
  | .d => 3

theorem grade_ratingOf_anti {s t : ℚ} (le : s ≤ t) :
    (ratingOf t).grade ≤ (ratingOf s).grade := by
  unfold ratingOf
  split_ifs <;> first | decide | (exfalso; linarith)

/-- A quality ratio that takes or leaves the value `0.0825`, whose score is the neutral one, does
so in step with its fellows: its new score is not below their mean, its old one not above it. -/
def InStep (ratios : Ratios) (ratio : Ratio) (old new : ℚ) : Prop :=
  ∀ fellows ∈ ratios.fellows ratio,
    (old = 33 / 400 → new = 33 / 400 ∨ meanOfMarked fellows ≤ scoreRoe (some new)) ∧
      (new = 33 / 400 → old = 33 / 400 ∨ scoreRoe (some old) ≤ meanOfMarked fellows)

section Improvement

variable {ratios : Ratios} {ratio : Ratio} {old new : ℚ}

theorem valuationScore_mono {v v' : ValuationRatios} (pe : v.pe.isSome = v'.pe.isSome)
    (pb : v.pb.isSome = v'.pb.isSome) (peScore : scorePe v.pe ≤ scorePe v'.pe)
    (pbScore : scorePb v.pb ≤ scorePb v'.pb) : valuationScore v ≤ valuationScore v' := by
  simp only [valuationScore, pe, pb]
  split_ifs <;> linarith

/-- With the other dimensions as they were, the overall score follows the quality. -/
theorem overallScore_le_iff (v : ValuationRatios) (q q' : QualityRatios) (g : GrowthMetrics)
    (l : LeverageMetrics) :
    overallScore v q g l ≤ overallScore v q' g l ↔ qualityScore q ≤ qualityScore q' := by
  unfold overallScore
  constructor <;> intro le <;> linarith

/-- With the quality as it was, the overall score follows the other three dimensions. -/
theorem overallScore_mono {v v' : ValuationRatios} {g g' : GrowthMetrics} {l l' : LeverageMetrics}
    (q : QualityRatios) (valuation : valuationScore v ≤ valuationScore v')
    (growth : growthScore g ≤ growthScore g')
    (leverage : scoreDe l.debtToEquity ≤ scoreDe l'.debtToEquity) :
    overallScore v q g l ≤ overallScore v' q g' l' := by
  unfold overallScore
  linarith

/-- **A better ratio that is no quality ratio does not lower the overall score.** -/
theorem overall_mono_of_other (present : ratios.get ratio = some old)
    (better : Improves ratio old new) (other : ratios.fellows ratio = none) :
    ratios.overall ≤ (ratios.set ratio new).overall := by
  obtain ⟨v, q, g, l⟩ := ratios
  cases ratio with
  | pe =>
      have was : v.pe = some old := present
      refine overallScore_mono q (valuationScore_mono ?_ rfl ?_ le_rfl) le_rfl le_rfl
      · exact Option.isSome_of_eq_some was
      · exact (congrArg scorePe was).le.trans (scorePe_anti better.1 better.2)
  | pb =>
      have was : v.pb = some old := present
      refine overallScore_mono q (valuationScore_mono rfl ?_ le_rfl ?_) le_rfl le_rfl
      · exact Option.isSome_of_eq_some was
      · exact (congrArg scorePb was).le.trans (scorePb_anti better.1 better.2)
  | roe => cases other
  | roa => cases other
  | netMargin => cases other
  | revenueGrowthYoy =>
      have was : g.revenueGrowthYoy = some old := present
      have noWorse : NoWorse g.revenueGrowthYoy (some new) := was ▸ noWorse_of_le better
      exact overallScore_mono q le_rfl (growthScore_mono noWorse (.refl _) (.refl _)) le_rfl
  | netIncomeGrowthYoy =>
      have was : g.netIncomeGrowthYoy = some old := present
      have noWorse : NoWorse g.netIncomeGrowthYoy (some new) := was ▸ noWorse_of_le better
      exact overallScore_mono q le_rfl (growthScore_mono (.refl _) noWorse (.refl _)) le_rfl
  | epsGrowthYoy =>
      have was : g.epsGrowthYoy = some old := present
      have noWorse : NoWorse g.epsGrowthYoy (some new) := was ▸ noWorse_of_le better
      exact overallScore_mono q le_rfl (growthScore_mono (.refl _) (.refl _) noWorse) le_rfl
  | dividendGrowthYoy =>
      have same := growthScore_mono (.refl g.revenueGrowthYoy) (.refl g.netIncomeGrowthYoy)
        (.refl g.epsGrowthYoy)
      exact overallScore_mono q le_rfl same le_rfl
  | debtToEquity =>
      have score : scoreDe l.debtToEquity ≤ scoreDe (some new) :=
        (congrArg scoreDe present).le.trans (scoreDe_anti better)
      exact overallScore_mono q le_rfl le_rfl score

/-- The score of the quality is the mean of a ratio and its fellows, in any order. -/
theorem qualityScore_perm {fellows : List ℚ} (own : ratios.fellows ratio = some fellows)
    (present : ratios.get ratio = some old) (new : ℚ) :
    qualityScore ratios.quality = meanOfMarked (scoreRoe (some old) :: fellows) ∧
      qualityScore (ratios.set ratio new).quality =
        meanOfMarked (scoreRoe (some new) :: fellows) := by
  obtain ⟨v, ⟨roe, roa, netMargin⟩, g, l⟩ := ratios
  rw [qualityScore_eq, qualityScore_eq]
  cases ratio with
  | roe =>
      cases own
      have was : roe = some old := present
      subst was
      exact ⟨rfl, rfl⟩
  | roa =>
      cases own
      have was : roa = some old := present
      subst was
      exact ⟨meanOfMarked_perm (.swap _ _ _), meanOfMarked_perm (.swap _ _ _)⟩
  | netMargin =>
      cases own
      have was : netMargin = some old := present
      subst was
      exact ⟨meanOfMarked_perm (@List.perm_append_comm _ [_, _] [_]),
        meanOfMarked_perm (@List.perm_append_comm _ [_, _] [_])⟩
  | _ => cases own

/-- Only the quality changes with a quality ratio. -/
theorem overall_le_iff_of_quality {fellows : List ℚ}
    (own : ratios.fellows ratio = some fellows) :
    ratios.overall ≤ (ratios.set ratio new).overall ↔
      qualityScore ratios.quality ≤ qualityScore (ratios.set ratio new).quality := by
  obtain ⟨v, q, g, l⟩ := ratios
  cases ratio with
  | roe => exact overallScore_le_iff v q _ g l
  | roa => exact overallScore_le_iff v q _ g l
  | netMargin => exact overallScore_le_iff v q _ g l
  | _ => cases own

theorem overall_le_iff (present : ratios.get ratio = some old)
    (better : Improves ratio old new) :
    ratios.overall ≤ (ratios.set ratio new).overall ↔ InStep ratios ratio old new := by
  cases own : ratios.fellows ratio with
  | none =>
      refine iff_of_true (overall_mono_of_other present better own) ?_
      intro fellows listed
      rw [own] at listed
      cases listed
  | some fellows =>
      have le : old ≤ new := by
        cases ratio <;> first | exact better | cases own
      obtain ⟨before, after⟩ := qualityScore_perm own present new
      rw [overall_le_iff_of_quality own, before, after, meanOfMarked_le_iff (scoreRoe_mono le),
        scoreRoe_eq_fifty_iff, scoreRoe_eq_fifty_iff, InStep, own]
      exact ⟨fun step _ listed => Option.some.inj listed ▸ step, fun step => step fellows rfl⟩

end Improvement

/-- **A better ratio lowers neither the overall score nor the rating, exactly if it is no
quality ratio or keeps in step with the other ones.** -/
theorem overall_mono_iff (ratios : Ratios) (ratio : Ratio) (old new : ℚ)
    (present : ratios.get ratio = some old) (better : Improves ratio old new) :
    (ratios.overall ≤ (ratios.set ratio new).overall ∧
        (ratios.set ratio new).rating.grade ≤ ratios.rating.grade) ↔
      InStep ratios ratio old new := by
  rw [← overall_le_iff present better, and_iff_left_iff_imp]
  exact fun le => grade_ratingOf_anti le

/-- A company whose return on equity has the neutral score, beside a perfect net margin. -/
def marginCompany : Ratios where
  valuation := ⟨none, none⟩
  quality := ⟨some (33 / 400), none, some (3 / 10)⟩
  growth := ⟨none, none, none, none⟩
  leverage := ⟨none⟩

theorem overall_mono_sample :
    (marginCompany.overall ≤ (marginCompany.set .roe (9 / 100)).overall ∧
        (marginCompany.set .roe (9 / 100)).rating.grade ≤ marginCompany.rating.grade) ↔
      InStep marginCompany .roe (33 / 400) (9 / 100) :=
  overall_mono_iff marginCompany .roe (33 / 400) (9 / 100) rfl (by norm_num [Improves])

/-- A larger return on equity, which is no longer left out, lowers the score and the rating. -/
theorem overall_falls :
    ¬ ∀ (ratios : Ratios) (ratio : Ratio) (old new : ℚ), ratios.get ratio = some old →
      Improves ratio old new → ratios.overall ≤ (ratios.set ratio new).overall ∧
        (ratios.set ratio new).rating.grade ≤ ratios.rating.grade := by
  intro mono
  have kept := mono marginCompany .roe (33 / 400) (9 / 100) rfl (by norm_num [Improves])
  exact absurd kept.2 (by decide +kernel)

end TradeOS.Fundamental
