import Mathlib.Algebra.Order.Field.Basic
import Mathlib.Data.Rat.Cast.Order
import Mathlib.Tactic.Linarith
import Mathlib.Tactic.NormNum
import Mathlib.Tactic.Ring

/-!
# The composite score of the sentiment engine

Four scores between zero and one are put together: of the news, of the regime, of the crowding
and of the volume. The first two are weighted with their confidences. The other two count with
the weights `0.5` and `0.3` in the denominator, but are added without a weight, and the result is
cut to the unit interval.

So the composite is at least the smallest score (`lowest_le_composite`), but it is an average
only where the confident scores lie far enough below the largest one to make up for the missing
weights: `composite_between_iff`. Without confidences they cannot: `composite_unconfident`, and
an analysis of no data at all is rated as bullish as possible.
-/

set_option autoImplicit false

namespace TradeOS.Sentiment

/-! ## The metrics -/

structure NewsSentiment where
  newsSentiment : ℚ
  confidence : ℚ

inductive SentimentRegime where
  | riskOn
  | riskOff
  | neutral
  deriving DecidableEq, Repr

structure RegimeMetrics where
  regime : SentimentRegime
  confidence : ℚ

inductive CrowdingDirection where
  | long
  | short
  | neutral
  deriving DecidableEq, Repr

structure CrowdingMetrics where
  longCrowding : ℚ
  shortCrowding : ℚ
  crowdingDirection : CrowdingDirection

structure VolumeMetrics where
  volumeSurprise : ℚ

/-- The news of an analysis without data. -/
def noNews : NewsSentiment := ⟨0, 0⟩

/-- The regime of too few bars. -/
def noRegime : RegimeMetrics := ⟨.neutral, 0⟩

/-- The crowding of too few bars. -/
def noCrowding : CrowdingMetrics := ⟨1 / 2, 1 / 2, .neutral⟩

/-- The volume of an analysis without bars. -/
def noVolume : VolumeMetrics := ⟨1⟩

/-! ## The scores -/

/-- The sentiment of the news, from zero to one. -/
def newsScore (news : NewsSentiment) : ℚ := (news.newsSentiment + 1) / 2

/-- The score of a regime. -/
def regimeScore (metrics : RegimeMetrics) : ℚ :=
  if metrics.regime = .riskOn then 4 / 5
  else if metrics.regime = .riskOff then 1 / 5
  else 1 / 2

/-- The score of the crowding, which is against an extreme one. -/
def crowdScore (metrics : CrowdingMetrics) : ℚ :=
  if metrics.crowdingDirection = .long ∧ 7 / 10 < metrics.longCrowding then 3 / 10
  else if metrics.crowdingDirection = .short ∧ 7 / 10 < metrics.shortCrowding then 7 / 10
  else 1 / 2

/-- The score of the volume, which follows the news if there is much of it. -/
def volumeScore (news : NewsSentiment) (metrics : VolumeMetrics) : ℚ :=
  if 3 / 2 < metrics.volumeSurprise then 1 / 2 + (newsScore news - 1 / 2) * (3 / 10) else 1 / 2

/-- `np.clip`. -/
def clip (value low high : ℚ) : ℚ := min (max value low) high

/-- `_calc_composite`. -/
def calcComposite (news : NewsSentiment) (volume : VolumeMetrics) (regime : RegimeMetrics)
    (crowd : CrowdingMetrics) : ℚ :=
  let scores := [newsScore news * news.confidence, regimeScore regime * regime.confidence,
    crowdScore crowd, volumeScore news volume]
  let totalWeight := news.confidence + regime.confidence + 1 / 2 + 3 / 10
  clip (if 0 < totalWeight then scores.sum / totalWeight else 1 / 2) 0 1

/-- The sentiment of the news and the confidences are in their ranges. -/
structure InRange (news : NewsSentiment) (regime : RegimeMetrics) : Prop where
  sentiment : -1 ≤ news.newsSentiment ∧ news.newsSentiment ≤ 1
  newsConfidence : 0 ≤ news.confidence ∧ news.confidence ≤ 1
  regimeConfidence : 0 ≤ regime.confidence ∧ regime.confidence ≤ 1

section Scores

variable {news : NewsSentiment} {volume : VolumeMetrics} {regime : RegimeMetrics}
  {crowd : CrowdingMetrics}

/-- The smallest of the four scores. -/
def lowest (news : NewsSentiment) (volume : VolumeMetrics) (regime : RegimeMetrics)
    (crowd : CrowdingMetrics) : ℚ :=
  min (min (newsScore news) (regimeScore regime)) (min (crowdScore crowd) (volumeScore news volume))

/-- The largest of the four scores. -/
def highest (news : NewsSentiment) (volume : VolumeMetrics) (regime : RegimeMetrics)
    (crowd : CrowdingMetrics) : ℚ :=
  max (max (newsScore news) (regimeScore regime)) (max (crowdScore crowd) (volumeScore news volume))

theorem newsScore_mem (range : InRange news regime) : 0 ≤ newsScore news ∧ newsScore news ≤ 1 := by
  obtain ⟨low, high⟩ := range.sentiment
  unfold newsScore
  constructor <;> linarith

theorem regimeScore_mem (regime : RegimeMetrics) :
    1 / 5 ≤ regimeScore regime ∧ regimeScore regime ≤ 4 / 5 := by
  unfold regimeScore
  split_ifs <;> norm_num

theorem crowdScore_mem (crowd : CrowdingMetrics) :
    3 / 10 ≤ crowdScore crowd ∧ crowdScore crowd ≤ 7 / 10 := by
  unfold crowdScore
  split_ifs <;> norm_num

theorem volumeScore_mem (range : InRange news regime) (volume : VolumeMetrics) :
    7 / 20 ≤ volumeScore news volume ∧ volumeScore news volume ≤ 13 / 20 := by
  obtain ⟨low, high⟩ := newsScore_mem range
  unfold volumeScore
  split_ifs <;> constructor <;> linarith

/-- Only perfect news have the score one. -/
theorem newsScore_eq_one_iff (news : NewsSentiment) :
    newsScore news = 1 ↔ news.newsSentiment = 1 := by
  unfold newsScore
  constructor <;> intro one <;> linarith

/-- No other score reaches one. -/
theorem one_le_highest_iff (range : InRange news regime) :
    1 ≤ highest news volume regime crowd ↔ news.newsSentiment = 1 := by
  have regime' := (regimeScore_mem regime).2
  have crowd' := (crowdScore_mem crowd).2
  have volume' := (volumeScore_mem range volume).2
  rw [← newsScore_eq_one_iff, highest, le_max_iff, le_max_iff, le_max_iff]
  constructor
  · rintro ((top | top) | (top | top))
    · exact le_antisymm (newsScore_mem range).2 top
    all_goals exfalso; linarith
  · exact fun top => Or.inl (Or.inl top.ge)

/-! ## The composite -/

/-- The sum of the confidences and the two fixed weights. -/
def totalWeight (news : NewsSentiment) (regime : RegimeMetrics) : ℚ :=
  news.confidence + regime.confidence + 4 / 5

/-- The sum of the scores, of which the last two have no weight. -/
def scoreSum (news : NewsSentiment) (volume : VolumeMetrics) (regime : RegimeMetrics)
    (crowd : CrowdingMetrics) : ℚ :=
  newsScore news * news.confidence + regimeScore regime * regime.confidence + crowdScore crowd +
    volumeScore news volume

theorem totalWeight_pos (range : InRange news regime) : 0 < totalWeight news regime := by
  have first := range.newsConfidence.1
  have second := range.regimeConfidence.1
  unfold totalWeight
  linarith

/-- The lower cut never applies. -/
theorem calcComposite_eq (range : InRange news regime) (volume : VolumeMetrics)
    (crowd : CrowdingMetrics) : calcComposite news volume regime crowd =
      min (scoreSum news volume regime crowd / totalWeight news regime) 1 := by
  have weight := totalWeight_pos range
  have same : news.confidence + regime.confidence + 1 / 2 + 3 / 10 = totalWeight news regime := by
    unfold totalWeight
    ring
  have sum : [newsScore news * news.confidence, regimeScore regime * regime.confidence,
      crowdScore crowd, volumeScore news volume].sum = scoreSum news volume regime crowd := by
    simp only [List.sum_cons, List.sum_nil, scoreSum]
    ring
  have nonneg : 0 ≤ scoreSum news volume regime crowd := by
    have first := mul_nonneg (newsScore_mem range).1 range.newsConfidence.1
    have second := mul_nonneg ((by norm_num : (0 : ℚ) ≤ 1 / 5).trans (regimeScore_mem regime).1)
      range.regimeConfidence.1
    have third := (crowdScore_mem crowd).1
    have fourth := (volumeScore_mem range volume).1
    unfold scoreSum
    linarith
  simp only [calcComposite, same, sum, if_pos weight, clip,
    max_eq_left (div_nonneg nonneg weight.le)]

/-- **The composite is at least the smallest score.** -/
theorem lowest_le_composite (range : InRange news regime) (volume : VolumeMetrics)
    (crowd : CrowdingMetrics) :
    lowest news volume regime crowd ≤ calcComposite news volume regime crowd := by
  have byNews : lowest news volume regime crowd ≤ newsScore news :=
    (min_le_left _ _).trans (min_le_left _ _)
  have byRegime : lowest news volume regime crowd ≤ regimeScore regime :=
    (min_le_left _ _).trans (min_le_right _ _)
  have byCrowd : lowest news volume regime crowd ≤ crowdScore crowd :=
    (min_le_right _ _).trans (min_le_left _ _)
  have byVolume : lowest news volume regime crowd ≤ volumeScore news volume :=
    (min_le_right _ _).trans (min_le_right _ _)
  rw [calcComposite_eq range]
  refine le_min ((le_div_iff₀ (totalWeight_pos range)).mpr ?_)
    (byNews.trans (newsScore_mem range).2)
  have first := mul_le_mul_of_nonneg_right byNews range.newsConfidence.1
  have second := mul_le_mul_of_nonneg_right byRegime range.regimeConfidence.1
  have third := (crowdScore_mem crowd).1
  have fourth := (volumeScore_mem range volume).1
  unfold scoreSum totalWeight
  linarith

/-- The composite is at most the largest score exactly if that is one, or if the weighted scores
lie below it by what the others have too much. -/
theorem composite_le_highest_iff (range : InRange news regime) (volume : VolumeMetrics)
    (crowd : CrowdingMetrics) :
    calcComposite news volume regime crowd ≤ highest news volume regime crowd ↔
      news.newsSentiment = 1 ∨
        crowdScore crowd + volumeScore news volume - 4 / 5 * highest news volume regime crowd ≤
          news.confidence * (highest news volume regime crowd - newsScore news) +
            regime.confidence * (highest news volume regime crowd - regimeScore regime) := by
  rw [calcComposite_eq range, min_le_iff, one_le_highest_iff range, or_comm,
    div_le_iff₀ (totalWeight_pos range)]
  refine or_congr_right ?_
  unfold scoreSum totalWeight
  constructor <;> intro bound <;> linarith

/-- **The composite is between the smallest and the largest score exactly if the news are
perfect, or the confident scores are far enough below the largest one.** -/
theorem composite_between_iff (news : NewsSentiment) (volume : VolumeMetrics)
    (regime : RegimeMetrics) (crowd : CrowdingMetrics) (range : InRange news regime) :
    (lowest news volume regime crowd ≤ calcComposite news volume regime crowd ∧
        calcComposite news volume regime crowd ≤ highest news volume regime crowd) ↔
      news.newsSentiment = 1 ∨
        crowdScore crowd + volumeScore news volume - 4 / 5 * highest news volume regime crowd ≤
          news.confidence * (highest news volume regime crowd - newsScore news) +
            regime.confidence * (highest news volume regime crowd - regimeScore regime) := by
  rw [and_iff_right (lowest_le_composite range volume crowd)]
  exact composite_le_highest_iff range volume crowd

/-- Without confidences the composite is above all scores. -/
theorem composite_unconfident (range : InRange news regime) (volume : VolumeMetrics)
    (crowd : CrowdingMetrics) (news' : news.confidence = 0) (regime' : regime.confidence = 0)
    (imperfect : news.newsSentiment ≠ 1) :
    highest news volume regime crowd < calcComposite news volume regime crowd := by
  have below : newsScore news < 1 :=
    lt_of_le_of_ne (newsScore_mem range).2 (mt (newsScore_eq_one_iff news).mp imperfect)
  have apart : 4 / 5 * highest news volume regime crowd <
      crowdScore crowd + volumeScore news volume := by
    have byRegime := (regimeScore_mem regime).2
    obtain ⟨low, high⟩ := crowdScore_mem crowd
    obtain ⟨least, most⟩ := volumeScore_mem range volume
    have byNews : 4 / 5 * newsScore news < crowdScore crowd + volumeScore news volume := by
      unfold volumeScore at least ⊢
      split_ifs <;> linarith
    unfold highest
    rcases max_choice (max (newsScore news) (regimeScore regime))
      (max (crowdScore crowd) (volumeScore news volume)) with outer | outer <;> rw [outer]
    · rcases max_choice (newsScore news) (regimeScore regime) with inner | inner <;> rw [inner]
      · exact byNews
      · linarith
    · rcases max_choice (crowdScore crowd) (volumeScore news volume) with inner | inner <;>
        rw [inner] <;> linarith
  rw [← not_le, composite_le_highest_iff range, news', regime']
  rintro (perfect | bound)
  · exact imperfect perfect
  · linarith

/-- The metrics of no data are in their ranges. -/
theorem noData_inRange : InRange noNews noRegime := by
  constructor <;> norm_num [noNews, noRegime]

/-- Good news under a calm regime, both certain. -/
def goodNews : NewsSentiment := ⟨4 / 5, 1⟩

def calmRegime : RegimeMetrics := ⟨.neutral, 1⟩

theorem goodNews_inRange : InRange goodNews calmRegime := by
  constructor <;> norm_num [goodNews, calmRegime]

/-- The certain regime draws the composite below the score of the news. -/
theorem composite_between_goodNews :
    lowest goodNews noVolume calmRegime noCrowding ≤
        calcComposite goodNews noVolume calmRegime noCrowding ∧
      calcComposite goodNews noVolume calmRegime noCrowding ≤
        highest goodNews noVolume calmRegime noCrowding := by
  apply (composite_between_iff goodNews noVolume calmRegime noCrowding goodNews_inRange).mpr
  right
  with_unfolding_all decide

/-- All four scores of no data are neutral, and their composite is one. -/
theorem composite_above_noData :
    ¬ ∀ (news : NewsSentiment) (volume : VolumeMetrics) (regime : RegimeMetrics)
      (crowd : CrowdingMetrics), InRange news regime →
        lowest news volume regime crowd ≤ calcComposite news volume regime crowd ∧
          calcComposite news volume regime crowd ≤ highest news volume regime crowd := by
  intro between
  have inside := (between noNews noVolume noRegime noCrowding noData_inRange).2
  exact absurd inside (by decide +kernel)

end Scores

end TradeOS.Sentiment
