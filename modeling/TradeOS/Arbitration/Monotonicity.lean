import TradeOS.Arbitration.Derived
import Mathlib.Algebra.Order.Group.MinMax
import Mathlib.Algebra.BigOperators.Ring.List

/-!
# Arbitration is monotone in bullishness

Without a risk-off macro signal the bias depends on two totals: what the long
signals and what the short signals contribute. A signal contributes its
confidence times a fixed factor, unless it has no known regime and its side is
not heard in the conflict; a side is heard when it leads every opponent by the
threshold (`Heard`).

`MoreBullish` compares two lists of signals by what these totals depend on. It
is reflexive, it is closed under concatenation, and moving one signal towards
long gives it (`MoreBullish.of_signed`): the thresholds can make a signal
appear, disappear or change sides, and each crossing goes the right way. The
totals, and with them the bias, follow (`arbitrate_monotone`).
-/

set_option autoImplicit false

namespace TradeOS.Arbitration

open Numeric EnsembleScorer

/-! ## The order of the biases -/

/-- The place of a bias in the order `short_bias < {hold_bias, no_trade} <
long_bias`. -/
def bullishness : Bias → Option ℤ
  | .shortBias => some (-1)
  | .holdBias => some 0
  | .noTrade => some 0
  | .longBias => some 1
  | .reduceRisk => none
  | .exitBias => none
  | .other _ _ => none

/-- The second bias is not further towards short than the first. -/
def NotFurtherShort (first second : Bias) : Prop :=
  ∃ a b, bullishness first = some a ∧ bullishness second = some b ∧ a ≤ b

theorem NotFurtherShort.of_compared {ls ss ls' ss' : ℚ}
    (long : comparedBias ls ss = .longBias → comparedBias ls' ss' = .longBias)
    (short : comparedBias ls' ss' = .shortBias → comparedBias ls ss = .shortBias) :
    NotFurtherShort (comparedBias ls ss) (comparedBias ls' ss') := by
  have cases : ∀ x y : ℚ, comparedBias x y = .noTrade ∨ comparedBias x y = .holdBias ∨
      comparedBias x y = .longBias ∨ comparedBias x y = .shortBias := by
    intro x y
    unfold comparedBias
    split_ifs <;> simp
  rcases cases ls ss with first | first | first | first <;>
    rcases cases ls' ss' with second | second | second | second <;>
    simp_all [NotFurtherShort, bullishness]

/-! ## The comparison of two totals -/

/-- The lead of the long side, relative to the two totals. -/
def relativeLead (long short : ℚ) : ℚ := (long - short) / (long + short)

theorem relativeLead_mono {long short long' short' : ℚ} (nonneg : 0 ≤ long)
    (nonneg' : 0 ≤ short') (grows : long ≤ long') (shrinks : short' ≤ short) :
    relativeLead long short ≤ relativeLead long' short' := by
  unfold relativeLead
  have sum : 0 ≤ long + short := by linarith
  have sum' : 0 ≤ long' + short' := by linarith
  rcases sum.eq_or_lt with empty | positive
  · have noShort : short' = 0 := by linarith
    rw [← empty, div_zero, noShort]
    exact div_nonneg (by linarith) (by linarith)
  · rcases sum'.eq_or_lt with empty | positive'
    · rw [← empty, div_zero]
      exact div_nonpos_of_nonpos_of_nonneg (by linarith) sum
    · rw [div_le_div_iff₀ positive positive']
      nlinarith [mul_le_mul grows shrinks nonneg' (nonneg.trans grows)]

/-! ## Shares -/

/-- What the confidence of a signal counts for. The regime filter fixes the
factor of a signal of a known regime; the others count when their side is
heard. -/
def shareFactor (heard : Bool) (d : DirectionalSignal) : ℚ :=
  if regimeActive d.direction d.regime then
    signalMultiplier d.direction d.regime * carriedWeight d
  else if heard then 1 else 0

/-- What a signal adds to the total of its side. -/
def share (heard : Bool) (d : DirectionalSignal) : ℚ :=
  d.confidence.val * shareFactor heard d

/-- The total of one side. -/
def sideShare (side : Direction) (heard : Bool) (ds : List DirectionalSignal) : ℚ :=
  ((ds.filter fun d => d.direction = side).map (share heard)).sum

/-- Every opponent is outdone by the threshold. -/
def Heard (ds : List DirectionalSignal) (side : Direction) : Prop :=
  ∀ opponent ∈ ds, opponent.direction = opposite side →
    ∃ d ∈ ds, d.direction = side ∧ opponent.confidence.val + 1 / 10 ≤ d.confidence.val

instance (ds : List DirectionalSignal) (side : Direction) : Decidable (Heard ds side) :=
  inferInstanceAs (Decidable (∀ opponent ∈ ds, _ → ∃ d ∈ ds, _))

theorem engineWeight_pos (engine : String) : 0 < engineWeight defaultWeights engine := by
  simp only [engineWeight, defaultWeights, List.lookup_cons, List.lookup_nil]
  repeat' split
  all_goals norm_num

theorem carriedWeight_nonneg {d : DirectionalSignal} (weight : 0 ≤ d.weight) :
    0 ≤ carriedWeight d := by
  unfold carriedWeight
  split
  · exact weight
  · exact (engineWeight_pos _).le

theorem shareFactor_nonneg (heard : Bool) {d : DirectionalSignal} (weight : d.weight = 1) :
    0 ≤ shareFactor heard d := by
  unfold shareFactor
  split
  · exact mul_nonneg (signalMultiplier_pos _ _).le (carriedWeight_nonneg (zero_le_one.trans weight.ge))
  · split
    · exact zero_le_one
    · exact le_refl 0

theorem share_nonneg (heard : Bool) {d : DirectionalSignal} (weight : d.weight = 1) :
    0 ≤ share heard d :=
  mul_nonneg d.confidence.property.1 (shareFactor_nonneg heard weight)

theorem shareFactor_mono {heard heard' : Bool} (louder : heard = true → heard' = true)
    (d : DirectionalSignal) : shareFactor heard d ≤ shareFactor heard' d := by
  unfold shareFactor
  split
  · exact le_refl _
  · cases heard with
    | false => cases heard' <;> simp
    | true => simp [louder rfl]

@[simp] theorem sideShare_nil (side : Direction) (heard : Bool) : sideShare side heard [] = 0 :=
  rfl

theorem sideShare_append (side : Direction) (heard : Bool) (x y : List DirectionalSignal) :
    sideShare side heard (x ++ y) = sideShare side heard x + sideShare side heard y := by
  simp [sideShare]

theorem sideShare_singleton (side : Direction) (heard : Bool) (d : DirectionalSignal) :
    sideShare side heard [d] = if d.direction = side then share heard d else 0 := by
  by_cases same : d.direction = side <;> simp [sideShare, same]

theorem sideShare_nonneg (side : Direction) (heard : Bool) {ds : List DirectionalSignal}
    (weights : ∀ d ∈ ds, d.weight = 1) : 0 ≤ sideShare side heard ds := by
  apply List.sum_nonneg
  intro value member
  obtain ⟨d, kept, rfl⟩ := List.mem_map.mp member
  exact share_nonneg heard (weights d (List.mem_filter.mp kept).1)

/-! ## The order on lists of signals -/

/-- The second list leans at least as far towards long: its long signals are at
least as strong, its short signals at most as strong, one by one and in total. -/
structure MoreBullish (x y : List DirectionalSignal) : Prop where
  longs : ∀ l ∈ x, l.direction = .long →
    ∃ l' ∈ y, l'.direction = .long ∧ l.confidence.val ≤ l'.confidence.val
  shorts : ∀ s ∈ y, s.direction = .short →
    ∃ s' ∈ x, s'.direction = .short ∧ s.confidence.val ≤ s'.confidence.val
  longShares : ∀ heard heard' : Bool, (heard = true → heard' = true) →
    sideShare .long heard x ≤ sideShare .long heard' y
  shortShares : ∀ heard heard' : Bool, (heard = true → heard' = true) →
    sideShare .short heard y ≤ sideShare .short heard' x

theorem MoreBullish.nil : MoreBullish [] [] where
  longs _ member := absurd member List.not_mem_nil
  shorts _ member := absurd member List.not_mem_nil
  longShares _ _ _ := le_refl 0
  shortShares _ _ _ := le_refl 0

theorem MoreBullish.append {x y x' y' : List DirectionalSignal} (first : MoreBullish x y)
    (second : MoreBullish x' y') : MoreBullish (x ++ x') (y ++ y') where
  longs l member side := by
    rcases List.mem_append.mp member with left | right
    · obtain ⟨l', kept, found⟩ := first.longs l left side
      exact ⟨l', List.mem_append_left _ kept, found⟩
    · obtain ⟨l', kept, found⟩ := second.longs l right side
      exact ⟨l', List.mem_append_right _ kept, found⟩
  shorts s member side := by
    rcases List.mem_append.mp member with left | right
    · obtain ⟨s', kept, found⟩ := first.shorts s left side
      exact ⟨s', List.mem_append_left _ kept, found⟩
    · obtain ⟨s', kept, found⟩ := second.shorts s right side
      exact ⟨s', List.mem_append_right _ kept, found⟩
  longShares heard heard' louder := by
    rw [sideShare_append, sideShare_append]
    exact add_le_add (first.longShares heard heard' louder) (second.longShares heard heard' louder)
  shortShares heard heard' louder := by
    rw [sideShare_append, sideShare_append]
    exact add_le_add (first.shortShares heard heard' louder)
      (second.shortShares heard heard' louder)

theorem MoreBullish.heard_long {x y : List DirectionalSignal} (more : MoreBullish x y)
    (heard : Heard x .long) : Heard y .long := by
  intro s member side
  obtain ⟨s', listed, side', weaker⟩ := more.shorts s member side
  obtain ⟨l, kept, long, outdone⟩ := heard s' listed side'
  obtain ⟨l', kept', long', stronger⟩ := more.longs l kept long
  exact ⟨l', kept', long', by linarith⟩

theorem MoreBullish.heard_short {x y : List DirectionalSignal} (more : MoreBullish x y)
    (heard : Heard y .short) : Heard x .short := by
  intro l member side
  obtain ⟨l', listed, side', stronger⟩ := more.longs l member side
  obtain ⟨s, kept, short, outdone⟩ := heard l' listed side'
  obtain ⟨s', kept', short', weaker⟩ := more.shorts s kept short
  exact ⟨s', kept', short', by linarith⟩

/-! ## One signal moves towards long -/

/-- The confidence of a signal with the sign of its direction. -/
def signedConfidence (d : DirectionalSignal) : ℚ :=
  directionSign d.direction * d.confidence.val

/-- The same engine in the same regime, moved towards long. -/
structure Nudged (d d' : DirectionalSignal) : Prop where
  engineName : d'.engineName = d.engineName
  regime : d'.regime = d.regime
  weight : d.weight = 1
  weight' : d'.weight = 1
  signed : signedConfidence d ≤ signedConfidence d'

theorem Nudged.refl {d : DirectionalSignal} (weight : d.weight = 1) : Nudged d d :=
  ⟨rfl, rfl, weight, weight, le_refl _⟩

/-- Not noise. -/
abbrev loud (d : DirectionalSignal) : Bool := lowConfidenceThreshold ≤ d.confidence.val

theorem confidence_pos_of_loud {d : DirectionalSignal} (kept : loud d = true) :
    0 < d.confidence.val :=
  lt_of_lt_of_le (by norm_num [lowConfidenceThreshold]) (of_decide_eq_true kept)

theorem shareFactor_congr (heard : Bool) {d d' : DirectionalSignal} (nudged : Nudged d d')
    (direction : d'.direction = d.direction) : shareFactor heard d' = shareFactor heard d := by
  simp only [shareFactor, carriedWeight, direction, nudged.regime, nudged.engineName,
    nudged.weight, nudged.weight']

/-- A loud long signal stays loud and long, and gains. -/
theorem Nudged.long {d d' : DirectionalSignal} (nudged : Nudged d d') (kept : loud d = true)
    (side : d.direction = .long) :
    loud d' = true ∧ d'.direction = .long ∧ d.confidence.val ≤ d'.confidence.val := by
  have positive := confidence_pos_of_loud kept
  have signed := nudged.signed
  have nonneg := d'.confidence.property.1
  cases side' : d'.direction with
  | long =>
      simp only [signedConfidence, side, side', directionSign, one_mul] at signed
      exact ⟨decide_eq_true ((of_decide_eq_true kept).trans signed), rfl, signed⟩
  | short | flat =>
      simp only [signedConfidence, side, side', directionSign] at signed
      linarith

/-- A loud short signal was loud and short before, and loses. -/
theorem Nudged.short {d d' : DirectionalSignal} (nudged : Nudged d d') (kept : loud d' = true)
    (side : d'.direction = .short) :
    loud d = true ∧ d.direction = .short ∧ d'.confidence.val ≤ d.confidence.val := by
  have positive := confidence_pos_of_loud kept
  have signed := nudged.signed
  have nonneg := d.confidence.property.1
  cases side' : d.direction with
  | short =>
      simp only [signedConfidence, side, side', directionSign] at signed
      have weaker : d'.confidence.val ≤ d.confidence.val := by linarith
      exact ⟨decide_eq_true ((of_decide_eq_true kept).trans weaker), rfl, weaker⟩
  | long | flat =>
      simp only [signedConfidence, side, side', directionSign] at signed
      linarith

theorem share_mono {heard heard' : Bool} (louder : heard = true → heard' = true)
    {d d' : DirectionalSignal} (weight : d.weight = 1)
    (factor : shareFactor heard' d' = shareFactor heard' d)
    (stronger : d.confidence.val ≤ d'.confidence.val) : share heard d ≤ share heard' d' := by
  unfold share
  rw [factor]
  exact mul_le_mul stronger (shareFactor_mono louder d) (shareFactor_nonneg heard weight)
    d'.confidence.property.1

theorem sideShare_loud (side : Direction) (heard : Bool) (d : DirectionalSignal) :
    sideShare side heard ([d].filter loud) =
      if loud d = true ∧ d.direction = side then share heard d else 0 := by
  by_cases kept : loud d = true
  · simp only [List.filter_cons_of_pos kept, List.filter_nil, sideShare_singleton, kept, true_and]
  · simp only [List.filter_cons_of_neg kept, List.filter_nil, sideShare_nil, kept, false_and,
      if_false, Bool.false_eq_true]

/-- A side gains what its one signal gains, also when the signal appears. -/
theorem sideShare_loud_le {side : Direction} {heard heard' : Bool}
    (louder : heard = true → heard' = true) {d e : DirectionalSignal} (weight : d.weight = 1)
    (weight' : e.weight = 1)
    (factor : e.direction = d.direction → shareFactor heard' e = shareFactor heard' d)
    (gains : loud d = true → d.direction = side →
      loud e = true ∧ e.direction = side ∧ d.confidence.val ≤ e.confidence.val) :
    sideShare side heard ([d].filter loud) ≤ sideShare side heard' ([e].filter loud) := by
  rw [sideShare_loud, sideShare_loud]
  by_cases counts : loud d = true ∧ d.direction = side
  · obtain ⟨kept, side', stronger⟩ := gains counts.1 counts.2
    rw [if_pos counts, if_pos ⟨kept, side'⟩]
    exact share_mono louder weight (factor (side'.trans counts.2.symm)) stronger
  · rw [if_neg counts]
    split
    · exact share_nonneg heard' weight'
    · exact le_refl 0

/-- Moving one signal towards long leans the list of loud signals towards long,
on whichever side of the noise threshold it was and is. -/
theorem MoreBullish.of_nudged {d d' : DirectionalSignal} (nudged : Nudged d d') :
    MoreBullish ([d].filter loud) ([d'].filter loud) where
  longs l member side := by
    obtain ⟨listed, kept⟩ := List.mem_filter.mp member
    obtain rfl := List.mem_singleton.mp listed
    obtain ⟨kept', side', stronger⟩ := nudged.long kept side
    exact ⟨d', List.mem_filter.mpr ⟨List.mem_singleton_self d', kept'⟩, side', stronger⟩
  shorts s member side := by
    obtain ⟨listed, kept⟩ := List.mem_filter.mp member
    obtain rfl := List.mem_singleton.mp listed
    obtain ⟨kept', side', weaker⟩ := nudged.short kept side
    exact ⟨d, List.mem_filter.mpr ⟨List.mem_singleton_self d, kept'⟩, side', weaker⟩
  longShares _ heard' louder :=
    sideShare_loud_le louder nudged.weight nudged.weight' (shareFactor_congr heard' nudged)
      nudged.long
  shortShares _ heard' louder :=
    sideShare_loud_le louder nudged.weight' nudged.weight
      (fun same => (shareFactor_congr heard' nudged same.symm).symm) nudged.short

theorem MoreBullish.of_forall₂ {x y : List DirectionalSignal} (nudged : List.Forall₂ Nudged x y) :
    MoreBullish (x.filter loud) (y.filter loud) := by
  induction nudged with
  | nil => exact MoreBullish.nil
  | @cons d d' x y first _ ih =>
      have split := (MoreBullish.of_nudged first).append ih
      rw [← List.filter_append, ← List.filter_append] at split
      exact split

/-! ## One input moves towards long -/

/-- One input of a call is moved towards long. -/
inductive TowardsLong (signals : AnalysisSignals) : AnalysisSignals → Prop where
  | orderflow (sig : OrderFlowSignal) (present : signals.orderflow = some sig)
      (imbalance : ℚ) (larger : sig.bookImbalance ≤ imbalance) :
      TowardsLong signals
        { signals with orderflow := some { sig with bookImbalance := imbalance } }
  | sentiment (sig : SentimentEvent) (present : signals.sentiment = some sig)
      (composite : UnitRational) (larger : sig.compositeSentiment.val ≤ composite.val) :
      TowardsLong signals
        { signals with sentiment := some { sig with compositeSentiment := composite } }
  | longTechnical (sig : TechnicalSignal) (present : signals.technical = some sig)
      (side : sig.direction = .long) (confidence : UnitRational)
      (larger : sig.confidence.val ≤ confidence.val) :
      TowardsLong signals
        { signals with technical := some ⟨{ sig with confidence := confidence }⟩ }
  | shortTechnical (sig : TechnicalSignal) (present : signals.technical = some sig)
      (side : sig.direction = .short) (confidence : UnitRational)
      (smaller : confidence.val ≤ sig.confidence.val) :
      TowardsLong signals
        { signals with technical := some ⟨{ sig with confidence := confidence }⟩ }
  | longChan (sig : ChanSignal) (present : signals.chan = some sig)
      (side : sig.direction = .long) (confidence : UnitRational)
      (larger : sig.confidence.val ≤ confidence.val) :
      TowardsLong signals { signals with chan := some ⟨{ sig with confidence := confidence }⟩ }
  | shortChan (sig : ChanSignal) (present : signals.chan = some sig)
      (side : sig.direction = .short) (confidence : UnitRational)
      (smaller : confidence.val ≤ sig.confidence.val) :
      TowardsLong signals { signals with chan := some ⟨{ sig with confidence := confidence }⟩ }

/-- A number cut to the unit interval around zero, and to zero inside a band. -/
def banded (band x : ℚ) : ℚ := if |x| < band then 0 else max (-1) (min x 1)

theorem banded_mono (band : ℚ) : Monotone (banded band) := by
  intro x y ordered
  unfold banded
  by_cases inside : |x| < band <;> by_cases inside' : |y| < band
  · rw [if_pos inside, if_pos inside']
  · rw [if_pos inside, if_neg inside']
    have positive := (abs_nonneg x).trans_lt inside
    rw [abs_lt] at inside inside'
    have above : band ≤ y := by
      by_contra below
      exact inside' ⟨by linarith [inside.1], not_le.mp below⟩
    exact le_max_of_le_right (le_min (by linarith) zero_le_one)
  · rw [if_neg inside, if_pos inside']
    have positive := (abs_nonneg y).trans_lt inside'
    rw [abs_lt] at inside inside'
    have below : x ≤ -band := by
      by_contra above
      exact inside ⟨not_le.mp above, by linarith [inside'.2]⟩
    exact max_le (by norm_num) (min_le_of_left_le (by linarith))
  · rw [if_neg inside, if_neg inside']
    exact max_le_max_left _ (min_le_min_right _ ordered)

theorem signed_cap {x : ℚ} (outside : x ≠ 0) :
    directionSign (if 0 < x then .long else .short) * min |x| 1 = max (-1) (min x 1) := by
  rcases lt_or_gt_of_ne outside with negative | positive
  · rw [if_neg (not_lt.mpr negative.le), abs_of_neg negative, directionSign,
      min_eq_left (by linarith : x ≤ 1), neg_one_mul, ← max_neg_neg, neg_neg, max_comm]
  · rw [if_pos positive, abs_of_pos positive, directionSign, one_mul, max_eq_right]
    exact le_min (by linarith) (by norm_num)

theorem signedConfidence_orderflow (sig : OrderFlowSignal) :
    signedConfidence (orderflowDirectional sig) = banded (1 / 10) sig.bookImbalance := by
  simp only [orderflowDirectional, banded]
  by_cases inside : |sig.bookImbalance| < 1 / 10
  · rw [if_pos inside, if_pos inside]
    exact zero_mul _
  · rw [if_neg inside, if_neg inside]
    apply signed_cap
    intro zero
    rw [zero, abs_zero] at inside
    norm_num at inside

theorem signedConfidence_sentiment (sig : SentimentEvent) :
    signedConfidence (sentimentDirectional sig) =
      banded (1 / 5) ((sig.compositeSentiment.val - 1 / 2) * 2) := by
  set distance := sig.compositeSentiment.val - 1 / 2 with distanceEq
  have doubled : |distance * 2| = |distance| * 2 := by
    rw [abs_mul, abs_two]
  have above : 1 / 2 < sig.compositeSentiment.val ↔ 0 < distance * 2 := by
    constructor <;> intro <;> linarith
  simp only [sentimentDirectional, banded, ← distanceEq]
  by_cases inside : |distance| < 1 / 10
  · have inside' : |distance * 2| < 1 / 5 := by linarith
    rw [if_pos inside, if_pos inside']
    exact zero_mul _
  · have outside : ¬|distance * 2| < 1 / 5 := by linarith
    rw [if_neg inside, if_neg outside]
    simp only [signedConfidence, capConfidence, above, ← doubled]
    apply signed_cap
    intro zero
    rw [mul_eq_zero_iff_right two_ne_zero] at zero
    rw [zero, abs_zero] at inside
    norm_num at inside

theorem nudged_option {α : Type} (toSignal : α → DirectionalSignal) (o : Option α)
    (weight : ∀ a, (toSignal a).weight = 1) :
    List.Forall₂ Nudged (o.map toSignal).toList (o.map toSignal).toList :=
  List.forall₂_same.mpr fun d member => by
    obtain ⟨a, _, rfl⟩ := Option.map_eq_some_iff.mp (Option.mem_toList.mp member)
    exact Nudged.refl (weight a)

/-- The signals of a moved call are the signals of the call, one of them
nudged. -/
theorem TowardsLong.nudged {before after : AnalysisSignals} (moved : TowardsLong before after) :
    List.Forall₂ Nudged (directionalSignals before) (directionalSignals after) := by
  have technical := nudged_option technicalDirectional before.technical fun _ => rfl
  have chan := nudged_option chanDirectional before.chan fun _ => rfl
  have orderflow := nudged_option orderflowDirectional before.orderflow
    fun sig => (orderflowDirectional_fields sig).2.2
  have sentiment := nudged_option sentimentDirectional before.sentiment
    fun sig => (sentimentDirectional_fields sig).2.2
  have macroSignals := nudged_option macroDirectional before.macroSignal fun _ => rfl
  have assemble : ∀ {a a' b b' c c' d d' e e' : List DirectionalSignal},
      List.Forall₂ Nudged a a' → List.Forall₂ Nudged b b' → List.Forall₂ Nudged c c' →
      List.Forall₂ Nudged d d' → List.Forall₂ Nudged e e' →
      List.Forall₂ Nudged (a ++ b ++ c ++ d ++ e) (a' ++ b' ++ c' ++ d' ++ e') :=
    fun ha hb hc hd he =>
      List.rel_append (List.rel_append (List.rel_append (List.rel_append ha hb) hc) hd) he
  cases moved with
  | orderflow sig present imbalance larger =>
      refine assemble technical chan ?_ sentiment macroSignals
      obtain ⟨engine, regime, weight⟩ := orderflowDirectional_fields sig
      obtain ⟨engine', regime', weight'⟩ :=
        orderflowDirectional_fields { sig with bookImbalance := imbalance }
      rw [present]
      refine .cons ⟨engine'.trans engine.symm, regime'.trans regime.symm, weight, weight', ?_⟩ .nil
      rw [signedConfidence_orderflow, signedConfidence_orderflow]
      exact banded_mono _ larger
  | sentiment sig present composite larger =>
      refine assemble technical chan orderflow ?_ macroSignals
      obtain ⟨engine, regime, weight⟩ := sentimentDirectional_fields sig
      obtain ⟨engine', regime', weight'⟩ :=
        sentimentDirectional_fields { sig with compositeSentiment := composite }
      rw [present]
      refine .cons ⟨engine'.trans engine.symm, regime'.trans regime.symm, weight, weight', ?_⟩ .nil
      rw [signedConfidence_sentiment, signedConfidence_sentiment]
      exact banded_mono _ (by dsimp only; linarith)
  | longTechnical sig present side confidence larger =>
      refine assemble ?_ chan orderflow sentiment macroSignals
      rw [present]
      refine .cons ⟨rfl, rfl, rfl, rfl, ?_⟩ .nil
      simpa [signedConfidence, technicalDirectional, side, directionSign] using larger
  | shortTechnical sig present side confidence smaller =>
      refine assemble ?_ chan orderflow sentiment macroSignals
      rw [present]
      refine .cons ⟨rfl, rfl, rfl, rfl, ?_⟩ .nil
      simpa [signedConfidence, technicalDirectional, side, directionSign] using smaller
  | longChan sig present side confidence larger =>
      refine assemble technical ?_ orderflow sentiment macroSignals
      rw [present]
      refine .cons ⟨rfl, rfl, rfl, rfl, ?_⟩ .nil
      simpa [signedConfidence, chanDirectional, side, directionSign] using larger
  | shortChan sig present side confidence smaller =>
      refine assemble technical ?_ orderflow sentiment macroSignals
      rw [present]
      refine .cons ⟨rfl, rfl, rfl, rfl, ?_⟩ .nil
      simpa [signedConfidence, chanDirectional, side, directionSign] using smaller

/-- A moved call has the same macro signal and the same fundamental report. -/
theorem TowardsLong.keeps {before after : AnalysisSignals} (moved : TowardsLong before after) :
    after.macroSignal = before.macroSignal ∧ after.fundamental = before.fundamental := by
  cases moved <;> exact ⟨rfl, rfl⟩

/-! ## The totals of a calm call -/

theorem not_silenced_iff_heard {ds : List DirectionalSignal} {side : Direction}
    (sided : side ≠ .flat) (present : HasSide ds side) :
    silenced (signalOutcome ds) side = false ↔ Heard ds side := by
  by_cases opposed : HasSide ds (opposite side)
  · obtain ⟨long, short⟩ : HasSide ds .long ∧ HasSide ds .short := by
      cases side with
      | long => exact ⟨present, opposed⟩
      | short => exact ⟨opposed, present⟩
      | flat => exact absurd rfl sided
    obtain ⟨⟨top, kept, topSide, topConfidence⟩, largest⟩ := sideConfidence_spec present
    obtain ⟨⟨rival, listed, rivalSide, rivalConfidence⟩, largest'⟩ := sideConfidence_spec opposed
    rw [silenced_eq_false_iff long short sided]
    constructor
    · intro leads s member opponent
      exact ⟨top, kept, topSide, by linarith [largest' s member opponent]⟩
    · intro heard
      obtain ⟨d, member, same, outdone⟩ := heard rival listed rivalSide
      linarith [largest d member same]
  · have absent : ¬ HasSide ds .long ∨ ¬ HasSide ds .short := by
      cases side with
      | long => exact .inr opposed
      | short => exact .inl opposed
      | flat => exact absurd rfl sided
    rw [signalOutcome_noConflict absent]
    refine iff_of_true rfl ?_
    intro s member opponent
    exact absurd ⟨s, member, opponent⟩ opposed

theorem finalContribution_flat {signals : AnalysisSignals} (calm : riskOff signals = false)
    (outcome : ConflictOutcome) {d : DirectionalSignal} (flat : d.direction = .flat) :
    finalContribution signals outcome d = 0 := by
  have inactive : regimeActive d.direction d.regime = false := by simp [regimeActive, flat]
  have standing : standingContribution signals d = 0 := by
    simp [standingContribution, calm, DirectionalSignal.score, flat, directionSign]
  simp [finalContribution, contribution_chainScore, inactive, standing]

section Calm

variable {signals : AnalysisSignals} (calm : riskOff signals = false)
  (noVeto : vetoes signals = false)

include calm noVeto

/-- Without a veto and a risk-off signal a contribution is a signed share. -/
theorem finalContribution_calm (outcome : ConflictOutcome) {d : DirectionalSignal}
    (weight : d.weight = 1) (sided : d.direction ≠ .flat) :
    finalContribution signals outcome d =
      directionSign d.direction * share (!silenced outcome d.direction) d := by
  have noVetoFactor : vetoFactor signals = 1 := by simp [vetoFactor, noVeto]
  have noMacroFactor : macroFactor signals = 1 := by simp [macroFactor, calm]
  have carried : carriedConfidence signals d = d.confidence.val := by
    simp [carriedConfidence, noVetoFactor, noMacroFactor]
  have standing : standingContribution signals d =
      directionSign d.direction * d.confidence.val := by
    simp [standingContribution, calm, noVetoFactor, DirectionalSignal.score, weight]
  rw [finalContribution, contribution_chainScore, ruleSign_eq_directionSign sided, carried,
    standing, share, shareFactor]
  cases regimeActive d.direction d.regime with
  | true =>
      rw [if_pos rfl, if_pos rfl]
      ring
  | false => cases silenced outcome d.direction <;> simp

theorem directionTotal_calm {ds : List DirectionalSignal} (weights : ∀ d ∈ ds, d.weight = 1)
    (side : Direction) (sided : side ≠ .flat) :
    directionTotal signals (signalOutcome ds) ds side =
      directionSign side * sideShare side (Heard ds side) ds := by
  rw [directionTotal, sideShare, ← List.sum_map_mul_left]
  congr 1
  apply List.map_congr_left
  intro d kept
  obtain ⟨member, same⟩ := List.mem_filter.mp kept
  have direction : d.direction = side := of_decide_eq_true same
  have present : HasSide ds side := ⟨d, member, direction⟩
  have heard : (!silenced (signalOutcome ds) side) = decide (Heard ds side) := by
    rw [Bool.eq_iff_iff, Bool.not_eq_true', decide_eq_true_iff]
    exact not_silenced_iff_heard sided present
  rw [finalContribution_calm calm noVeto _ (weights d member) (direction ▸ sided), direction,
    heard]

/-- The gap of the two scores is the relative lead of the two totals. -/
theorem score_gap_calm (clock : Clock) (symbol : String) (timestamp : Option Timestamp) :
    (arbitrate clock symbol timestamp signals).longScore -
        (arbitrate clock symbol timestamp signals).shortScore =
      relativeLead (sideShare .long (Heard (derived signals) .long) (derived signals))
        (sideShare .short (Heard (derived signals) .short) (derived signals)) := by
  have weights : ∀ d ∈ derived signals, d.weight = 1 := fun d member => weight_of_mem member
  have long := directionTotal_calm calm noVeto weights .long (by simp)
  have short := directionTotal_calm calm noVeto weights .short (by simp)
  have flat : directionTotal signals (signalOutcome (derived signals)) (derived signals) .flat =
      0 :=
    directionTotal_eq_zero fun d _ side => finalContribution_flat calm _ side
  have longNonneg := sideShare_nonneg .long (Heard (derived signals) .long) weights
  have shortNonneg := sideShare_nonneg .short (Heard (derived signals) .short) weights
  rw [longScore_eq, shortScore_eq]
  simp only [normalizedScores, directionSum_chain, long, short, flat, directionSign, one_mul,
    neg_one_mul, abs_neg, abs_zero, abs_of_nonneg shortNonneg, max_eq_left longNonneg,
    max_eq_left shortNonneg, min_eq_left zero_le_one, add_zero]
  split
  · exact (sub_div _ _ _).symm
  · rename_i empty
    have noLong : sideShare .long (Heard (derived signals) .long) (derived signals) = 0 := by
      linarith
    have noShort : sideShare .short (Heard (derived signals) .short) (derived signals) = 0 := by
      linarith
    simp [relativeLead, noLong, noShort]

end Calm

/-- **Arbitration is monotone in bullishness.** Of two calls without a risk-off
macro signal, the one with an input moved towards long does not end further
towards short. -/
theorem arbitrate_monotone (clock clock' : Clock) (symbol : String)
    (timestamp : Option Timestamp) (before after : AnalysisSignals)
    (calm : riskOff before = false) (moved : TowardsLong before after) :
    NotFurtherShort (arbitrate clock symbol timestamp before).bias
      (arbitrate clock' symbol timestamp after).bias := by
  obtain ⟨sameMacro, sameReport⟩ := moved.keeps
  have calm' : riskOff after = false := by rw [riskOff, sameMacro]; exact calm
  have sameVeto : vetoes after = vetoes before := by rw [vetoes, sameReport]; rfl
  cases veto : vetoes before with
  | true =>
      have first := (evaluateAndDecide_veto clock (timestamp.getD clock.utcnow) symbol
        (collect clock symbol timestamp before) (derived before) exactRounding veto).1
      have second := (evaluateAndDecide_veto clock' (timestamp.getD clock'.utcnow) symbol
        (collect clock' symbol timestamp after) (derived after) exactRounding
        (sameVeto.trans veto)).1
      rw [arbitrate_eq, arbitrate_eq, first, second]
      exact ⟨0, 0, rfl, rfl, le_refl 0⟩
  | false =>
      have veto' := sameVeto.trans veto
      have first := (evaluateAndDecide_compared clock (timestamp.getD clock.utcnow) symbol
        (collect clock symbol timestamp before) (derived before) exactRounding veto (.inl calm)).1
      have second := (evaluateAndDecide_compared clock' (timestamp.getD clock'.utcnow) symbol
        (collect clock' symbol timestamp after) (derived after) exactRounding veto' (.inl calm')).1
      have more : MoreBullish (derived before) (derived after) :=
        MoreBullish.of_forall₂ moved.nudged
      have lead : (arbitrate clock symbol timestamp before).longScore -
            (arbitrate clock symbol timestamp before).shortScore ≤
          (arbitrate clock' symbol timestamp after).longScore -
            (arbitrate clock' symbol timestamp after).shortScore := by
        rw [score_gap_calm calm veto, score_gap_calm calm' veto']
        apply relativeLead_mono
        · exact sideShare_nonneg _ _ fun d member => weight_of_mem member
        · exact sideShare_nonneg _ _ fun d member => weight_of_mem member
        · apply more.longShares
          simpa using more.heard_long
        · apply more.shortShares
          simpa using more.heard_short
      rw [arbitrate_eq, arbitrate_eq] at lead ⊢
      rw [first, second]
      apply NotFurtherShort.of_compared
      · rw [comparedBias_long_iff, comparedBias_long_iff]
        exact fun wide => wide.trans lead
      · rw [comparedBias_short_iff, comparedBias_short_iff]
        intro wide
        linarith

/-- A short technical signal with order flow inside the noise band. -/
def quietOrderflow : AnalysisSignals where
  technical := some ⟨⟨.short, UnitRational.clamp (1 / 2), .unknown⟩⟩
  orderflow := some ⟨0⟩

/-- The same call with a strong long order flow. -/
def strongOrderflow : AnalysisSignals :=
  { quietOrderflow with orderflow := some ⟨9 / 10⟩ }

/-- Order flow leaves the noise band, creates a conflict and wins it. -/
theorem arbitrate_monotone_orderflow :
    (arbitrate ⟨0, 0, 0⟩ "AAPL" none quietOrderflow).bias = .shortBias ∧
      (arbitrate ⟨0, 0, 0⟩ "AAPL" none strongOrderflow).bias = .longBias ∧
      NotFurtherShort (arbitrate ⟨0, 0, 0⟩ "AAPL" none quietOrderflow).bias
        (arbitrate ⟨0, 0, 0⟩ "AAPL" none strongOrderflow).bias :=
  ⟨by with_unfolding_all decide, by with_unfolding_all decide,
    arbitrate_monotone ⟨0, 0, 0⟩ ⟨0, 0, 0⟩ "AAPL" none quietOrderflow strongOrderflow
      (by with_unfolding_all decide) (.orderflow ⟨0⟩ rfl (9 / 10) (by norm_num))⟩

end TradeOS.Arbitration
