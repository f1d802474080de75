import TradeOS.Data.Tables
import TradeOS.Technical.DirectionMirror

/-!
# Candles upside down

A bar reflected at a price has its body and its range, its shadows exchanged, and is bullish if it
was bearish. A rule is symmetric if it finds the opposite pattern in the reflected bars. The rules
for engulfing bars, for inside bars and for dojis are symmetric: their chains of cases exclude each
other. They compare stretches of a bar, so that in a rounded arithmetic they are symmetric too, as
long as the reflected prices themselves are not rounded (`Candle.Reflects`).

The cases of the pin bar do not exclude each other. A bar whose two shadows are both long enough
enters the case of the long lower shadow, and is not tried again if the lower shadow turns out not
to be twice the upper one. So the four detectors are symmetric for a series exactly if none of its
bars has two long shadows, one of them twice the other: `candlesMirrored_iff`.
-/

set_option autoImplicit false

namespace TradeOS.Technical

open Numeric Programs CheckedArray

/-! ## The reflection -/

/-- A body reflected at a price. -/
def Body.reflect (c : ℚ) (body : Body) : Body := ⟨c - body.openP, c - body.close⟩

/-- A bar reflected at a price: the high becomes the low. -/
def Candle.reflect (c : ℚ) (candle : Candle) : Candle where
  openP := c - candle.openP
  close := c - candle.close
  high := c - candle.low
  low := c - candle.high

/-- The reflection as the arithmetic computes it. -/
def Candle.reflectWith (fl : Rounding) (c : ℚ) (candle : Candle) : Candle where
  openP := fl (c - candle.openP)
  close := fl (c - candle.close)
  high := fl (c - candle.low)
  low := fl (c - candle.high)

/-- The reflected prices are numbers of the arithmetic: nothing is lost in computing them. -/
def Candle.Reflects (fl : Rounding) (c : ℚ) (candle : Candle) : Prop :=
  candle.reflectWith fl c = candle.reflect c

instance (fl : Rounding) (c : ℚ) (candle : Candle) : Decidable (candle.Reflects fl c) :=
  inferInstanceAs (Decidable (_ = _))

/-- The name of the opposite pattern. -/
def oppositeName : String → String
  | "bullish_engulfing" => "bearish_engulfing"
  | "bearish_engulfing" => "bullish_engulfing"
  | "doji_dragonfly" => "doji_gravestone"
  | "doji_gravestone" => "doji_dragonfly"
  | "bullish_pin_bar" => "bearish_pin_bar"
  | "bearish_pin_bar" => "bullish_pin_bar"
  | "bullish_harami" => "bearish_harami"
  | "bearish_harami" => "bullish_harami"
  | name => name

def oppositeFinding (found : Finding) : Finding :=
  (oppositeName found.1, found.2.1.opposite, found.2.2)

/-- The opposite pattern, at the same place and as confident. -/
def CandlePattern.mirror (pattern : CandlePattern) : CandlePattern :=
  { pattern with
    name := oppositeName pattern.name
    direction := pattern.direction.opposite }

namespace Body

variable (fl : Rounding) (c : ℚ) (body : Body)

@[simp] theorem openP_reflect : (body.reflect c).openP = c - body.openP := rfl

@[simp] theorem close_reflect : (body.reflect c).close = c - body.close := rfl

@[simp] theorem size_reflect : (body.reflect c).size fl = body.size fl := by
  have turned : c - body.close - (c - body.openP) = -(body.close - body.openP) := by ring
  rw [size, size, bodySize, bodySize, openP_reflect, close_reflect, turned, fl.round_neg, abs_neg]

@[simp] theorem bullish_reflect : (body.reflect c).bullish = body.bearish :=
  decide_eq_decide.mpr (sub_lt_sub_iff_left c)

@[simp] theorem bearish_reflect : (body.reflect c).bearish = body.bullish :=
  decide_eq_decide.mpr (sub_lt_sub_iff_left c)

/-- No body is both. -/
theorem bearish_eq_false {body : Body} (bullish : body.bullish = true) : body.bearish = false :=
  decide_eq_false (lt_asymm (of_decide_eq_true bullish))

end Body

namespace Candle

variable (fl : Rounding) (c : ℚ) (candle : Candle)

@[simp] theorem totalRange_reflect : (candle.reflect c).totalRange fl = candle.totalRange fl :=
  congrArg fl (sub_sub_sub_cancel_left ..)

@[simp] theorem size_reflect : (candle.reflect c).size fl = candle.size fl :=
  Body.size_reflect fl c ⟨candle.openP, candle.close⟩

@[simp] theorem upper_reflect : (candle.reflect c).upper fl = candle.lower fl := by
  simp only [upper, lower, upperShadow, lowerShadow, reflect, max_sub_sub_left]
  exact congrArg fl (sub_sub_sub_cancel_left ..)

@[simp] theorem lower_reflect : (candle.reflect c).lower fl = candle.upper fl := by
  simp only [upper, lower, upperShadow, lowerShadow, reflect, min_sub_sub_left]
  exact congrArg fl (sub_sub_sub_cancel_left ..)

end Candle

/-! ## The symmetric rules -/

section Rules

variable (fl : Rounding) (c : ℚ)

/-- A rising bar after a falling one is not a falling bar after a rising one. -/
theorem turns_apart {prev curr : Body} (up : (prev.bearish && curr.bullish) = true) :
    ¬(prev.bullish && curr.bearish) = true := by
  intro down
  rw [Bool.and_eq_true] at up down
  rw [Body.bearish_eq_false up.2] at down
  cases down.2

theorem engulfingWith_reflect (minBodyRatio : ℚ) (prev curr : Body) :
    engulfingWith fl minBodyRatio (prev.reflect c) (curr.reflect c) =
      (engulfingWith fl minBodyRatio prev curr).map oppositeFinding := by
  simp only [engulfingWith, engulfingConfidence, Body.size_reflect, Body.bullish_reflect,
    Body.bearish_reflect, Body.openP_reflect, Body.close_reflect, sub_le_sub_iff_left,
    apply_ite (Option.map oppositeFinding), Option.map_none, Option.map_some]
  refine if_congr Iff.rfl rfl ?_
  exact ite_ite_comm _ _ _ _ fun down up => turns_apart up down

theorem harami_reflect (prev curr : Body) :
    harami fl (prev.reflect c) (curr.reflect c) = (harami fl prev curr).map oppositeFinding := by
  simp only [harami, Body.size_reflect, Body.bullish_reflect, Body.bearish_reflect,
    Body.openP_reflect, Body.close_reflect, max_sub_sub_left, min_sub_sub_left,
    sub_le_sub_iff_left, apply_ite (Option.map oppositeFinding), Option.map_none, Option.map_some]
  refine if_congr Iff.rfl rfl (if_congr and_comm ?_ rfl)
  exact ite_ite_comm _ _ _ _ fun down up => turns_apart up down

/-- A half of a range is no less than three tenths of it, as they are computed. -/
theorem round_tenths_le_half {range : ℚ} (ranged : ¬range < tiny fl) :
    fl (range * fl (3 / 10)) ≤ fl (range * fl (1 / 2)) := by
  have positive : 0 ≤ range := (fl.nonneg (by norm_num)).trans (not_lt.mp ranged)
  have shares : fl (3 / 10) ≤ fl (1 / 2) := fl.monotone (by norm_num)
  exact fl.monotone (mul_le_mul_of_nonneg_left shares positive)

theorem dojiWith_reflect (bodyThreshold : ℚ) (candle : Candle) :
    dojiWith fl bodyThreshold (candle.reflect c) =
      (dojiWith fl bodyThreshold candle).map oppositeFinding := by
  simp only [dojiWith, Candle.totalRange_reflect, Candle.size_reflect, Candle.upper_reflect,
    Candle.lower_reflect, apply_ite (Option.map oppositeFinding), Option.map_none,
    Option.map_some]
  by_cases short : candle.totalRange fl < tiny fl
  · rw [if_pos short, if_pos short]
  rw [if_neg short, if_neg short]
  have shares := round_tenths_le_half fl short
  refine if_congr Iff.rfl ?_ rfl
  by_cases legs : fl (candle.totalRange fl * fl (3 / 10)) < candle.lower fl ∧
      fl (candle.totalRange fl * fl (3 / 10)) < candle.upper fl
  · rw [if_pos legs, if_pos legs.symm]
    rfl
  · rw [if_neg legs, if_neg (mt And.symm legs)]
    -- two shadows over a half of the range are two over three tenths
    exact ite_ite_comm _ _ _ _ fun upper lower =>
      legs ⟨shares.trans_lt lower, shares.trans_lt upper⟩

/-- A bar with two long shadows, one of them twice the other. -/
structure TwoShadowed (noseRatio : ℚ) (candle : Candle) : Prop where
  ranged : tiny fl ≤ candle.totalRange fl
  small : candle.size fl < fl (candle.totalRange fl * fl (35 / 100))
  lower : fl (candle.totalRange fl * noseRatio) ≤ candle.lower fl
  upper : fl (candle.totalRange fl * noseRatio) ≤ candle.upper fl
  uneven : fl (candle.upper fl * 2) < candle.lower fl ∨ fl (candle.lower fl * 2) < candle.upper fl

/-- The rule for pin bars is symmetric at a bar exactly if the bar has no two such shadows. -/
theorem pinBarWith_reflect_iff (noseRatio : ℚ) (candle : Candle) :
    pinBarWith fl noseRatio (candle.reflect c) =
        (pinBarWith fl noseRatio candle).map oppositeFinding ↔
      ¬TwoShadowed fl noseRatio candle := by
  simp only [pinBarWith, Candle.totalRange_reflect, Candle.size_reflect, Candle.upper_reflect,
    Candle.lower_reflect, apply_ite (Option.map oppositeFinding), Option.map_none,
    Option.map_some]
  by_cases short : candle.totalRange fl < tiny fl
  · rw [if_pos short, if_pos short]
    exact iff_of_true rfl fun shadowed => shadowed.ranged.not_gt short
  rw [if_neg short, if_neg short]
  by_cases both : (fl (candle.totalRange fl * noseRatio) ≤ candle.upper fl ∧
      candle.size fl < fl (candle.totalRange fl * fl (35 / 100))) ∧
    (fl (candle.totalRange fl * noseRatio) ≤ candle.lower fl ∧
      candle.size fl < fl (candle.totalRange fl * fl (35 / 100)))
  · rw [if_pos both.1, if_pos both.2]
    have shadowed_iff : TwoShadowed fl noseRatio candle ↔
        fl (candle.upper fl * 2) < candle.lower fl ∨
          fl (candle.lower fl * 2) < candle.upper fl :=
      ⟨TwoShadowed.uneven, fun uneven =>
        ⟨not_lt.mp short, both.1.2, both.2.1, both.1.1, uneven⟩⟩
    rw [shadowed_iff]
    by_cases long : fl (candle.upper fl * 2) < candle.lower fl
    · rw [if_pos long]
      refine iff_of_false ?_ (not_not.mpr (.inl long))
      split_ifs <;> simp [oppositeFinding, oppositeName]
    · by_cases tall : fl (candle.lower fl * 2) < candle.upper fl
      · rw [if_neg long, if_pos tall]
        exact iff_of_false nofun (not_not.mpr (.inr tall))
      · rw [if_neg long, if_neg tall]
        exact iff_of_true rfl (not_or_intro long tall)
  · refine iff_of_true ?_ fun shadowed =>
      both ⟨⟨shadowed.upper, shadowed.small⟩, shadowed.lower, shadowed.small⟩
    exact ite_ite_comm _ _ _ _ (not_and.mp both)

end Rules

/-! ## The scans -/

/-- The bar at a place. -/
def candleAt (bars : List Candle) (i : ℕ) : Candle := bars.getD i ⟨0, 0, 0, 0⟩

section Scans

variable {bars : List Candle} {i : ℕ}

theorem readAt_map (column : Candle → ℚ) (inside : i < bars.length) :
    readAt (bars.map column) i = .ok (column (candleAt bars i)) := by
  rw [readAt_eq_getD (by rwa [List.length_map]) (column ⟨0, 0, 0, 0⟩), List.getD_map]
  rfl

theorem candleAt_reflect (c : ℚ) (inside : i < bars.length) :
    candleAt (bars.map (Candle.reflect c)) i = (candleAt bars i).reflect c := by
  simp [candleAt, inside]

theorem exists_candleAt {bar : Candle} (member : bar ∈ bars) :
    ∃ i < bars.length, candleAt bars i = bar := by
  obtain ⟨i, inside, rfl⟩ := List.mem_iff_getElem.mp member
  exact ⟨i, inside, List.getD_eq_getElem _ _ inside⟩

def Candle.body (candle : Candle) : Body := ⟨candle.openP, candle.close⟩

theorem bodyAt_eq (inside : i < bars.length) :
    bodyAt (bars.map Candle.openP) (bars.map Candle.close) i = .ok (candleAt bars i).body := by
  rw [bodyAt, readAt_map _ inside, readAt_map _ inside]
  rfl

/-- A detector of opens and closes, on bars. -/
def onBodies (detect : List ℚ → List ℚ → Except ArrayError (List CandlePattern))
    (bars : List Candle) : Except ArrayError (List CandlePattern) :=
  detect (bars.map Candle.openP) (bars.map Candle.close)

/-- A detector of the four columns, on bars. -/
def onCandles (detect : List ℚ → List ℚ → List ℚ → List ℚ → Except ArrayError (List CandlePattern))
    (bars : List Candle) : Except ArrayError (List CandlePattern) :=
  detect (bars.map Candle.openP) (bars.map Candle.close) (bars.map Candle.high)
    (bars.map Candle.low)

/-- What a rule finds at the places of a series. -/
def reports (found : ℕ → Option Finding) (places : List ℕ) : List CandlePattern :=
  places.flatMap fun i => report i (found i)

theorem scanPairs_eq (rule : Body → Body → Option Finding) (bars : List Candle) :
    onBodies (scanPairs rule) bars =
      .ok (reports (fun i => rule (candleAt bars (i - 1)).body (candleAt bars i).body)
        (List.range' 1 (bars.length - 1))) := by
  rw [onBodies, scanPairs, List.length_map]
  refine collect_eq fun i member => ?_
  obtain ⟨after, inside⟩ := List.mem_range'_1.mp member
  rw [bodyAt_eq (by omega), bodyAt_eq (by omega)]
  rfl

theorem scanBars_eq (rule : Candle → Option Finding) (bars : List Candle) :
    onCandles (scanBars fun _ => rule) bars =
      .ok (reports (fun i => rule (candleAt bars i)) (List.range bars.length)) := by
  rw [onCandles, scanBars, List.length_map]
  refine collect_eq fun i member => ?_
  have inside := List.mem_range.mp member
  rw [bodyAt_eq inside, readAt_map _ inside, readAt_map _ inside]
  rfl

theorem map_mirror_reports (found : ℕ → Option Finding) (places : List ℕ) :
    (reports found places).map CandlePattern.mirror =
      reports (fun i => (found i).map oppositeFinding) places := by
  rw [reports, reports, List.map_flatMap]
  refine congrArg (fun f => places.flatMap f) (funext fun i => ?_)
  cases found i <;> rfl

theorem mem_reports {found : ℕ → Option Finding} {places : List ℕ} {pattern : CandlePattern} :
    pattern ∈ reports found places ↔ pattern.idx ∈ places ∧
      found pattern.idx = some (pattern.name, pattern.direction, pattern.confidence) := by
  simp only [reports, report, List.mem_flatMap, List.mem_map, Option.mem_toList]
  constructor
  · rintro ⟨i, member, finding, here, rfl⟩
    exact ⟨member, here⟩
  · rintro ⟨member, here⟩
    exact ⟨pattern.idx, member, _, here, rfl⟩

/-- Two scans report the same exactly if they find the same at every place. -/
theorem reports_eq_iff {found other : ℕ → Option Finding} {places : List ℕ} :
    reports found places = reports other places ↔ ∀ i ∈ places, found i = other i := by
  constructor
  · intro same i member
    refine Option.ext fun finding => ?_
    have listed := @mem_reports found places ⟨finding.1, finding.2.1, finding.2.2, i⟩
    rw [same, mem_reports, and_iff_right member, and_iff_right member] at listed
    exact listed.symm
  · intro agree
    refine List.flatMap_congr fun i member => ?_
    rw [agree i member]

/-- The patterns of the reflected bars are the opposite ones. -/
def MirrorsScan (reflection : Candle → Candle)
    (detect : List Candle → Except ArrayError (List CandlePattern)) (bars : List Candle) : Prop :=
  Returns (detect bars) fun found =>
    detect (bars.map reflection) = .ok (found.map CandlePattern.mirror)

/-- A computed reflection that loses nothing is the exact one. -/
theorem mirrorsScan_reflectWith_iff {fl : Rounding} {c : ℚ}
    {detect : List Candle → Except ArrayError (List CandlePattern)} {bars : List Candle}
    (exact : ∀ bar ∈ bars, bar.Reflects fl c) :
    MirrorsScan (Candle.reflectWith fl c) detect bars ↔
      MirrorsScan (Candle.reflect c) detect bars := by
  rw [MirrorsScan, List.map_congr_left exact]
  rfl

theorem mirrorsScan_pairs {c : ℚ} {rule : Body → Body → Option Finding}
    (symmetric : ∀ prev curr, rule (prev.reflect c) (curr.reflect c) =
      (rule prev curr).map oppositeFinding) (bars : List Candle) :
    MirrorsScan (Candle.reflect c) (onBodies (scanPairs rule)) bars := by
  rw [MirrorsScan, scanPairs_eq, returns_ok_iff, scanPairs_eq, map_mirror_reports,
    List.length_map, Except.ok.injEq, reports_eq_iff]
  intro i member
  obtain ⟨after, inside⟩ := List.mem_range'_1.mp member
  rw [candleAt_reflect c (by omega), candleAt_reflect c (by omega)]
  exact symmetric (candleAt bars (i - 1)).body (candleAt bars i).body

theorem mirrorsScan_bars_iff {c : ℚ} {rule : Candle → Option Finding} {bars : List Candle} :
    MirrorsScan (Candle.reflect c) (onCandles (scanBars fun _ => rule)) bars ↔
      ∀ bar ∈ bars, rule (bar.reflect c) = (rule bar).map oppositeFinding := by
  rw [MirrorsScan, scanBars_eq, returns_ok_iff, scanBars_eq, map_mirror_reports,
    List.length_map, Except.ok.injEq, reports_eq_iff]
  constructor
  · intro each bar member
    obtain ⟨i, inside, rfl⟩ := exists_candleAt member
    rw [← candleAt_reflect c inside]
    exact each i (List.mem_range.mpr inside)
  · intro each i member
    have inside := List.mem_range.mp member
    rw [candleAt_reflect c inside]
    refine each _ ?_
    rw [candleAt, List.getD_eq_getElem _ _ inside]
    exact List.getElem_mem inside

end Scans

/-! ## The detectors -/

/-- The four detectors find the opposite patterns in the reflected bars. -/
structure CandlesMirrored (fl : Rounding) (minBodyRatio bodyThreshold noseRatio c : ℚ)
    (bars : List Candle) : Prop where
  engulfing : MirrorsScan (Candle.reflectWith fl c)
    (onBodies (detectEngulfingWith fl minBodyRatio)) bars
  doji : MirrorsScan (Candle.reflectWith fl c) (onCandles (detectDojiWith fl bodyThreshold)) bars
  pinBar : MirrorsScan (Candle.reflectWith fl c) (onCandles (detectPinBarWith fl noseRatio)) bars
  harami : MirrorsScan (Candle.reflectWith fl c) (onBodies (detectHarami fl)) bars

/-- **In every arithmetic the detectors are symmetric for a series whose reflected prices are not
rounded exactly if none of its bars has two long shadows, one of them twice the other.** -/
theorem candlesMirrored_iff (fl : Rounding) (minBodyRatio bodyThreshold noseRatio c : ℚ)
    (bars : List Candle) (exact : ∀ bar ∈ bars, bar.Reflects fl c) :
    CandlesMirrored fl minBodyRatio bodyThreshold noseRatio c bars ↔
      ∀ bar ∈ bars, ¬TwoShadowed fl noseRatio bar := by
  have moved (detect : List Candle → Except ArrayError (List CandlePattern)) :=
    @mirrorsScan_reflectWith_iff fl c detect bars exact
  have pins := (moved _).trans (@mirrorsScan_bars_iff c (pinBarWith fl noseRatio) bars)
  simp only [pinBarWith_reflect_iff] at pins
  constructor
  · exact fun mirrored => pins.mp mirrored.pinBar
  · exact fun apart =>
      { engulfing :=
          (moved _).mpr (mirrorsScan_pairs (engulfingWith_reflect fl c minBodyRatio) bars)
        doji := (moved _).mpr
          (mirrorsScan_bars_iff.mpr fun bar _ => dojiWith_reflect fl c bodyThreshold bar)
        pinBar := pins.mpr apart
        harami := (moved _).mpr (mirrorsScan_pairs (harami_reflect fl c) bars) }

/-- A falling bar, a rising one around it, and a doji with a long lower shadow. -/
def engulfed : List Candle :=
  [⟨10, 9, 21 / 2, 17 / 2⟩, ⟨17 / 2, 21 / 2, 11, 8⟩, ⟨10, 10, 41 / 4, 7⟩]

theorem candlesMirrored_engulfed :
    CandlesMirrored binary64 (binary64 (1 / 2)) (binary64 (1 / 10)) (binary64 (3 / 10)) 20
      engulfed := by
  refine (candlesMirrored_iff _ _ _ _ _ _ (by decide +kernel)).mpr fun bar member shadowed => ?_
  rcases List.mem_cons.mp member with rfl | inside
  · exact absurd shadowed.small (by decide +kernel)
  rcases List.mem_cons.mp inside with rfl | last
  · exact absurd shadowed.small (by decide +kernel)
  · rw [List.mem_singleton.mp last] at shadowed
    exact absurd shadowed.upper (by decide +kernel)

/-- A bar with a long upper shadow and a lower one of three tenths of its range. -/
def twoShadows : Candle := ⟨3, 7 / 2, 10, 0⟩

/-- The long upper shadow is not reported, and upside down it is. -/
theorem pinBar_not_mirrored : ¬ ∀ (c : ℚ) (bars : List Candle),
    CandlesMirrored binary64 (binary64 (1 / 2)) (binary64 (1 / 10)) (binary64 (3 / 10)) c bars := by
  intro always
  have pinned := (mirrorsScan_reflectWith_iff (by decide +kernel)).mp
    (always 10 [twoShadows]).pinBar
  have symmetric := mirrorsScan_bars_iff.mp pinned twoShadows (List.mem_singleton_self _)
  refine (pinBarWith_reflect_iff _ 10 _ twoShadows).mp symmetric ⟨?_, ?_, ?_, ?_, .inr ?_⟩ <;>
    decide +kernel

/-- A bar from a tenth to a fifth, and its range. -/
def rising : Candle := ⟨binary64 (1 / 10), binary64 (1 / 5), 1, 0⟩

/-- Where the reflected prices are rounded, the reflected bar can be a doji when the bar is none. -/
theorem doji_reflectWith_rising : doji binary64 rising = none ∧
    doji binary64 (rising.reflectWith binary64 1) ≠ none := by
  decide +kernel

end TradeOS.Technical
