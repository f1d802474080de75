import TradeOS.Numeric.Binary64
import TradeOS.Technical.Patterns

/-!
# Candle patterns

Patterns of one bar or of two in a row, read off its body, the stretch between open and close, and
its shadows, the stretches above and below. A rule says what a bar shows; a scan reads the bars and
reports what the rule finds at each of them. The rules compute in a rounded arithmetic.

The scans return for columns of one length (`returns_scanCandlePatterns`). The close before a
hammer, which the source reads and does not use, is left out.
-/

set_option autoImplicit false

namespace TradeOS.Technical

open Numeric Programs CheckedArray

structure CandlePattern where
  name : String
  direction : PatternDirection
  confidence : ℚ
  idx : ℕ
  deriving DecidableEq, Repr

section Shapes

variable (fl : Rounding)

def bodySize (openP close : ℚ) : ℚ := |fl (close - openP)|

def upperShadow (openP close high : ℚ) : ℚ := fl (high - max openP close)

def lowerShadow (openP close low : ℚ) : ℚ := fl (min openP close - low)

def isBullish (openP close : ℚ) : Bool := openP < close

def isBearish (openP close : ℚ) : Bool := close < openP

/-- What a rule finds at a bar. -/
abbrev Finding := String × PatternDirection × ℚ

/-- A size below which a stretch counts as none, `1e-6`. -/
def tiny : ℚ := fl (1 / 10 ^ 6)

/-! ## Rules for two bars -/

/-- The body of a bar. -/
structure Body where
  openP : ℚ
  close : ℚ

namespace Body

def size (body : Body) : ℚ := bodySize fl body.openP body.close

def bullish (body : Body) : Bool := isBullish body.openP body.close

def bearish (body : Body) : Bool := isBearish body.openP body.close

end Body

/-- The confidence of `detect_engulfing`. -/
def engulfingConfidence (prev curr : Body) : ℚ :=
  min (fl (9 / 10)) (fl (fl (6 / 10) + fl (fl (curr.size fl / prev.size fl) * fl (3 / 10))))

/-- The rule of `detect_engulfing`. -/
def engulfingWith (minBodyRatio : ℚ) (prev curr : Body) : Option Finding :=
  let confidence := engulfingConfidence fl prev curr
  if prev.size fl < tiny fl ∨ curr.size fl < tiny fl then none
  else if prev.bearish && curr.bullish then
    if curr.openP ≤ prev.close ∧ prev.openP ≤ curr.close ∧
        fl (prev.size fl * minBodyRatio) ≤ curr.size fl then
      some ("bullish_engulfing", .bullish, confidence)
    else none
  else if prev.bullish && curr.bearish then
    if prev.close ≤ curr.openP ∧ curr.close ≤ prev.openP ∧
        fl (prev.size fl * minBodyRatio) ≤ curr.size fl then
      some ("bearish_engulfing", .bearish, confidence)
    else none
  else none

/-- The rule with its default ratio. -/
def engulfing : Body → Body → Option Finding := engulfingWith fl (fl (1 / 2))

/-- The rule of `detect_harami`. -/
def harami (prev curr : Body) : Option Finding :=
  if prev.size fl < tiny fl then none
  else if max curr.openP curr.close ≤ max prev.openP prev.close ∧
      min prev.openP prev.close ≤ min curr.openP curr.close then
    if prev.bearish && curr.bullish then some ("bullish_harami", .bullish, fl (7 / 10))
    else if prev.bullish && curr.bearish then some ("bearish_harami", .bearish, fl (7 / 10))
    else if curr.size fl < fl (prev.size fl * fl (1 / 10)) then
      some ("harami_doji", .neutral, fl (65 / 100))
    else none
  else none

/-! ## Rules for one bar -/

structure Candle where
  openP : ℚ
  close : ℚ
  high : ℚ
  low : ℚ
  deriving DecidableEq

namespace Candle

def totalRange (candle : Candle) : ℚ := fl (candle.high - candle.low)

def size (candle : Candle) : ℚ := bodySize fl candle.openP candle.close

def upper (candle : Candle) : ℚ := upperShadow fl candle.openP candle.close candle.high

def lower (candle : Candle) : ℚ := lowerShadow fl candle.openP candle.close candle.low

end Candle

/-- The rule of `detect_doji`. -/
def dojiWith (bodyThreshold : ℚ) (candle : Candle) : Option Finding :=
  let range := candle.totalRange fl
  if range < tiny fl then none
  else if fl (candle.size fl / range) < bodyThreshold then
    if fl (range * fl (3 / 10)) < candle.upper fl ∧
        fl (range * fl (3 / 10)) < candle.lower fl then
      some ("doji_long_leg", .neutral, fl (7 / 10))
    else if fl (range * fl (1 / 2)) < candle.lower fl then
      some ("doji_dragonfly", .bullish, fl (75 / 100))
    else if fl (range * fl (1 / 2)) < candle.upper fl then
      some ("doji_gravestone", .bearish, fl (75 / 100))
    else some ("doji", .neutral, fl (65 / 100))
  else none

/-- The rule with its default threshold. -/
def doji : Candle → Option Finding := dojiWith fl (fl (1 / 10))

/-- The rule of `detect_hammer_hanging`, with its default ratio: what a bar with a long lower shadow
shows depends on the mean of the five closes before it, if there are more than five. -/
def hammerHanging (recentTrend : Option ℚ) (candle : Candle) : Option Finding :=
  if candle.totalRange fl < tiny fl then none
  else if candle.size fl < tiny fl then none
  else if fl (candle.size fl * 2) ≤ candle.lower fl ∧
      candle.upper fl < fl (candle.size fl * fl (1 / 2)) then
    match recentTrend with
    | some trend =>
        if candle.close < trend then some ("hammer", .bullish, fl (75 / 100))
        else if trend < candle.close then some ("hanging_man", .bearish, fl (7 / 10))
        else some ("hammer_like", .bullish, fl (65 / 100))
    | none => some ("hammer_like", .bullish, fl (65 / 100))
  else none

/-- The rule of `detect_pin_bar`. -/
def pinBarWith (noseRatio : ℚ) (candle : Candle) : Option Finding :=
  let range := candle.totalRange fl
  if range < tiny fl then none
  else if fl (range * noseRatio) ≤ candle.lower fl ∧
      candle.size fl < fl (range * fl (35 / 100)) then
    if fl (candle.upper fl * 2) < candle.lower fl then
      some ("bullish_pin_bar", .bullish, fl (8 / 10))
    else none
  else if fl (range * noseRatio) ≤ candle.upper fl ∧
      candle.size fl < fl (range * fl (35 / 100)) then
    if fl (candle.lower fl * 2) < candle.upper fl then
      some ("bearish_pin_bar", .bearish, fl (8 / 10))
    else none
  else none

/-- The rule with its default ratio. -/
def pinBar : Candle → Option Finding := pinBarWith fl (fl (3 / 10))

end Shapes

/-! ## Scans -/

/-- A finding at an index. -/
def report (idx : ℕ) (found : Option Finding) : List CandlePattern :=
  found.toList.map fun finding => ⟨finding.1, finding.2.1, finding.2.2, idx⟩

/-- The body at an index. -/
def bodyAt (opens closes : List ℚ) (i : ℕ) : Except ArrayError Body := do
  let openP ← readAt opens i
  let close ← readAt closes i
  return ⟨openP, close⟩

/-- A loop over the bars with the bar before. -/
def scanPairs (rule : Body → Body → Option Finding) (opens closes : List ℚ) :
    Except ArrayError (List CandlePattern) :=
  collect (fun i => do
    let prev ← bodyAt opens closes (i - 1)
    let curr ← bodyAt opens closes i
    return report i (rule prev curr)) (List.range' 1 (opens.length - 1))

/-- A loop over the bars; the rule is told the index. -/
def scanBars (rule : ℕ → Candle → Option Finding) (opens closes highs lows : List ℚ) :
    Except ArrayError (List CandlePattern) :=
  collect (fun i => do
    let body ← bodyAt opens closes i
    let high ← readAt highs i
    let low ← readAt lows i
    return report i (rule i ⟨body.openP, body.close, high, low⟩)) (List.range opens.length)

section Detectors

variable (fl : Rounding)

/-- `detect_engulfing`. -/
def detectEngulfingWith (minBodyRatio : ℚ) (opens closes : List ℚ) :
    Except ArrayError (List CandlePattern) :=
  scanPairs (engulfingWith fl minBodyRatio) opens closes

/-- `detect_doji`. -/
def detectDojiWith (bodyThreshold : ℚ) (opens closes highs lows : List ℚ) :
    Except ArrayError (List CandlePattern) :=
  scanBars (fun _ => dojiWith fl bodyThreshold) opens closes highs lows

/-- `detect_pin_bar`. -/
def detectPinBarWith (noseRatio : ℚ) (opens closes highs lows : List ℚ) :
    Except ArrayError (List CandlePattern) :=
  scanBars (fun _ => pinBarWith fl noseRatio) opens closes highs lows

def detectEngulfing (opens closes : List ℚ) : Except ArrayError (List CandlePattern) :=
  detectEngulfingWith fl (fl (1 / 2)) opens closes

def detectDoji (opens closes highs lows : List ℚ) : Except ArrayError (List CandlePattern) :=
  detectDojiWith fl (fl (1 / 10)) opens closes highs lows

def detectHammerHanging (opens closes highs lows : List ℚ) :
    Except ArrayError (List CandlePattern) :=
  let recentTrend (i : ℕ) := if 5 < i then some (fl.mean (slice closes (i - 5) i)) else none
  scanBars (fun i => hammerHanging fl (recentTrend i)) opens closes highs lows

def detectPinBar (opens closes highs lows : List ℚ) : Except ArrayError (List CandlePattern) :=
  detectPinBarWith fl (fl (3 / 10)) opens closes highs lows

def detectHarami (opens closes : List ℚ) : Except ArrayError (List CandlePattern) :=
  scanPairs (harami fl) opens closes

/-- `scan_candle_patterns`: the patterns, the most confident first. -/
def scanCandlePatterns (opens closes highs lows : List ℚ) :
    Except ArrayError (List CandlePattern) := do
  let engulfed ← detectEngulfing fl opens closes
  let dojis ← detectDoji fl opens closes highs lows
  let hammers ← detectHammerHanging fl opens closes highs lows
  let pins ← detectPinBar fl opens closes highs lows
  let haramis ← detectHarami fl opens closes
  return (engulfed ++ dojis ++ hammers ++ pins ++ haramis).insertionSort fun pattern other =>
    other.confidence ≤ pattern.confidence

end Detectors

section Total

variable {opens closes highs lows : List ℚ}

theorem returns_bodyAt {i : ℕ} (sameOpens : opens.length = closes.length)
    (inside : i < closes.length) : Returns (bodyAt opens closes i) fun _ => True := by
  refine (returns_readAt_total (sameOpens ▸ inside)).bind fun openP _ => ?_
  exact (returns_readAt_total inside).bind fun close _ => by simp

theorem returns_scanPairs (rule : Body → Body → Option Finding)
    (sameOpens : opens.length = closes.length) :
    Returns (scanPairs rule opens closes) fun _ => True := by
  refine returns_collect_total fun i member => ?_
  obtain ⟨after, inside⟩ := List.mem_range'_1.mp member
  refine (returns_bodyAt sameOpens (by omega)).bind fun prev _ => ?_
  exact (returns_bodyAt sameOpens (by omega)).bind fun curr _ => by simp

theorem returns_scanBars (rule : ℕ → Candle → Option Finding)
    (sameOpens : opens.length = closes.length) (sameHighs : highs.length = closes.length)
    (sameLows : lows.length = closes.length) :
    Returns (scanBars rule opens closes highs lows) fun _ => True := by
  refine returns_collect_total fun i member => ?_
  have inside : i < closes.length := sameOpens ▸ List.mem_range.mp member
  refine (returns_bodyAt sameOpens inside).bind fun body _ => ?_
  refine (returns_readAt_total (sameHighs ▸ inside)).bind fun high _ => ?_
  exact (returns_readAt_total (sameLows ▸ inside)).bind fun low _ => by simp

theorem returns_scanCandlePatterns (fl : Rounding) (sameOpens : opens.length = closes.length)
    (sameHighs : highs.length = closes.length) (sameLows : lows.length = closes.length) :
    Returns (scanCandlePatterns fl opens closes highs lows) fun _ => True := by
  refine (returns_scanPairs _ sameOpens).bind fun engulfed _ => ?_
  refine (returns_scanBars _ sameOpens sameHighs sameLows).bind fun dojis _ => ?_
  refine (returns_scanBars _ sameOpens sameHighs sameLows).bind fun hammers _ => ?_
  refine (returns_scanBars _ sameOpens sameHighs sameLows).bind fun pins _ => ?_
  exact (returns_scanPairs _ sameOpens).bind fun haramis _ => by simp

end Total

end TradeOS.Technical
