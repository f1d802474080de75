import TradeOS.Data.MarketData
import TradeOS.Data.Slots
import TradeOS.Numeric.Binary64

/-!
# Checks of bars

The validator reports issues of single bars and of a sequence of bars: timestamps that occur twice,
and, in the order of time, gaps between adjacent bars.

A bar that its schema accepts can only break the two comparisons that the schema leaves out, that of
the high with the close and that of the low with the open (`validate_eq_nil_iff`). A sequence on the
grid of its timeframe has a clean report exactly if its bars are in order, fill the grid from the
first to the last one, and open near the close before (`validateSequence_spec`).

The change of a price is computed in floats, so it is the arithmetic's (`fl`) that is compared with
one half.

The table of the expected gaps has no entry for months, which get one day. So every step of a
monthly sequence is reported.
-/

set_option autoImplicit false

namespace TradeOS.BarValidator

open MarketData Numeric Slots
open Store (TimeFrame)

/-! ## Issues -/

inductive Severity where
  | warning
  | error
  | critical
  deriving DecidableEq, Repr

/-- The types of the issues of bars. -/
inductive IssueType where
  | invalidOhlc
  | invalidHigh
  | invalidLow
  | invalidPrice
  | invalidVolume
  | invalidQuoteVolume
  | duplicateTimestamps
  | timeGap
  | priceGap
  deriving DecidableEq, Repr

/-- A bar with the volume in the quote currency. -/
structure QuotedBar extends MarketBar where
  quoteVolume : Option NonnegRational := none

structure ValidationIssue where
  issueType : IssueType
  severity : Severity
  description : String
  data : Option QuotedBar := none
  field : Option String := none

/-- An issue, if there is one. -/
def flag (found : Prop) [Decidable found] (issue : ValidationIssue) : List ValidationIssue :=
  if found then [issue] else []

@[simp] theorem flag_eq_nil_iff {found : Prop} [Decidable found] {issue : ValidationIssue} :
    flag found issue = [] ↔ ¬ found := by
  unfold flag
  split
  · next some => exact iff_of_false (List.cons_ne_nil _ _) (not_not.mpr some)
  · next none => exact iff_of_true rfl none

/-! ## Single bars -/

/-- `BarValidator.validate`. -/
def validate (bar : QuotedBar) : List ValidationIssue :=
  flag (bar.high.val < bar.low.val)
      { issueType := .invalidOhlc
        severity := .critical
        description := "High (" ++ formatDefault bar.high.val ++ ") < Low (" ++
          formatDefault bar.low.val ++ ")"
        data := some bar
        field := some "high/low" } ++
    flag (bar.high.val < bar.opening.val ∨ bar.high.val < bar.close.val)
      { issueType := .invalidHigh
        severity := .error
        description := "High (" ++ formatDefault bar.high.val ++ ") < Open (" ++
          formatDefault bar.opening.val ++ ") or Close (" ++ formatDefault bar.close.val ++ ")"
        data := some bar
        field := some "high" } ++
    flag (bar.opening.val < bar.low.val ∨ bar.close.val < bar.low.val)
      { issueType := .invalidLow
        severity := .error
        description := "Low (" ++ formatDefault bar.low.val ++ ") > Open (" ++
          formatDefault bar.opening.val ++ ") or Close (" ++ formatDefault bar.close.val ++ ")"
        data := some bar
        field := some "low" } ++
    flag (bar.opening.val ≤ 0)
      { issueType := .invalidPrice
        severity := .critical
        description := "Open price <= 0: " ++ formatDefault bar.opening.val
        data := some bar
        field := some "open" } ++
    flag (bar.volume.val < 0)
      { issueType := .invalidVolume
        severity := .critical
        description := "Negative volume: " ++ formatDefault bar.volume.val
        data := some bar
        field := some "volume" } ++
    flag (bar.quoteVolume.any fun volume => volume.val < 0)
      { issueType := .invalidQuoteVolume
        severity := .error
        description := "Negative quote volume: " ++
          ((bar.quoteVolume.map fun volume => formatDefault volume.val).getD "None")
        data := some bar
        field := some "quote_volume" }

/-- A bar that passes its schema is clean exactly if it passes the two comparisons that the schema
does not make. -/
theorem validate_eq_nil_iff (bar : QuotedBar) :
    validate bar = [] ↔ bar.close.val ≤ bar.high.val ∧ bar.low.val ≤ bar.opening.val := by
  have quoted : ¬ (bar.quoteVolume.any fun volume => volume.val < 0) = true := by
    cases bar.quoteVolume with
    | none => exact Bool.false_ne_true
    | some volume => simp [volume.property]
  have high := bar.high_ge_open
  have close := bar.close_ge_low
  simp only [validate, List.append_eq_nil_iff, flag_eq_nil_iff, not_or, not_lt, not_le]
  constructor
  · rintro ⟨⟨⟨⟨⟨-, -, below⟩, above, -⟩, -⟩, -⟩, -⟩
    exact ⟨below, above⟩
  · rintro ⟨below, above⟩
    exact ⟨⟨⟨⟨⟨close.trans below, high, below⟩, above, close⟩, bar.opening.property⟩,
      bar.volume.property⟩, quoted⟩

/-! ## Sequences -/

/-- `_expected_gap_seconds`. -/
def expectedGapSeconds : TimeFrame → ℕ
  | .s1 => 1
  | .m1 => 60
  | .m5 => 300
  | .m15 => 900
  | .m30 => 1800
  | .h1 => 3600
  | .h4 => 14400
  | .d1 => 86400
  | .w1 => 604800
  | .mn => 86400

/-- The seconds from one bar to another. -/
def gapSeconds (prev bar : QuotedBar) : ℚ := (bar.timestamp - prev.timestamp : ℤ) / 1000000

/-- The change from a close to the next open, as a share of the close, in an arithmetic. -/
def priceChange (fl : Rounding) (prev bar : QuotedBar) : ℚ :=
  fl (|fl (bar.opening.val - prev.close.val)| / prev.close.val)

/-- The issues of a bar and the one before it. -/
def pairIssues (fl : Rounding) (prev bar : QuotedBar) : List ValidationIssue :=
  flag (expectedGapSeconds prev.timeframe * (3 / 2) < gapSeconds prev bar)
      { issueType := .timeGap
        severity := .warning
        description := "Large time gap: " ++ formatFixed 1 (gapSeconds prev bar / 3600) ++
          " hours between bars"
        data := some bar
        field := some "timestamp" } ++
    flag (0 < prev.close.val ∧ 1 / 2 < priceChange fl prev bar)
      { issueType := .priceGap
        severity := .warning
        description := "Large price gap: " ++ formatFixed 1 (fl (priceChange fl prev bar * 100)) ++
          "% between bars"
        data := some bar
        field := some "open" }

/-- The loop over the bars in order, with the bar before. -/
def sequenceIssues (fl : Rounding) :
    Option QuotedBar → List QuotedBar → List ValidationIssue
  | _, [] => []
  | prev, bar :: bars =>
      (prev.elim [] fun prev => pairIssues fl prev bar) ++ sequenceIssues fl (some bar) bars

/-- The bars in the order of time. -/
def sorted (bars : List QuotedBar) : List QuotedBar :=
  bars.insertionSort fun x y => x.timestamp ≤ y.timestamp

/-- The timestamps of bars. -/
def timestamps (bars : List QuotedBar) : List Timestamp := bars.map fun bar => bar.timestamp

/-- `BarValidator.validate_sequence`. -/
def validateSequence (fl : Rounding) (bars : List QuotedBar) : List ValidationIssue :=
  if bars.isEmpty then []
  else
    bars.flatMap validate ++
      flag ((timestamps bars).length ≠ (timestamps bars).dedup.length)
        { issueType := .duplicateTimestamps
          severity := .error
          description := "Duplicate timestamps found in bar sequence" } ++
      sequenceIssues fl none (sorted bars)

theorem sequenceIssues_some_eq_nil_iff (fl : Rounding) (prev : QuotedBar) (bars : List QuotedBar) :
    sequenceIssues fl (some prev) bars = [] ↔
      (prev :: bars).IsChain fun prev bar => pairIssues fl prev bar = [] := by
  induction bars generalizing prev with
  | nil => exact iff_of_true rfl (.singleton prev)
  | cons bar bars ih =>
      rw [sequenceIssues, List.append_eq_nil_iff, ih bar, List.isChain_cons_cons]
      rfl

theorem sequenceIssues_eq_nil_iff (fl : Rounding) (bars : List QuotedBar) :
    sequenceIssues fl none bars = [] ↔
      bars.IsChain fun prev bar => pairIssues fl prev bar = [] := by
  cases bars with
  | nil => exact iff_of_true rfl .nil
  | cons bar bars => exact sequenceIssues_some_eq_nil_iff fl bar bars

/-- A clean report: clean bars, distinct timestamps, and no issue between adjacent bars. -/
theorem validateSequence_eq_nil_iff (fl : Rounding) (bars : List QuotedBar) :
    validateSequence fl bars = [] ↔ (∀ bar ∈ bars, validate bar = []) ∧ (timestamps bars).Nodup ∧
      (sorted bars).IsChain fun prev bar => pairIssues fl prev bar = [] := by
  cases bars with
  | nil => exact iff_of_true rfl ⟨by simp, List.nodup_nil, .nil⟩
  | cons bar bars =>
      have distinct :
          ¬ (timestamps (bar :: bars)).length ≠ (timestamps (bar :: bars)).dedup.length ↔
            (timestamps (bar :: bars)).Nodup := by
        rw [not_not]
        constructor
        · intro same
          have kept := (List.dedup_sublist (timestamps (bar :: bars))).eq_of_length same.symm
          exact List.dedup_eq_self.mp kept
        · intro nodup
          rw [List.dedup_eq_self.mpr nodup]
      rw [validateSequence, if_neg (by simp), List.append_eq_nil_iff, List.append_eq_nil_iff,
        flag_eq_nil_iff, distinct, sequenceIssues_eq_nil_iff, List.flatMap_eq_nil_iff, and_assoc]

/-! ## Grids -/

/-- The expected gap in microseconds. -/
def stepMicros (frame : TimeFrame) : ℤ := expectedGapSeconds frame * 1000000

theorem stepMicros_pos (frame : TimeFrame) : 0 < stepMicros frame := by
  cases frame <;> decide

/-- The largest gap that is not reported. -/
def limitMicros (frame : TimeFrame) : ℤ := expectedGapSeconds frame * 1500000

/-- The open is within half of the close before, as the arithmetic has it. -/
def NearClose (fl : Rounding) (prev bar : QuotedBar) : Prop :=
  fl (|fl (bar.opening.val - prev.close.val)| / prev.close.val) ≤ 1 / 2

theorem timeGap_iff {frame : TimeFrame} {prev bar : QuotedBar} (framed : prev.timeframe = frame) :
    expectedGapSeconds prev.timeframe * (3 / 2) < gapSeconds prev bar ↔
      limitMicros frame < bar.timestamp - prev.timestamp := by
  rw [framed, gapSeconds, lt_div_iff₀ (by norm_num), limitMicros, ← Int.cast_lt (R := ℚ)]
  push_cast
  constructor <;> intro wide <;> linarith

theorem pairIssues_eq_nil_iff (fl : Rounding) {frame : TimeFrame} {prev bar : QuotedBar}
    (framed : prev.timeframe = frame) :
    pairIssues fl prev bar = [] ↔
      bar.timestamp - prev.timestamp ≤ limitMicros frame ∧ NearClose fl prev bar := by
  have close := prev.close.property
  have near : ¬ (0 < prev.close.val ∧ 1 / 2 < priceChange fl prev bar) ↔ NearClose fl prev bar := by
    rw [not_and, forall_prop_of_true close, not_lt]
    rfl
  rw [pairIssues, List.append_eq_nil_iff, flag_eq_nil_iff, flag_eq_nil_iff, timeGap_iff framed,
    not_lt, near]

section Grid

variable (fl : Rounding) {frame : TimeFrame} {bars : List QuotedBar}
  (framed : ∀ bar ∈ bars, bar.timeframe = frame)

include framed

theorem isChain_pairIssues_iff :
    ((sorted bars).IsChain fun prev bar => pairIssues fl prev bar = []) ↔
      (sorted bars).IsChain fun prev bar =>
        bar.timestamp - prev.timestamp ≤ limitMicros frame ∧ NearClose fl prev bar := by
  refine List.IsChain.iff_of_mem_imp fun prev bar inPrev _ => pairIssues_eq_nil_iff fl ?_
  exact framed prev ((List.perm_insertionSort _ bars).mem_iff.mp inPrev)

/-- A clean report on a grid. -/
theorem clean_iff
    (aligned : ∀ x ∈ bars, ∀ y ∈ bars, stepMicros frame ∣ y.timestamp - x.timestamp) :
    validateSequence fl bars = [] ↔
      (∀ bar ∈ bars, bar.close.val ≤ bar.high.val ∧ bar.low.val ≤ bar.opening.val) ∧
      Consecutive (stepMicros frame) (timestamps bars) ∧
      ∀ prev ∈ bars, ∀ bar ∈ bars, bar.timestamp = prev.timestamp + stepMicros frame →
        NearClose fl prev bar := by
  have positive := stepMicros_pos frame
  have loose : stepMicros frame ≤ limitMicros frame := by
    unfold stepMicros limitMicros
    omega
  have tight : limitMicros frame < 2 * stepMicros frame := by
    unfold stepMicros limitMicros at *
    omega
  rw [validateSequence_eq_nil_iff, isChain_pairIssues_iff fl framed]
  refine and_congr (forall₂_congr fun bar _ => validate_eq_nil_iff bar) ?_
  exact isChain_sorted_iff positive loose tight aligned

end Grid

/-! ## Months -/

/-- The number of the reported gaps in time. -/
def timeGaps (issues : List ValidationIssue) : ℕ :=
  issues.countP fun issue => issue.issueType = .timeGap

@[simp] theorem timeGaps_append (issues rest : List ValidationIssue) :
    timeGaps (issues ++ rest) = timeGaps issues + timeGaps rest :=
  List.countP_append

theorem timeGaps_flag_of_ne {found : Prop} [Decidable found] {issue : ValidationIssue}
    (other : issue.issueType ≠ .timeGap) : timeGaps (flag found issue) = 0 := by
  unfold flag
  split
  · exact List.countP_cons_of_neg (by simpa using other)
  · rfl

@[simp] theorem timeGaps_validate (bar : QuotedBar) : timeGaps (validate bar) = 0 := by
  simp [validate, timeGaps_flag_of_ne]

theorem timeGaps_flatMap_validate (bars : List QuotedBar) :
    timeGaps (bars.flatMap validate) = 0 := by
  induction bars with
  | nil => rfl
  | cons bar bars ih => rw [List.flatMap_cons, timeGaps_append, timeGaps_validate, ih]

theorem timeGaps_pairIssues (fl : Rounding) {frame : TimeFrame} {prev bar : QuotedBar}
    (framed : prev.timeframe = frame)
    (wide : limitMicros frame < bar.timestamp - prev.timestamp) :
    timeGaps (pairIssues fl prev bar) = 1 := by
  rw [pairIssues, timeGaps_append, flag, if_pos ((timeGap_iff framed).mpr wide),
    timeGaps_flag_of_ne (by simp)]
  rfl

/-- Every step that is too long is reported once. -/
theorem timeGaps_sequenceIssues (fl : Rounding) {frame : TimeFrame} (prev : QuotedBar)
    (bars : List QuotedBar)
    (framed : ∀ bar ∈ prev :: bars, bar.timeframe = frame)
    (wide : (prev :: bars).IsChain fun x y => limitMicros frame < y.timestamp - x.timestamp) :
    timeGaps (sequenceIssues fl (some prev) bars) = bars.length := by
  induction bars generalizing prev with
  | nil => rfl
  | cons bar bars ih =>
      obtain ⟨first, following⟩ := List.isChain_cons_cons.mp wide
      have rest := ih bar (fun x inside => framed x (List.mem_cons_of_mem _ inside)) following
      have step := timeGaps_pairIssues fl (framed prev List.mem_cons_self) first
      change timeGaps (pairIssues fl prev bar ++ sequenceIssues fl (some bar) bars) =
        bars.length + 1
      rw [timeGaps_append, step, rest, Nat.add_comm]

/-- The bars are at least the days of a February apart. -/
def Monthly (bars : List QuotedBar) : Prop :=
  bars.Pairwise fun x y => 28 * 86400 * 1000000 ≤ |y.timestamp - x.timestamp|

theorem isChain_sorted_of_monthly {bars : List QuotedBar} (monthly : Monthly bars) :
    (sorted bars).IsChain fun x y => limitMicros .mn < y.timestamp - x.timestamp := by
  have perm : (sorted bars).Perm bars := List.perm_insertionSort ..
  have apart : Monthly (sorted bars) := by
    refine (perm.pairwise_iff fun far => ?_).mpr monthly
    rwa [abs_sub_comm]
  have ordered : (sorted bars).Pairwise fun x y => x.timestamp ≤ y.timestamp :=
    List.pairwise_insertionSort ..
  refine List.Pairwise.isChain ((apart.and ordered).imp ?_)
  rintro x y ⟨far, later⟩
  rw [abs_of_nonneg (sub_nonneg.mpr later)] at far
  exact lt_of_lt_of_le (by decide) far

/-- Every step of a monthly sequence is reported. -/
theorem timeGaps_of_monthly (fl : Rounding) {bars : List QuotedBar}
    (framed : ∀ bar ∈ bars, bar.timeframe = .mn) (monthly : Monthly bars) :
    timeGaps (validateSequence fl bars) = bars.length - 1 := by
  have chain := isChain_sorted_of_monthly monthly
  have perm : (sorted bars).Perm bars := List.perm_insertionSort ..
  have sequence : timeGaps (sequenceIssues fl none (sorted bars)) = bars.length - 1 := by
    rw [← perm.length_eq]
    have kept : ∀ bar ∈ sorted bars, bar.timeframe = .mn :=
      fun bar inside => framed bar (perm.mem_iff.mp inside)
    cases order : sorted bars with
    | nil => rfl
    | cons first rest =>
        rw [order] at chain kept
        exact timeGaps_sequenceIssues fl first rest kept chain
  cases bars with
  | nil => rfl
  | cons bar bars =>
      rw [validateSequence, if_neg (by simp), timeGaps_append, timeGaps_append,
        timeGaps_flatMap_validate, timeGaps_flag_of_ne (by simp), sequence, zero_add, zero_add]

/-- **What the report on a sequence of one timeframe says.** On a grid, it is clean exactly if every
bar is, the bars fill the grid from the first to the last one, each once, and each opens near the
close one step before. Monthly bars have all their steps reported, in whatever order they come. -/
theorem validateSequence_spec (fl : Rounding) {frame : TimeFrame} {bars : List QuotedBar}
    (framed : ∀ bar ∈ bars, bar.timeframe = frame) :
    ((∀ x ∈ bars, ∀ y ∈ bars, stepMicros frame ∣ y.timestamp - x.timestamp) →
      (validateSequence fl bars = [] ↔
        (∀ bar ∈ bars, bar.close.val ≤ bar.high.val ∧ bar.low.val ≤ bar.opening.val) ∧
        Consecutive (stepMicros frame) (timestamps bars) ∧
        ∀ prev ∈ bars, ∀ bar ∈ bars, bar.timestamp = prev.timestamp + stepMicros frame →
          NearClose fl prev bar)) ∧
    (frame = .mn → Monthly bars → timeGaps (validateSequence fl bars) = bars.length - 1) := by
  constructor
  · exact clean_iff fl framed
  · rintro rfl
    exact timeGaps_of_monthly fl framed

/-- A flat bar, with no volume in the quote currency. -/
def sampleBar (frame : TimeFrame) (timestamp : Timestamp) : QuotedBar where
  toMarketBar := .flat "AAPL" frame timestamp

/-- Two months in the wrong order: the one step between them is reported. -/
theorem validateSequence_sample :
    timeGaps (validateSequence binary64 [sampleBar .mn 2678400000000, sampleBar .mn 0]) = 1 := by
  refine (@validateSequence_spec binary64 .mn _ ?_).2 rfl ?_
  · simp [sampleBar, MarketBar.flat]
  · simp only [Monthly, sampleBar, MarketBar.flat, List.pairwise_pair]
    decide

end TradeOS.BarValidator
