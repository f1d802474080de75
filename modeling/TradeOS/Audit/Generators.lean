import TradeOS.Audit.Schemas
import TradeOS.Data.Grouping
import TradeOS.Data.KeepFirst
import TradeOS.Numeric.Decimal

/-!
# The feedback generators

`FeedbackEngine.scan` runs four generators over audit records. Each collects the records
in dictionaries keyed by texts, computes counts, means and rates of every group, and
makes at most one feedback of a group. The square root is a parameter.

A `Finding` is what a generator puts into a feedback; the time is read when the feedback
is built.
-/

set_option autoImplicit false

namespace TradeOS.Audit

open Calendar Numeric Grouping KeepFirst

/-! ## Findings -/

/-- The values that a generator gives a feedback. -/
structure Finding where
  feedbackId : String
  feedbackType : FeedbackType
  severity : Severity
  symbol : Option String
  sampleSize : ℕ
  evidence : Dictionary
  metricName : String
  metricValue : ℚ
  thresholdBreach : Bool
  suggestedAction : String
  confidence : UnitRational
  sourceAuditIds : List String
  phase4Suggestion : Dictionary

/-- The feedback of a finding. -/
def Finding.feedback (now : DateTime) (finding : Finding) : Feedback where
  feedbackId := finding.feedbackId
  timestamp := now
  feedbackType := finding.feedbackType
  severity := finding.severity
  symbol := finding.symbol
  sampleSize := finding.sampleSize
  evidence := finding.evidence
  metricName := finding.metricName
  metricValue := finding.metricValue
  thresholdBreach := finding.thresholdBreach
  suggestedAction := finding.suggestedAction
  confidence := finding.confidence
  sourceAuditIds := finding.sourceAuditIds
  status := .pending
  phase4Suggestion := finding.phase4Suggestion

/-- The mean of a list. -/
def mean (values : List ℚ) : ℚ := values.sum / values.length

/-- The variance of a list around its mean. -/
def variance (values : List ℚ) : ℚ := mean (values.map fun value => (value - mean values) ^ 2)

/-- The confidence of a sample: its share of a full one, up to a cap. -/
def sampleConfidence (count full : ℕ) (cap : UnitRational) : UnitRational :=
  ⟨min (count / full) cap.val,
    le_min (div_nonneg (Nat.cast_nonneg count) (Nat.cast_nonneg full)) cap.property.1,
    (min_le_right _ _).trans cap.property.2⟩

/-- `min(n / full, 0.9)`. -/
def nineTenths : UnitRational := .clamp (9 / 10)

/-- `text.split(separator, 1)`, for a text with the separator. -/
def splitOnce (separator : Char) (text : String) : String × String :=
  (String.ofList (text.toList.takeWhile fun c => c ≠ separator),
    String.ofList ((text.toList.dropWhile fun c => c ≠ separator).drop 1))

variable (root : ℚ → ℚ)

/-! ## Slippage calibration -/

/-- The feedback for the records of one symbol and order type. -/
def slippageFinding (symbol orderType : String) (records : List ExecutionRecord) :
    Option Finding :=
  let realizedVals := records.map ExecutionRecord.realizedSlippageBps
  let meanRealized := mean realizedVals
  let meanEstimated := mean (records.map ExecutionRecord.estimatedSlippageBps)
  let bias := meanRealized - meanEstimated
  let severity : Severity := if 5 < |bias| then .high else .medium
  if records.length < 20 then none
  else if |bias| ≤ 2 then none
  else some
    { feedbackId := "fb-slip-" ++ symbol ++ "-" ++ orderType
      feedbackType := .slippageCalibration
      severity := severity
      symbol := some symbol
      sampleSize := records.length
      evidence :=
        [("order_type", .text orderType),
          ("mean_realized_bps", .number (roundTo 2 meanRealized)),
          ("mean_estimated_bps", .number (roundTo 2 meanEstimated)),
          ("bias_bps", .number (roundTo 2 bias)),
          ("std_bps", .number (roundTo 2 (root (variance realizedVals))))]
      metricName := "slippage_bias_bps"
      metricValue := roundTo 2 bias
      thresholdBreach := 5 < |bias|
      suggestedAction := "调整 slippage 模型参数：对 " ++ symbol ++ " " ++ orderType ++
        " 预期偏置 " ++ formatSigned 1 bias ++ "bps（实际 " ++ formatSigned 1 meanRealized ++
        "bps vs 预估 " ++ formatSigned 1 meanEstimated ++ "bps）"
      confidence := sampleConfidence records.length 100 (.clamp (19 / 20))
      sourceAuditIds := records.map fun record => record.auditId
      phase4Suggestion :=
        [("registry", .text "ExperimentRegistry"),
          ("field", .text "slippage_model_params"),
          ("symbol", .text symbol),
          ("order_type", .text orderType),
          ("suggested_bias_bps", .number (roundTo 2 bias)),
          ("suggested_action", .text (if severity = .high then "adjust" else "monitor"))] }

/-- `SlippageCalibrationFeedback.generate`. -/
def slippageFindings (records : List ExecutionRecord) (symbol : String) : List Finding :=
  (group ((records.filter fun record =>
    record.symbol = symbol ∧ record.estimatedSlippageBps ≠ 0).map fun record =>
      (record.orderType, record))).filterMap fun entry =>
        slippageFinding root symbol entry.1 entry.2

/-! ## Signal decay -/

/-- An age bucket: its name and its bounds, the upper one excluded. -/
structure AgeBucket where
  name : String
  lo : ℚ
  hi : Option ℚ

/-- `AGE_BUCKETS`. -/
def ageBuckets : List AgeBucket :=
  [⟨"<24h", 0, some 24⟩, ⟨"24-48h", 24, some 48⟩, ⟨"48-72h", 48, some 72⟩, ⟨">72h", 72, none⟩]

/-- An age is within a bucket. -/
def AgeBucket.holds (bucket : AgeBucket) (age : ℚ) : Bool :=
  bucket.lo ≤ age ∧ bucket.hi.all fun hi => age < hi

/-- The first bucket of an age. -/
def bucketOf (age : ℚ) : Option String :=
  (ageBuckets.find? fun bucket => bucket.holds age).map AgeBucket.name

/-- The profits of the records that have one. -/
def realizedPnls (records : List DecisionRecord) : List ℚ :=
  records.filterMap DecisionRecord.realizedPnlPct

/-- The feedback for the records of one signal type and age bucket. -/
def decayFinding (signalTypeKey bucketName : String) (records : List DecisionRecord) :
    Option Finding :=
  let n := records.length
  let pnlVals := realizedPnls records
  let meanPnl := pnlVals.sum / n
  let module := (splitOnce ':' signalTypeKey).1
  let sigType := (splitOnce ':' signalTypeKey).2
  if n < 5 then none
  else if 0 ≤ meanPnl then none
  else some
    { feedbackId := "fb-decay-" ++
        String.ofList (signalTypeKey.toList.map fun c => if c = ':' then '-' else c) ++ "-" ++
        bucketName
      feedbackType := .signalDecay
      severity := if 10 ≤ n then .high else .medium
      symbol := none
      sampleSize := n
      evidence :=
        [("signal_module", .text module),
          ("signal_type", .text sigType),
          ("age_bucket", .text bucketName),
          ("mean_pnl_pct", .number (roundTo 3 (meanPnl * 100))),
          ("positive_count", .number (pnlVals.countP fun pnl => 0 < pnl)),
          ("negative_count", .number (pnlVals.countP fun pnl => pnl < 0))]
      metricName := "signal_age_pnl_pct"
      metricValue := roundTo 3 (meanPnl * 100)
      thresholdBreach := meanPnl < 0
      suggestedAction := "信号 " ++ signalTypeKey ++ " 在 " ++ bucketName ++ " 窗口内平均收益 " ++
        formatSigned 2 (meanPnl * 100) ++ "%（负期望），建议缩短标签窗口或降低置信权重"
      confidence := sampleConfidence n 50 nineTenths
      sourceAuditIds := records.map fun record => record.auditId
      phase4Suggestion :=
        [("registry", .text "LabelSetRegistry"),
          ("field", .text "label_window_hours"),
          ("signal_module", .text module),
          ("signal_type", .text sigType),
          ("current_bucket", .text bucketName),
          ("suggested_action", .text "shorten_window")] }

/-- `_analyze_signal_type`. -/
def analyzeSignalType (signalTypeKey : String) (records : List DecisionRecord) : List Finding :=
  (group (records.filterMap fun record =>
    (record.signalAgeHours.bind bucketOf).map fun bucketName => (bucketName, record))).filterMap
      fun entry => decayFinding signalTypeKey entry.1 entry.2

/-- The signals of the records with a profit, under the keys of their types. -/
def keyedSignals (records : List DecisionRecord) : List (String × DecisionRecord) :=
  (records.filter fun record => record.realizedPnlPct.isSome).flatMap fun record =>
    record.inputSignals.map fun signal =>
      (signal.sourceModule ++ ":" ++ signal.signalType, record)

/-- `SignalDecayFeedback.generate`. -/
def decayFindings (records : List DecisionRecord) : List Finding :=
  (group (keyedSignals records)).flatMap fun entry => analyzeSignalType entry.1 entry.2

/-! ## Filter patterns -/

/-- What is counted of a filter in a regime. -/
structure FilterCount where
  veto : ℕ := 0
  total : ℕ := 0
  audits : List String := []

/-- One more result of a filter: the audit and the mode. -/
def FilterCount.add (count : FilterCount) (result : String × String) : FilterCount where
  veto := if result.2 = "veto" then count.veto + 1 else count.veto
  total := count.total + 1
  audits := count.audits ++ [result.1]

/-- The regime of an audit, `unknown` if it has none. -/
def regimeText (regime : Option String) : String :=
  match regime with
  | none => "unknown"
  | some text => if text = "" then "unknown" else text

/-- The filter results of the audits, under the keys of the filter and the regime. -/
def keyedResults (audits : List RiskAudit) : List (String × String × String) :=
  audits.flatMap fun audit => audit.filterResults.map fun result =>
    (result.filterName ++ "|" ++ regimeText audit.regime, audit.auditId, result.mode)

/-- The severity of a veto rate, if there is one. -/
def vetoSeverity (vetoRate : ℚ) (n : ℕ) : Option Severity :=
  if vetoRate ≤ 1 / 5 then none
  else if 3 / 10 < vetoRate ∧ 20 ≤ n then some .high
  else if 1 / 5 < vetoRate ∧ 10 ≤ n then some .medium
  else none

/-- The feedback for a filter in a regime. -/
def filterFinding (key : String) (data : FilterCount) : Option Finding :=
  let filterName := (splitOnce '|' key).1
  let regime := (splitOnce '|' key).2
  let n := data.total
  let vetoRate : ℚ := if 0 < n then data.veto / n else 0
  (vetoSeverity vetoRate n).map fun severity =>
    { feedbackId := "fb-filter-" ++ filterName ++ "-" ++ regime
      feedbackType := .filterPattern
      severity := severity
      symbol := none
      sampleSize := n
      evidence :=
        [("filter_name", .text filterName),
          ("regime", .text regime),
          ("veto_count", .number data.veto),
          ("total_count", .number n),
          ("veto_rate", .number (roundTo 3 vetoRate))]
      metricName := "filter_veto_rate"
      metricValue := roundTo 3 vetoRate
      thresholdBreach := 3 / 10 < vetoRate
      suggestedAction := "过滤器 " ++ filterName ++ " 在 " ++ regime ++ " 市场状态下 veto 率 " ++
        formatPercent 1 vetoRate ++ "（n=" ++ toString n ++
        "），建议检查风控阈值或模型训练数据"
      confidence := sampleConfidence n 50 nineTenths
      sourceAuditIds := data.audits
      phase4Suggestion :=
        [("registry", .text "ModelRegistry"),
          ("field", .text "flag_for_retrain"),
          ("filter_name", .text filterName),
          ("regime", .text regime),
          ("veto_rate", .number (roundTo 3 vetoRate)),
          ("suggested_action", .text (if severity = .high then "retrain"
            else "review_threshold"))] }

/-- `FilterPatternFeedback.generate`. -/
def filterFindings (audits : List RiskAudit) : List Finding :=
  (tally {} FilterCount.add (keyedResults audits)).filterMap fun entry =>
    filterFinding entry.1 entry.2

/-! ## Factor attribution -/

/-- The records with a profit, once for every module of their signals. -/
def keyedModules (records : List DecisionRecord) : List (String × DecisionRecord) :=
  (records.filter fun record => record.realizedPnlPct.isSome).flatMap fun record =>
    (keepFirst SignalSnapshot.sourceModule record.inputSignals).map fun signal =>
      (signal.sourceModule, record)

/-- The confidences of the signals of a module. -/
def moduleConfidences (module : String) (records : List DecisionRecord) : List ℚ :=
  records.flatMap fun record => (record.inputSignals.filter fun signal =>
    signal.sourceModule = module).map fun signal => signal.confidence.val

/-- The information ratio of a list of profits, or their mean if they do not vary. -/
def informationRatio (pnlValues : List ℚ) : ℚ :=
  if 1 / 10 ^ 9 < root (variance pnlValues) then mean pnlValues / root (variance pnlValues)
  else mean pnlValues

/-- The feedback for a module. -/
def attributionFinding (module : String) (records : List DecisionRecord) : Option Finding :=
  let pnlValues := records.map fun record => record.realizedPnlPct.getD 0
  let confidences := moduleConfidences module records
  let meanPnl := mean pnlValues
  let stdPnl := root (variance pnlValues)
  let ir := informationRatio root pnlValues
  let severity : Severity := if 50 ≤ records.length ∧ ir < 0 then .high else .medium
  let avgConfidence := if confidences.isEmpty then 0 else mean confidences
  let alphaContribution := meanPnl * avgConfidence
  let signalContribution := mean (pnlValues.map abs)
  if records.length < 30 then none
  else if 3 / 10 ≤ ir then none
  else some
    { feedbackId := "fb-factor-" ++ module
      feedbackType := .factorAttribution
      severity := severity
      symbol := none
      sampleSize := records.length
      evidence :=
        [("factor_module", .text module),
          ("mean_pnl_pct", .number (roundTo 4 (meanPnl * 100))),
          ("std_pnl_pct", .number (roundTo 4 (stdPnl * 100))),
          ("ir", .number (roundTo 4 ir)),
          ("avg_signal_confidence", .number (roundTo 4 avgConfidence)),
          ("alpha_contribution", .number (roundTo 6 alphaContribution)),
          ("signal_contribution", .number (roundTo 6 signalContribution))]
      metricName := "factor_ir"
      metricValue := roundTo 4 ir
      thresholdBreach := ir < 0
      suggestedAction := "factor=" ++ module ++ " ir=" ++ formatFixed 4 ir ++ " sample=" ++
        toString records.length ++ " alpha_contribution=" ++ formatFixed 6 alphaContribution ++
        "; lower weight or review"
      confidence := sampleConfidence records.length 100 nineTenths
      sourceAuditIds := records.map fun record => record.auditId
      phase4Suggestion :=
        [("registry", .text "AlphaFactorRegistry"),
          ("field", .text "factor_ir"),
          ("factor_module", .text module),
          ("current_ir", .number (roundTo 4 ir)),
          ("alpha_contribution", .number (roundTo 6 alphaContribution)),
          ("signal_contribution", .number (roundTo 6 signalContribution)),
          ("suggested_action", .text (if severity = .medium then "downweight"
            else "deprecate"))] }

/-- `FactorAttributionFeedback.generate`. -/
def attributionFindings (records : List DecisionRecord) : List Finding :=
  (group (keyedModules records)).filterMap fun entry => attributionFinding root entry.1 entry.2

/-! ## The engine -/

/-- The records of a scan. -/
def scanned {ρ : Type} (timestamp : ρ → DateTime) (scanSince : Option DateTime)
    (records : List ρ) : List ρ :=
  match scanSince with
  | none => records
  | some since => records.filter fun record => since.micros ≤ (timestamp record).micros

/-- The findings of the four generators. -/
def scanFindings (decisions : List DecisionRecord) (executions : List ExecutionRecord)
    (audits : List RiskAudit) : List Finding :=
  ((group (executions.map fun record => (record.symbol, record))).flatMap fun entry =>
    slippageFindings root entry.2 entry.1) ++
    decayFindings decisions ++ filterFindings audits ++ attributionFindings root decisions

/-- `FeedbackEngine.scan`, with the readings of the clock for the feedbacks. -/
def scan (utcnow : ℕ → DateTime) (scanSince : Option DateTime) (decisions : List DecisionRecord)
    (executions : List ExecutionRecord) (audits : List RiskAudit) : List Feedback :=
  (scanFindings root (scanned (fun record => record.timestamp) scanSince decisions)
    (scanned (fun record => record.timestamp) scanSince executions)
    (scanned (fun record => record.timestamp) scanSince audits)).mapIdx fun place finding =>
      finding.feedback (utcnow place)

end TradeOS.Audit
