import TradeOS.Data.Calendar
import TradeOS.Data.Validation

/-!
# Audit schemas

The records that the audit layer writes and reads back, and the feedback that it
derives from them. A float is an exact rational, a naive datetime a `DateTime`.

Of the decision, execution and risk records only the fields are kept that a registry
or a feedback generator reads. A feedback has all its fields.
-/

set_option autoImplicit false

namespace TradeOS.Audit

open Calendar

/-! ## Audit records -/

/-- `AuditRecord`. -/
structure AuditRecord where
  auditId : String
  timestamp : DateTime
  symbol : String
  decisionId : String
  deriving DecidableEq

/-- `SignalSnapshot`. -/
structure SignalSnapshot where
  sourceModule : String
  signalType : String
  confidence : UnitRational
  deriving DecidableEq

/-- `DecisionRecord`. -/
structure DecisionRecord extends AuditRecord where
  inputSignals : List SignalSnapshot := []
  realizedPnlPct : Option ℚ := none
  signalAgeHours : Option ℚ := none
  deriving DecidableEq

/-- `ExecutionRecord`. -/
structure ExecutionRecord extends AuditRecord where
  orderType : String
  estimatedSlippageBps : ℚ := 0
  realizedSlippageBps : ℚ := 0
  deriving DecidableEq

/-- `FilterCheckSnapshot`. -/
structure FilterCheckSnapshot where
  filterName : String
  mode : String := "pass"
  deriving DecidableEq

/-- `RiskAudit`. -/
structure RiskAudit extends AuditRecord where
  filterResults : List FilterCheckSnapshot := []
  regime : Option String := none
  deriving DecidableEq

/-! ## Feedback -/

/-- `FeedbackType`. -/
inductive FeedbackType where
  | slippageCalibration
  | signalDecay
  | filterPattern
  | factorAttribution
  deriving DecidableEq

/-- The value of a feedback type. -/
def FeedbackType.value : FeedbackType → String
  | .slippageCalibration => "slippage_calibration"
  | .signalDecay => "signal_decay"
  | .filterPattern => "filter_pattern"
  | .factorAttribution => "factor_attribution"

/-- `FeedbackStatus`. -/
inductive FeedbackStatus where
  | pending
  | reviewed
  | applied
  | rejected
  deriving DecidableEq

/-- The statuses that resolve a feedback. -/
def FeedbackStatus.resolves (status : FeedbackStatus) : Bool :=
  status = .reviewed ∨ status = .rejected

/-- The severity of a feedback. -/
inductive Severity where
  | low
  | medium
  | high
  deriving DecidableEq

/-- The text of a severity. -/
def Severity.text : Severity → String
  | .low => "low"
  | .medium => "medium"
  | .high => "high"

/-- A value in the dictionaries of a feedback. -/
inductive Value where
  | null
  | text (s : String)
  | number (q : ℚ)
  deriving DecidableEq

/-- A dictionary with text keys, in the order of its insertions. -/
abbrev Dictionary := List (String × Value)

/-- `dict.get`. -/
def Dictionary.get (entries : Dictionary) (key : String) (default : Value := .null) : Value :=
  (entries.lookup key).getD default

/-- The text of an optional value, as a dictionary holds it. -/
def Value.ofOption : Option String → Value
  | none => .null
  | some s => .text s

/-- The confidence of a feedback without a value for it. -/
def defaultConfidence : UnitRational := .clamp (1 / 2)

/-- `Feedback`. -/
structure Feedback where
  feedbackId : String
  timestamp : DateTime
  feedbackType : FeedbackType
  severity : Severity := .medium
  symbol : Option String := none
  sampleSize : ℕ := 0
  evidence : Dictionary := []
  metricName : String
  metricValue : ℚ := 0
  thresholdBreach : Bool := false
  suggestedAction : String := ""
  confidence : UnitRational := defaultConfidence
  sourceAuditIds : List String := []
  status : FeedbackStatus := .pending
  reviewedBy : Option String := none
  reviewedAt : Option DateTime := none
  appliedExperimentId : Option String := none
  rejectionReason : Option String := none
  phase4Suggestion : Dictionary := []
  deriving DecidableEq

end TradeOS.Audit
