import TradeOS.Audit.Generators
import Mathlib.Data.Multiset.MapFold
import Mathlib.Algebra.BigOperators.Group.List.Basic

/-!
# A scan does not depend on the order of the records

A permutation of the records permutes the groups of every generator and the records of
every group. What a generator says of a group comes from sums, counts and lengths, so it
is the same up to the order of the audit ids. Signal decay groups a second time within a
group, by age.

The statement is about the whole scan: the summaries of the feedbacks are permuted
(`scan_perm`).
-/

set_option autoImplicit false

namespace TradeOS.Audit

open Calendar Numeric Grouping KeepFirst

/-- What a feedback says: its id, severity, sample size, metric value and confidence, and its
audit ids without their order. -/
structure Summary where
  feedbackId : String
  severity : Severity
  sampleSize : ℕ
  metricValue : ℚ
  confidence : UnitRational
  sourceAuditIds : Multiset String

/-- The summary of a feedback. -/
def Feedback.summary (feedback : Feedback) : Summary where
  feedbackId := feedback.feedbackId
  severity := feedback.severity
  sampleSize := feedback.sampleSize
  metricValue := feedback.metricValue
  confidence := feedback.confidence
  sourceAuditIds := feedback.sourceAuditIds

/-- The summary of a finding. -/
def Finding.summary (finding : Finding) : Summary where
  feedbackId := finding.feedbackId
  severity := finding.severity
  sampleSize := finding.sampleSize
  metricValue := finding.metricValue
  confidence := finding.confidence
  sourceAuditIds := finding.sourceAuditIds

theorem summary_feedback (now : DateTime) (finding : Finding) :
    (finding.feedback now).summary = finding.summary :=
  rfl

/-! ## Statistics of a group -/

theorem mean_perm {values values' : List ℚ} (same : values.Perm values') :
    mean values = mean values' := by
  rw [mean, mean, same.sum_eq, same.length_eq]

theorem variance_perm {values values' : List ℚ} (same : values.Perm values') :
    variance values = variance values' := by
  rw [variance, variance, mean_perm same]
  exact mean_perm (same.map _)

variable (root : ℚ → ℚ)

theorem informationRatio_perm {values values' : List ℚ} (same : values.Perm values') :
    informationRatio root values = informationRatio root values' := by
  rw [informationRatio, informationRatio, mean_perm same, variance_perm same]

/-! ## Findings of a group -/

theorem ids_perm {ρ : Type} (auditId : ρ → String) {records records' : List ρ}
    (same : records.Perm records') :
    (records.map auditId : Multiset String) = (records'.map auditId : List String) :=
  Multiset.coe_eq_coe.mpr (same.map auditId)

theorem slippageFinding_perm (symbol orderType : String) {records records' : List ExecutionRecord}
    (same : records.Perm records') :
    (slippageFinding root symbol orderType records).map Finding.summary =
      (slippageFinding root symbol orderType records').map Finding.summary := by
  have ids := ids_perm (fun record : ExecutionRecord => record.auditId) same
  simp only [slippageFinding, mean_perm (same.map ExecutionRecord.realizedSlippageBps),
    mean_perm (same.map ExecutionRecord.estimatedSlippageBps), same.length_eq]
  split
  · rfl
  · split
    · rfl
    · simp only [Option.map_some, Finding.summary, ids]

theorem decayFinding_perm (signalTypeKey bucketName : String)
    {records records' : List DecisionRecord} (same : records.Perm records') :
    (decayFinding signalTypeKey bucketName records).map Finding.summary =
      (decayFinding signalTypeKey bucketName records').map Finding.summary := by
  have ids := ids_perm (fun record : DecisionRecord => record.auditId) same
  have total : (realizedPnls records).sum = (realizedPnls records').sum :=
    (same.filterMap _).sum_eq
  simp only [decayFinding, total, same.length_eq]
  split
  · rfl
  · split
    · rfl
    · simp only [Option.map_some, Finding.summary, ids]

theorem attributionFinding_perm (module : String) {records records' : List DecisionRecord}
    (same : records.Perm records') :
    (attributionFinding root module records).map Finding.summary =
      (attributionFinding root module records').map Finding.summary := by
  have ids := ids_perm (fun record : DecisionRecord => record.auditId) same
  have pnls := same.map fun record => record.realizedPnlPct.getD 0
  simp only [attributionFinding, informationRatio_perm root pnls, same.length_eq]
  split
  · rfl
  · split
    · rfl
    · simp only [Option.map_some, Finding.summary, ids]

/-- What is counted of a list of filter results. -/
theorem foldl_add (results : List (String × String)) (count : FilterCount) :
    results.foldl FilterCount.add count =
      ⟨count.veto + results.countP fun result => result.2 = "veto",
        count.total + results.length, count.audits ++ results.map Prod.fst⟩ := by
  induction results generalizing count with
  | nil => simp
  | cons result results ih =>
      rw [List.foldl_cons, ih, FilterCount.add, List.countP_cons, List.length_cons]
      simp only [decide_eq_true_eq, List.map_cons, List.append_assoc, List.singleton_append]
      rw [FilterCount.mk.injEq]
      refine ⟨?_, by omega, rfl⟩
      split <;> omega

theorem filterFinding_perm (key : String) {results results' : List (String × String)}
    (same : results.Perm results') :
    (filterFinding key (results.foldl FilterCount.add {})).map Finding.summary =
      (filterFinding key (results'.foldl FilterCount.add {})).map Finding.summary := by
  have ids := ids_perm Prod.fst same
  simp only [foldl_add, filterFinding, same.length_eq, same.countP_eq, Option.map_map,
    List.nil_append]
  congr 1
  funext severity
  simp only [Function.comp_apply, Finding.summary, ids]

/-! ## Generators -/

/-- The summaries of a list of findings. -/
def summaries (findings : List Finding) : List Summary := findings.map Finding.summary

theorem slippageFindings_perm (symbol : String) {records records' : List ExecutionRecord}
    (same : records.Perm records') :
    (summaries (slippageFindings root records symbol)).Perm
      (summaries (slippageFindings root records' symbol)) := by
  rw [summaries, summaries, slippageFindings, slippageFindings, List.map_filterMap,
    List.map_filterMap]
  exact filterMap_group_perm
    (fun orderType records => (slippageFinding root symbol orderType records).map Finding.summary)
    (fun orderType _ _ => slippageFinding_perm root symbol orderType)
    ((same.filter _).map _)

theorem analyzeSignalType_perm (signalTypeKey : String) {records records' : List DecisionRecord}
    (same : records.Perm records') :
    (summaries (analyzeSignalType signalTypeKey records)).Perm
      (summaries (analyzeSignalType signalTypeKey records')) := by
  rw [summaries, summaries, analyzeSignalType, analyzeSignalType, List.map_filterMap,
    List.map_filterMap]
  exact filterMap_group_perm
    (fun bucketName records => (decayFinding signalTypeKey bucketName records).map Finding.summary)
    (fun bucketName _ _ => decayFinding_perm signalTypeKey bucketName)
    (same.filterMap _)

theorem decayFindings_perm {records records' : List DecisionRecord}
    (same : records.Perm records') :
    (summaries (decayFindings records)).Perm (summaries (decayFindings records')) := by
  rw [summaries, summaries, decayFindings, decayFindings, List.map_flatMap, List.map_flatMap]
  exact flatMap_group_perm
    (fun signalTypeKey records => summaries (analyzeSignalType signalTypeKey records))
    (fun signalTypeKey _ _ => analyzeSignalType_perm signalTypeKey)
    ((same.filter _).flatMap_right _)

theorem filterFindings_perm {audits audits' : List RiskAudit} (same : audits.Perm audits') :
    (summaries (filterFindings audits)).Perm (summaries (filterFindings audits')) := by
  rw [summaries, summaries, filterFindings, filterFindings, List.map_filterMap,
    List.map_filterMap]
  exact filterMap_tally_perm
    (fun key data => (filterFinding key data).map Finding.summary)
    (fun key _ _ => filterFinding_perm key) (same.flatMap_right _)

theorem attributionFindings_perm {records records' : List DecisionRecord}
    (same : records.Perm records') :
    (summaries (attributionFindings root records)).Perm
      (summaries (attributionFindings root records')) := by
  rw [summaries, summaries, attributionFindings, attributionFindings, List.map_filterMap,
    List.map_filterMap]
  exact filterMap_group_perm
    (fun module records => (attributionFinding root module records).map Finding.summary)
    (fun module _ _ => attributionFinding_perm root module)
    ((same.filter _).flatMap_right _)

/-! ## The scan -/

theorem scanned_perm {ρ : Type} (timestamp : ρ → DateTime) (scanSince : Option DateTime)
    {records records' : List ρ} (same : records.Perm records') :
    (scanned timestamp scanSince records).Perm (scanned timestamp scanSince records') := by
  cases scanSince with
  | none => exact same
  | some since => exact same.filter _

theorem scanFindings_perm {decisions decisions' : List DecisionRecord}
    {executions executions' : List ExecutionRecord} {audits audits' : List RiskAudit}
    (sameDecisions : decisions.Perm decisions') (sameExecutions : executions.Perm executions')
    (sameAudits : audits.Perm audits') :
    (summaries (scanFindings root decisions executions audits)).Perm
      (summaries (scanFindings root decisions' executions' audits')) := by
  have slippage : (((group (executions.map fun record => (record.symbol, record))).flatMap
      fun entry => slippageFindings root entry.2 entry.1).map Finding.summary).Perm
      (((group (executions'.map fun record => (record.symbol, record))).flatMap
        fun entry => slippageFindings root entry.2 entry.1).map Finding.summary) := by
    rw [List.map_flatMap, List.map_flatMap]
    exact flatMap_group_perm
      (fun symbol records => summaries (slippageFindings root records symbol))
      (fun symbol _ _ => slippageFindings_perm root symbol) (sameExecutions.map _)
  simp only [summaries, scanFindings, List.map_append]
  exact ((slippage.append (decayFindings_perm sameDecisions)).append
    (filterFindings_perm sameAudits)).append (attributionFindings_perm root sameDecisions)

theorem map_summary_scan (utcnow : ℕ → DateTime) (scanSince : Option DateTime)
    (decisions : List DecisionRecord) (executions : List ExecutionRecord)
    (audits : List RiskAudit) :
    (scan root utcnow scanSince decisions executions audits).map Feedback.summary =
      summaries (scanFindings root (scanned (fun record => record.timestamp) scanSince decisions)
        (scanned (fun record => record.timestamp) scanSince executions)
        (scanned (fun record => record.timestamp) scanSince audits)) := by
  rw [scan, summaries]
  apply List.ext_getElem?
  intro place
  simp [Function.comp_def, summary_feedback]

/-- **A scan does not depend on the order of the records.** For any permutation of the three
lists it says the same, up to the order of the feedbacks and of the audit ids in each. -/
theorem scan_perm (utcnow utcnow' : ℕ → DateTime) (scanSince : Option DateTime)
    {decisions decisions' : List DecisionRecord} {executions executions' : List ExecutionRecord}
    {audits audits' : List RiskAudit} (sameDecisions : decisions.Perm decisions')
    (sameExecutions : executions.Perm executions') (sameAudits : audits.Perm audits') :
    ((scan root utcnow scanSince decisions executions audits).map Feedback.summary).Perm
      ((scan root utcnow' scanSince decisions' executions' audits').map Feedback.summary) := by
  rw [map_summary_scan, map_summary_scan]
  exact scanFindings_perm root (scanned_perm _ scanSince sameDecisions)
    (scanned_perm _ scanSince sameExecutions) (scanned_perm _ scanSince sameAudits)

/-- Ten audits in which one filter vetoed. -/
def sampleAudits : List RiskAudit :=
  (List.range 10).map fun n =>
    { auditId := toString n
      timestamp := .ofDay 738900 n
      symbol := "AAPL"
      decisionId := "d"
      filterResults := [⟨"loss_limit", "veto"⟩] }

/-- Ten vetoes make one feedback, whichever audit comes first. -/
theorem scan_perm_sample :
    (scan id (.ofDay 738901) none [] [] sampleAudits).length = 1 ∧
      ((scan id (.ofDay 738901) none [] [] sampleAudits).map Feedback.summary).Perm
        ((scan id (.ofDay 738902) none [] [] sampleAudits.reverse).map Feedback.summary) := by
  refine ⟨?_, ?_⟩
  · with_unfolding_all decide
  · exact scan_perm id _ _ none (List.Perm.refl _) (List.Perm.refl _)
      (List.reverse_perm sampleAudits).symm

end TradeOS.Audit
