import TradeOS.Audit.FeedbackRegistry
import TradeOS.Data.Chain

/-!
# Staging candidate updates

`Phase4Updater.process` makes a candidate update of every unprocessed feedback and
appends it to a staging log. Nothing in the registry or in the staging log says that a
feedback was staged: what is unprocessed is decided by reviews alone, so a run stages
again what an earlier run has staged.

The lines of the staging log carry no reference to a record. `Traced` runs the same
calls and notes for each line the position of its record in the registry; leaving the
positions out gives the staging log back (`erase_run`). The lines of a record are then
the runs of `process` during which it is open (`stagedFrom_run`), and none follow once
its id is resolved (`stagedFrom_of_settled`).
-/

set_option autoImplicit false

namespace TradeOS.Audit

open Calendar DayLog Chain

/-! ## Candidates -/

/-- `Phase4CandidateUpdate`, as `to_dict` writes it. The evidence is the last entry of the
candidate update. -/
structure CandidateUpdate where
  candidateUpdateId : String
  feedbackId : String
  feedbackType : FeedbackType
  severity : Severity
  timestamp : DateTime
  suggestion : String
  flag : Dictionary
  candidateUpdate : Dictionary
  evidence : Dictionary
  status : String
  deriving DecidableEq

/-- The candidate of a feedback, with its flag and its change. -/
def makeCandidate (now : DateTime) (feedback : Feedback) (flag change : Dictionary) :
    CandidateUpdate where
  candidateUpdateId := "cu-" ++ feedback.feedbackId
  feedbackId := feedback.feedbackId
  feedbackType := feedback.feedbackType
  severity := feedback.severity
  timestamp := now
  suggestion := feedback.suggestedAction
  flag := ("type", .text feedback.feedbackType.value) :: flag ++
    [("severity", .text feedback.severity.text)]
  candidateUpdate := change
  evidence := feedback.evidence
  status := "pending"

/-- `_slippage_candidate`. -/
def slippageCandidate (now : DateTime) (feedback : Feedback) : CandidateUpdate :=
  makeCandidate now feedback
    [("symbol", .ofOption feedback.symbol),
      ("order_type", feedback.evidence.get "order_type"),
      ("bias_bps", feedback.evidence.get "bias_bps")]
    [("registry", .text "ExperimentRegistry"),
      ("action", .text "update_slippage_model"),
      ("symbol", .ofOption feedback.symbol),
      ("order_type", feedback.evidence.get "order_type"),
      ("suggested_bias_bps", feedback.evidence.get "bias_bps" (.number 0))]

/-- `_signal_decay_candidate`. -/
def signalDecayCandidate (now : DateTime) (feedback : Feedback) : CandidateUpdate :=
  makeCandidate now feedback
    [("signal_module", feedback.evidence.get "signal_module"),
      ("signal_type", feedback.evidence.get "signal_type"),
      ("age_bucket", feedback.evidence.get "age_bucket")]
    [("registry", .text "LabelSetRegistry"),
      ("action", .text "review_label_window"),
      ("signal_module", feedback.evidence.get "signal_module"),
      ("signal_type", feedback.evidence.get "signal_type"),
      ("current_bucket", feedback.evidence.get "age_bucket"),
      ("suggested_action", .text "shorten_window")]

/-- `_filter_pattern_candidate`. -/
def filterPatternCandidate (now : DateTime) (feedback : Feedback) : CandidateUpdate :=
  makeCandidate now feedback
    [("filter_name", feedback.evidence.get "filter_name"),
      ("regime", feedback.evidence.get "regime"),
      ("veto_rate", feedback.evidence.get "veto_rate")]
    [("registry", .text "ModelRegistry"),
      ("action", .text "flag_for_retrain"),
      ("filter_name", feedback.evidence.get "filter_name"),
      ("regime", feedback.evidence.get "regime"),
      ("suggested_action", .text (if feedback.severity = .high then "retrain"
        else "review_threshold"))]

/-- `_factor_attribution_candidate`. -/
def factorAttributionCandidate (now : DateTime) (feedback : Feedback) : CandidateUpdate :=
  makeCandidate now feedback
    [("factor_module", feedback.evidence.get "factor_module"),
      ("ir", feedback.evidence.get "ir")]
    [("registry", .text "AlphaFactorRegistry"),
      ("action", .text "update_factor_ir"),
      ("factor_module", feedback.evidence.get "factor_module"),
      ("suggested_ir", feedback.evidence.get "ir"),
      ("suggested_action", .text (if feedback.severity = .medium then "downweight"
        else "deprecate"))]

/-- `_process_single`; the four types are all. -/
def processSingle (now : DateTime) (feedback : Feedback) : CandidateUpdate :=
  match feedback.feedbackType with
  | .slippageCalibration => slippageCandidate now feedback
  | .signalDecay => signalDecayCandidate now feedback
  | .filterPattern => filterPatternCandidate now feedback
  | .factorAttribution => factorAttributionCandidate now feedback

/-- The line of the candidate that a run writes at a place of its list. The clock is read
for the candidate and for its file. -/
def candidateLine (clock : ℕ → DateTime) (place : ℕ) (feedback : Feedback) :
    Entry CandidateUpdate where
  time := clock (2 * place + 1)
  record := processSingle (clock (2 * place)) feedback

/-! ## The registry and the staging log -/

/-- The two logs. -/
structure System where
  registry : FeedbackLog
  staging : List (Entry CandidateUpdate)

/-- A call of the registry, or a run of `process` with the readings of its clock. -/
inductive Event where
  | registry (operation : Operation)
  | process (clock : ℕ → DateTime)

section Systems

variable (readBack : Feedback → Option Feedback)

/-- `Phase4Updater.process`. -/
def process (clock : ℕ → DateTime) (system : System) : System where
  registry := system.registry
  staging := system.staging ++ ((readUnprocessed readBack system.registry).filter fun feedback =>
    feedback.status = .pending).mapIdx (candidateLine clock)

/-- One event. -/
def handle : Event → System → System
  | .registry operation, system =>
      { system with registry := perform readBack system.registry operation }
  | .process clock, system => process readBack clock system

/-- The system after a sequence of events. -/
def runEvents (events : List Event) : System := result (handle readBack) events ⟨[], []⟩

/-! ## Positions -/

/-- The lines of a log with their positions. -/
def numbered (log : FeedbackLog) : List (Entry (ℕ × Feedback)) :=
  log.zipIdx.map fun line => ⟨line.1.time, line.2, line.1.record⟩

/-- `read_unprocessed`, with the positions of the records. -/
def openRecords (log : FeedbackLog) : List (ℕ × Feedback) :=
  ((oldestFirst (numbered log)).filterMap fun entry =>
    (readBack entry.record.2).map fun feedback => (entry.record.1, feedback)).filter fun line =>
      line.2.feedbackId ∉ resolvedIds (readAll readBack none log) ∧ line.2.status = .pending

/-- The two logs, where every line of the staging log has the position of its record. -/
structure Traced where
  registry : FeedbackLog
  staging : List (ℕ × Entry CandidateUpdate)

/-- The system without the positions. -/
def Traced.erase (traced : Traced) : System where
  registry := traced.registry
  staging := traced.staging.map Prod.snd

/-- The lines that a run of `process` writes. -/
def stagedLines (clock : ℕ → DateTime) (log : FeedbackLog) : List (ℕ × Entry CandidateUpdate) :=
  (openRecords readBack log).mapIdx fun place line => (line.1, candidateLine clock place line.2)

/-- One event, with the positions noted. -/
def trace : Event → Traced → Traced
  | .registry operation, traced =>
      { traced with registry := perform readBack traced.registry operation }
  | .process clock, traced =>
      { traced with staging := traced.staging ++ stagedLines readBack clock traced.registry }

/-- The traced system after a sequence of events. -/
def runTraced (events : List Event) : Traced := result (trace readBack) events ⟨[], []⟩

end Systems

variable {readBack : Feedback → Option Feedback}

/-! ## Without the positions -/

theorem map_numbered (log : FeedbackLog) : (numbered log).map (Entry.map Prod.snd) = log := by
  rw [numbered, List.map_map]
  exact List.zipIdx_map_fst 0 log

/-- The open records are the unprocessed feedback. -/
theorem map_openRecords (log : FeedbackLog) :
    (openRecords readBack log).map Prod.snd =
      (readUnprocessed readBack log).filter fun feedback => feedback.status = .pending := by
  have read : ((oldestFirst (numbered log)).filterMap fun entry =>
      (readBack entry.record.2).map fun feedback => (entry.record.1, feedback)).map Prod.snd =
      readAll readBack none log := by
    have all : (oldestFirst log).filter (fun entry => !skips none entry.day) = oldestFirst log :=
      List.filter_eq_self.mpr fun _ _ => rfl
    rw [readAll, all, List.map_filterMap]
    conv_rhs => rw [← map_numbered log, ← map_oldestFirst, List.filterMap_map]
    congr 1
    funext entry
    rw [Option.map_map]
    exact Option.map_id'
  have selected : ∀ ids : List String, ∀ feedbacks : List Feedback,
      (feedbacks.filter fun feedback => feedback.feedbackId ∉ ids ∧ feedback.status = .pending).filter
          (fun feedback => feedback.status = .pending) =
        feedbacks.filter fun feedback =>
          feedback.feedbackId ∉ ids ∧ feedback.status = .pending := by
    intro ids feedbacks
    rw [List.filter_filter]
    refine List.filter_congr ?_
    intro feedback _
    rw [Bool.eq_iff_iff, Bool.and_eq_true, decide_eq_true_eq, decide_eq_true_eq]
    exact ⟨fun both => both.2, fun unprocessed => ⟨unprocessed.2, unprocessed⟩⟩
  rw [readUnprocessed, selected, openRecords]
  conv_rhs => arg 2; rw [← read]
  rw [List.filter_map]
  rfl

theorem map_snd_mapIdx {α β : Type} (f : ℕ → α → β) (lines : List (ℕ × α)) :
    (lines.mapIdx fun place line => (line.1, f place line.2)).map Prod.snd =
      (lines.map Prod.snd).mapIdx f := by
  apply List.ext_getElem?
  intro place
  simp [Function.comp_def]

theorem map_fst_mapIdx {α β : Type} (f : ℕ → α → β) (lines : List (ℕ × α)) :
    (lines.mapIdx fun place line => (line.1, f place line.2)).map Prod.fst = lines.map Prod.fst := by
  apply List.ext_getElem?
  intro place
  simp [Function.comp_def]

/-- **One event with positions is one event.** -/
theorem erase_trace (event : Event) (traced : Traced) :
    (trace readBack event traced).erase = handle readBack event traced.erase := by
  cases event with
  | registry operation => rfl
  | process clock =>
      simp only [trace, handle, process, Traced.erase, List.map_append, stagedLines,
        map_snd_mapIdx, map_openRecords]

/-- **The staging log is the traced one without the positions.** -/
theorem erase_run (events : List Event) :
    (runTraced readBack events).erase = runEvents readBack events := by
  have simulated : ∀ traced : Traced,
      (result (trace readBack) events traced).erase = result (handle readBack) events traced.erase := by
    induction events with
    | nil => intro traced; rfl
    | cons event events ih =>
        intro traced
        rw [result_cons, result_cons, ih, erase_trace]
  exact simulated ⟨[], []⟩

/-! ## Open records -/

/-- A record of the log is open: it is pending, and no record of its id is resolved. -/
def isOpen (log : FeedbackLog) (position : ℕ) : Bool :=
  log[position]?.any fun entry => entry.record.status = .pending ∧
    ¬ log.any fun other => other.record.feedbackId = entry.record.feedbackId ∧
      other.record.status.resolves = true

theorem isOpen_eq_true_iff {log : FeedbackLog} {position : ℕ} :
    isOpen log position = true ↔
      ∃ entry, log[position]? = some entry ∧ entry.record.status = .pending ∧
        ¬ Resolved entry.record.feedbackId log := by
  simp [isOpen, Resolved, Option.any_eq_true]

theorem oldestFirst_numbered (log : FeedbackLog) :
    ((oldestFirst (numbered log)).map fun entry => entry.record.1).Perm (List.range log.length) := by
  have positions : (numbered log).map (fun entry => entry.record.1) = List.range log.length := by
    rw [numbered, List.map_map, List.range_eq_range', ← List.zipIdx_map_snd 0 log]
    rfl
  rw [← positions]
  exact (List.perm_insertionSort _ _).map _

theorem openRecords_eq (roundTrips : RoundTrips readBack) (log : FeedbackLog) :
    openRecords readBack log =
      ((oldestFirst (numbered log)).map Entry.record).filter fun line =>
        line.2.feedbackId ∉ resolvedIds (readAll readBack none log) ∧ line.2.status = .pending := by
  rw [openRecords, ← List.filterMap_eq_map]
  congr 2
  funext entry
  rw [roundTrips, Option.map_some]
  rfl

/-- Every record is at most once among the open ones. -/
theorem nodup_openRecords (roundTrips : RoundTrips readBack) (log : FeedbackLog) :
    ((openRecords readBack log).map Prod.fst).Nodup := by
  have all : (((oldestFirst (numbered log)).map Entry.record).map Prod.fst).Nodup := by
    rw [List.map_map]
    exact (oldestFirst_numbered log).nodup_iff.mpr List.nodup_range
  rw [openRecords_eq roundTrips]
  exact all.sublist (List.filter_sublist.map Prod.fst)

theorem mem_openRecords_iff (roundTrips : RoundTrips readBack) {log : FeedbackLog} {position : ℕ} :
    position ∈ (openRecords readBack log).map Prod.fst ↔ isOpen log position = true := by
  rw [isOpen_eq_true_iff, openRecords_eq roundTrips]
  simp only [List.mem_map, List.mem_filter, mem_oldestFirst, numbered, decide_eq_true_eq,
    mem_resolvedIds_iff roundTrips]
  constructor
  · rintro ⟨_, ⟨⟨_, ⟨⟨entry, place⟩, member, rfl⟩, rfl⟩, unresolved, pending⟩, rfl⟩
    exact ⟨entry, List.mk_mem_zipIdx_iff_getElem?.mp member, pending, unresolved⟩
  · rintro ⟨entry, found, pending, unresolved⟩
    exact ⟨(position, entry.record), ⟨⟨⟨entry.time, position, entry.record⟩, ⟨(entry, position),
      List.mk_mem_zipIdx_iff_getElem?.mpr found, rfl⟩, rfl⟩, unresolved, pending⟩, rfl⟩

/-! ## The lines of one record -/

/-- The number of lines of the staging log that come from a record. -/
def stagedFrom (position : ℕ) (traced : Traced) : ℕ := (traced.staging.map Prod.fst).count position

/-- An event is a run of `process` at which a record is open. -/
def Event.opens (log : FeedbackLog) (position : ℕ) : Event → Bool
  | registry _ => false
  | process _ => isOpen log position

/-- The runs of `process` at which a record is open. -/
def openRuns (readBack : Feedback → Option Feedback) (position : ℕ) (events : List Event) : ℕ :=
  (steps (trace readBack) events ⟨[], []⟩).countP fun step =>
    step.stage.opens step.before.registry position

/-- One run stages one line of every open record, and no line of another. -/
theorem count_stagedLines (roundTrips : RoundTrips readBack) (clock : ℕ → DateTime)
    (log : FeedbackLog) (position : ℕ) :
    ((stagedLines readBack clock log).map Prod.fst).count position =
      if isOpen log position then 1 else 0 := by
  rw [stagedLines, map_fst_mapIdx, (nodup_openRecords roundTrips log).count]
  exact if_congr (mem_openRecords_iff roundTrips) rfl rfl

/-- What one event adds to the lines of a record. -/
theorem stagedFrom_trace (roundTrips : RoundTrips readBack) (event : Event) (traced : Traced)
    (position : ℕ) :
    stagedFrom position (trace readBack event traced) =
      stagedFrom position traced + if event.opens traced.registry position then 1 else 0 := by
  cases event with
  | registry operation => rfl
  | process clock =>
      rw [stagedFrom, trace, List.map_append, List.count_append, count_stagedLines roundTrips]
      rfl

/-- **The lines of a record are the runs at which it is open.** -/
theorem stagedFrom_run (roundTrips : RoundTrips readBack) (position : ℕ) (events : List Event) :
    stagedFrom position (runTraced readBack events) = openRuns readBack position events := by
  have counted : ∀ traced : Traced,
      stagedFrom position (result (trace readBack) events traced) = stagedFrom position traced +
        (steps (trace readBack) events traced).countP fun step =>
          step.stage.opens step.before.registry position := by
    induction events with
    | nil => intro traced; rfl
    | cons event events ih =>
        intro traced
        rw [result_cons, ih, stagedFrom_trace roundTrips, steps_cons, List.countP_cons, add_assoc,
          Nat.add_comm (if event.opens traced.registry position then 1 else 0)]
  exact (counted ⟨[], []⟩).trans (Nat.zero_add _)

/-- A record of the log whose id is resolved. -/
def Settled (position : ℕ) (log : FeedbackLog) : Prop :=
  ∃ entry, log[position]? = some entry ∧ Resolved entry.record.feedbackId log

/-- What is settled stays settled. -/
theorem settled_trace (roundTrips : RoundTrips readBack) {event : Event} {traced : Traced}
    {position : ℕ} (settled : Settled position traced.registry) :
    Settled position (trace readBack event traced).registry := by
  cases event with
  | process clock => exact settled
  | registry operation =>
      obtain ⟨entry, found, other, member, resolved⟩ := settled
      obtain ⟨written, performed, _⟩ := exists_written roundTrips traced.registry operation
      simp only [trace, performed]
      have there : position < traced.registry.length := (List.getElem?_eq_some_iff.mp found).1
      exact ⟨entry, (List.getElem?_append_left there).trans found, other,
        List.mem_append_left _ member, resolved⟩

theorem opens_of_settled {log : FeedbackLog} {position : ℕ} (settled : Settled position log)
    (event : Event) : event.opens log position = false := by
  obtain ⟨entry, found, resolved⟩ := settled
  cases event with
  | registry operation => rfl
  | process clock =>
      rw [Event.opens, ← Bool.not_eq_true, isOpen_eq_true_iff]
      rintro ⟨other, found', _, unresolved⟩
      cases found.symm.trans found'
      exact unresolved resolved

/-- **No line of a record follows once its id is resolved.** -/
theorem stagedFrom_of_settled (roundTrips : RoundTrips readBack) {position : ℕ}
    (events : List Event) {traced : Traced} (settled : Settled position traced.registry) :
    stagedFrom position (result (trace readBack) events traced) = stagedFrom position traced := by
  induction events generalizing traced with
  | nil => rfl
  | cons event events ih =>
      rw [result_cons, ih (settled_trace roundTrips settled), stagedFrom_trace roundTrips,
        opens_of_settled settled, if_neg Bool.false_ne_true, Nat.add_zero]

/-- **The staging log of every run.** Each run of `process` stages one line of every open
record and nothing else, so the lines of a record are the runs at which it is open. From the
moment its id is resolved on it has no further line. -/
theorem staging_spec (roundTrips : RoundTrips readBack) (events later : List Event)
    (position : ℕ) :
    (runTraced readBack events).erase = runEvents readBack events ∧
      stagedFrom position (runTraced readBack events) = openRuns readBack position events ∧
      (Settled position (runTraced readBack events).registry →
        stagedFrom position (runTraced readBack (events ++ later)) =
          stagedFrom position (runTraced readBack events)) := by
  refine ⟨erase_run events, stagedFrom_run roundTrips position events, ?_⟩
  intro settled
  rw [runTraced, result_append]
  exact stagedFrom_of_settled roundTrips later settled

/-- One finding, staged at each of two runs. -/
def stagedTwice : List Event :=
  [.registry (.append (sampleTime 1) sampleFeedback), .process fun _ => sampleTime 2,
    .process fun _ => sampleTime 3]

/-- The review of that finding. -/
def sampleReview : Event :=
  .registry (.markReviewed (sampleTime 4) (sampleTime 4) sampleFeedback.feedbackId "agent")

/-- The finding is open at both runs, and after its review a third one does not stage it again. -/
theorem staging_spec_sample :
    openRuns some 0 stagedTwice = 2 ∧
      stagedFrom 0 (runTraced some stagedTwice) = openRuns some 0 stagedTwice ∧
      stagedFrom 0 (runTraced some
        (stagedTwice ++ [sampleReview] ++ [.process fun _ => sampleTime 5])) =
          stagedFrom 0 (runTraced some (stagedTwice ++ [sampleReview])) := by
  refine ⟨?_, (staging_spec (fun _ => rfl) stagedTwice [] 0).2.1, ?_⟩
  · with_unfolding_all decide
  · apply (staging_spec (fun _ => rfl) (stagedTwice ++ [sampleReview]) _ 0).2.2
    refine ⟨⟨sampleTime 1, sampleFeedback⟩, ?_, ?_⟩
    · with_unfolding_all rfl
    · with_unfolding_all decide

/-- Two runs stage the same pending finding twice. -/
theorem staged_more_than_once :
    (runTraced some stagedTwice).registry.map Entry.record = [sampleFeedback] ∧
      sampleFeedback.status = .pending ∧
      (runEvents some stagedTwice).staging.length = 2 ∧
      ¬ stagedFrom 0 (runTraced some stagedTwice) ≤ 1 := by
  with_unfolding_all decide

end TradeOS.Audit
