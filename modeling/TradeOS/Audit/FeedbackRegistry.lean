import TradeOS.Audit.Schemas
import TradeOS.Data.DayLog
import Mathlib.Data.List.Induction

/-!
# The feedback registry

`FeedbackRegistry` only appends. A mark copies the first record of an id, in the order
of reading, with the status `reviewed` or `rejected`, and appends the copy. A feedback is
unprocessed when it is pending and no record of its id has been resolved.

Resolution is by id and has no end: a feedback that is found again under an id that was
once resolved is not unprocessed. `pending_visible_iff` says for which runs a pending
feedback is seen. The time filter of `read_all` compares the midnight of a file with the
full time asked for, and so skips the file of that very day, and an aware time cannot be
compared with it: `readAll_since_iff` says for which logs and times it loses nothing.

What a record is read back as from its JSON line is a parameter.
-/

set_option autoImplicit false

namespace TradeOS.Audit

open Calendar DayLog

/-! ## The registry -/

/-- JSON round-trips: a feedback is read back as it was written. -/
def RoundTrips (readBack : Feedback → Option Feedback) : Prop :=
  ∀ feedback, readBack feedback = some feedback

/-- The lines of the registry, in the order in which they were appended. -/
abbrev FeedbackLog := List (Entry Feedback)

/-- The files that `read_all` skips: those whose midnight is before the time. -/
def skips (since : Option DateTime) (day : ℕ) : Bool :=
  match since with
  | none => false
  | some time => day * dayMicros < time.micros

section Registry

variable (readBack : Feedback → Option Feedback)

/-- The reading of `read_all`, for a naive time. -/
def readAll (since : Option DateTime) (log : FeedbackLog) : List Feedback :=
  ((oldestFirst log).filter fun entry => !skips since entry.day).filterMap
    fun entry => readBack entry.record

/-- The ids with a reviewed or rejected record. -/
def resolvedIds (feedbacks : List Feedback) : List String :=
  (feedbacks.filter fun feedback => feedback.status.resolves).map Feedback.feedbackId

/-- `read_unprocessed`. -/
def readUnprocessed (log : FeedbackLog) : List Feedback :=
  (readAll readBack none log).filter fun feedback =>
    feedback.feedbackId ∉ resolvedIds (readAll readBack none log) ∧ feedback.status = .pending

/-- `append`. -/
def append (now : DateTime) (feedback : Feedback) (log : FeedbackLog) : FeedbackLog :=
  log ++ [⟨now, feedback⟩]

/-- `append_many`. -/
def appendMany (now : DateTime) (feedbacks : List Feedback) (log : FeedbackLog) : FeedbackLog :=
  log ++ feedbacks.map fun feedback => ⟨now, feedback⟩

/-- A mark: the first record of the id is copied with a new status. -/
def mark (update : Feedback → Feedback) (now : DateTime) (feedbackId : String)
    (log : FeedbackLog) : FeedbackLog :=
  match (readAll readBack none log).find? fun feedback => feedback.feedbackId = feedbackId with
  | none => log
  | some feedback => log ++ [⟨now, update feedback⟩]

/-- The copy that `mark_reviewed` writes. -/
def reviewed (reviewedAt : DateTime) (reviewer : String) (feedback : Feedback) : Feedback :=
  { feedback with
    status := .reviewed
    reviewedBy := some reviewer
    reviewedAt := some reviewedAt }

/-- The copy that `mark_rejected` writes. -/
def rejected (reviewedAt : DateTime) (reviewer reason : String) (feedback : Feedback) : Feedback :=
  { feedback with
    status := .rejected
    reviewedBy := some reviewer
    reviewedAt := some reviewedAt
    rejectionReason := some reason }

/-- `mark_reviewed`: the clock is read for the file and for the time of the review. -/
def markReviewed (now reviewedAt : DateTime) (feedbackId reviewer : String)
    (log : FeedbackLog) : FeedbackLog :=
  mark readBack (reviewed reviewedAt reviewer) now feedbackId log

/-- `mark_rejected`. -/
def markRejected (now reviewedAt : DateTime) (feedbackId reviewer reason : String)
    (log : FeedbackLog) : FeedbackLog :=
  mark readBack (rejected reviewedAt reviewer reason) now feedbackId log

/-! ## Runs -/

/-- The calls that write to the registry, with the readings of the clock. -/
inductive Operation where
  | append (now : DateTime) (feedback : Feedback)
  | appendMany (now : DateTime) (feedbacks : List Feedback)
  | markReviewed (now reviewedAt : DateTime) (feedbackId reviewer : String)
  | markRejected (now reviewedAt : DateTime) (feedbackId reviewer reason : String)

namespace Operation

/-- The reading of the clock that names the file. -/
def now : Operation → DateTime
  | append now _ => now
  | appendMany now _ => now
  | markReviewed now _ _ _ => now
  | markRejected now _ _ _ _ => now

/-- The feedback that a call appends. -/
def appended : Operation → List Feedback
  | append _ feedback => [feedback]
  | appendMany _ feedbacks => feedbacks
  | markReviewed _ _ _ _ => []
  | markRejected _ _ _ _ _ => []

/-- The id that a mark names. -/
def marked : Operation → Option String
  | append _ _ => none
  | appendMany _ _ => none
  | markReviewed _ _ feedbackId _ => some feedbackId
  | markRejected _ _ feedbackId _ _ => some feedbackId

end Operation

/-- One call. -/
def perform (log : FeedbackLog) : Operation → FeedbackLog
  | .append now feedback => append now feedback log
  | .appendMany now feedbacks => appendMany now feedbacks log
  | .markReviewed now reviewedAt feedbackId reviewer =>
      markReviewed readBack now reviewedAt feedbackId reviewer log
  | .markRejected now reviewedAt feedbackId reviewer reason =>
      markRejected readBack now reviewedAt feedbackId reviewer reason log

/-- The registry after a sequence of calls. -/
def run (operations : List Operation) : FeedbackLog := operations.foldl (perform readBack) []

end Registry

/-! ## What a call writes -/

/-- The log has a record of an id. -/
def Known (feedbackId : String) (log : FeedbackLog) : Prop :=
  ∃ entry ∈ log, entry.record.feedbackId = feedbackId

/-- The log has a reviewed or rejected record of an id. -/
def Resolved (feedbackId : String) (log : FeedbackLog) : Prop :=
  ∃ entry ∈ log, entry.record.feedbackId = feedbackId ∧ entry.record.status.resolves = true

instance (feedbackId : String) (log : FeedbackLog) : Decidable (Resolved feedbackId log) :=
  inferInstanceAs (Decidable (∃ entry ∈ log, _))

variable {readBack : Feedback → Option Feedback}

theorem readAll_none (roundTrips : RoundTrips readBack) (log : FeedbackLog) :
    readAll readBack none log = (oldestFirst log).map Entry.record := by
  have all : (oldestFirst log).filter (fun entry => !skips none entry.day) = oldestFirst log :=
    List.filter_eq_self.mpr fun _ _ => rfl
  rw [readAll, all, ← List.filterMap_eq_map]
  congr 1
  funext entry
  exact roundTrips entry.record

theorem mem_readAll_none (roundTrips : RoundTrips readBack) {log : FeedbackLog}
    {feedback : Feedback} :
    feedback ∈ readAll readBack none log ↔ ∃ entry ∈ log, entry.record = feedback := by
  rw [readAll_none roundTrips, List.mem_map]
  simp only [mem_oldestFirst]

theorem mem_resolvedIds_iff (roundTrips : RoundTrips readBack) {log : FeedbackLog}
    {feedbackId : String} :
    feedbackId ∈ resolvedIds (readAll readBack none log) ↔ Resolved feedbackId log := by
  simp only [resolvedIds, List.mem_map, List.mem_filter, mem_readAll_none roundTrips]
  constructor
  · rintro ⟨_, ⟨⟨entry, member, rfl⟩, resolves⟩, same⟩
    exact ⟨entry, member, same, resolves⟩
  · rintro ⟨entry, member, same, resolves⟩
    exact ⟨entry.record, ⟨⟨entry, member, rfl⟩, resolves⟩, same⟩

/-- **The unprocessed feedback**: what is pending and has no resolved record of its id. -/
theorem mem_readUnprocessed_iff (roundTrips : RoundTrips readBack) {log : FeedbackLog}
    {feedback : Feedback} :
    feedback ∈ readUnprocessed readBack log ↔
      (∃ entry ∈ log, entry.record = feedback) ∧ feedback.status = .pending ∧
        ¬ Resolved feedback.feedbackId log := by
  rw [readUnprocessed, List.mem_filter, mem_readAll_none roundTrips, decide_eq_true_eq,
    mem_resolvedIds_iff roundTrips]
  exact and_congr_right fun _ => and_comm

/-- **What a mark does**: nothing without a record of the id, else it appends a copy of one. -/
theorem mark_cases (roundTrips : RoundTrips readBack) (update : Feedback → Feedback)
    (now : DateTime) (feedbackId : String) (log : FeedbackLog) :
    (¬ Known feedbackId log ∧ mark readBack update now feedbackId log = log) ∨
      ∃ entry ∈ log, entry.record.feedbackId = feedbackId ∧
        mark readBack update now feedbackId log = log ++ [⟨now, update entry.record⟩] := by
  unfold mark
  cases found : (readAll readBack none log).find? fun feedback =>
      feedback.feedbackId = feedbackId with
  | none =>
      left
      refine ⟨?_, rfl⟩
      rintro ⟨entry, member, same⟩
      have absent := List.find?_eq_none.mp found entry.record
        ((mem_readAll_none roundTrips).mpr ⟨entry, member, rfl⟩)
      exact absent (decide_eq_true same)
  | some feedback =>
      right
      obtain ⟨entry, member, rfl⟩ :=
        (mem_readAll_none roundTrips).mp (List.mem_of_find?_eq_some found)
      exact ⟨entry, member, by simpa using List.find?_some found, rfl⟩

/-- **What a call writes**: the feedback it appends, and for a mark a resolved copy of a
record of its id, if there is one. -/
theorem perform_cases (roundTrips : RoundTrips readBack) (log : FeedbackLog)
    (operation : Operation) :
    (perform readBack log operation =
        log ++ operation.appended.map (fun feedback => ⟨operation.now, feedback⟩) ∧
      ∀ feedbackId, operation.marked = some feedbackId → ¬ Known feedbackId log) ∨
    ∃ copy, operation.appended = [] ∧ operation.marked = some copy.feedbackId ∧
      Known copy.feedbackId log ∧ copy.status.resolves = true ∧
      perform readBack log operation = log ++ [⟨operation.now, copy⟩] := by
  cases operation with
  | append now feedback => exact .inl ⟨rfl, fun _ marked => nomatch marked⟩
  | appendMany now feedbacks => exact .inl ⟨rfl, fun _ marked => nomatch marked⟩
  | markReviewed now reviewedAt feedbackId reviewer =>
      rcases mark_cases roundTrips (reviewed reviewedAt reviewer) now feedbackId log with
        ⟨unknown, same⟩ | ⟨entry, member, rfl, written⟩
      · refine .inl ⟨same.trans (List.append_nil log).symm, ?_⟩
        rintro _ ⟨⟩
        exact unknown
      · exact .inr ⟨reviewed reviewedAt reviewer entry.record, rfl, rfl, ⟨entry, member, rfl⟩, rfl,
          written⟩
  | markRejected now reviewedAt feedbackId reviewer reason =>
      rcases mark_cases roundTrips (rejected reviewedAt reviewer reason) now feedbackId log with
        ⟨unknown, same⟩ | ⟨entry, member, rfl, written⟩
      · refine .inl ⟨same.trans (List.append_nil log).symm, ?_⟩
        rintro _ ⟨⟩
        exact unknown
      · exact .inr ⟨rejected reviewedAt reviewer reason entry.record, rfl, rfl,
          ⟨entry, member, rfl⟩, rfl, written⟩

/-! ## What a run has written -/

/-- A feedback of an id was appended before a mark that names it. -/
def MarkedAfterAppend (feedbackId : String) (operations : List Operation) : Prop :=
  ∃ earlier operation later, operations = earlier ++ operation :: later ∧
    operation.marked = some feedbackId ∧
    ∃ other ∈ earlier, ∃ feedback ∈ other.appended, feedback.feedbackId = feedbackId

theorem run_append_singleton (operations : List Operation) (operation : Operation) :
    run readBack (operations ++ [operation]) = perform readBack (run readBack operations) operation := by
  rw [run, List.foldl_append]
  rfl

/-- An entry after one call was there before, or is a record that the call wrote. -/
theorem known_perform_iff (roundTrips : RoundTrips readBack) {log : FeedbackLog}
    {operation : Operation} {feedbackId : String} :
    Known feedbackId (perform readBack log operation) ↔
      Known feedbackId log ∨
        ∃ feedback ∈ operation.appended, feedback.feedbackId = feedbackId := by
  rcases perform_cases roundTrips log operation with ⟨written, _⟩ |
    ⟨copy, none, _, known, _, written⟩
  · rw [written]
    simp only [Known, List.mem_append, List.mem_map, or_and_right, exists_or]
    simp
  · rw [written, none]
    simp only [Known, List.mem_append, List.mem_singleton, List.not_mem_nil, false_and,
      exists_false, or_false]
    constructor
    · rintro ⟨entry, old | rfl, same⟩
      · exact ⟨entry, old, same⟩
      · exact same ▸ known
    · rintro ⟨entry, member, same⟩
      exact ⟨entry, .inl member, same⟩

theorem resolved_perform_iff (roundTrips : RoundTrips readBack) {log : FeedbackLog}
    {operation : Operation} {feedbackId : String} :
    Resolved feedbackId (perform readBack log operation) ↔
      Resolved feedbackId log ∨
        (∃ feedback ∈ operation.appended,
          feedback.feedbackId = feedbackId ∧ feedback.status.resolves = true) ∨
        (operation.marked = some feedbackId ∧ Known feedbackId log) := by
  rcases perform_cases roundTrips log operation with ⟨written, unknown⟩ |
    ⟨copy, none, marked, known, resolves, written⟩
  · have idle : ¬ (operation.marked = some feedbackId ∧ Known feedbackId log) :=
      fun effective => unknown feedbackId effective.1 effective.2
    rw [written]
    simp only [Resolved, List.mem_append, List.mem_map, or_and_right, exists_or, idle, or_false]
    simp
  · rw [written, none, marked]
    simp only [Resolved, List.mem_append, List.mem_singleton, List.not_mem_nil, false_and,
      exists_false, false_or, Option.some.injEq]
    constructor
    · rintro ⟨entry, old | rfl, same, status⟩
      · exact .inl ⟨entry, old, same, status⟩
      · exact .inr ⟨same, same ▸ known⟩
    · rintro (⟨entry, member, same, status⟩ | ⟨rfl, _⟩)
      · exact ⟨entry, .inl member, same, status⟩
      · exact ⟨⟨operation.now, copy⟩, .inr rfl, rfl, resolves⟩

/-- The ids in the log are those of the appended feedback. -/
theorem known_run_iff (roundTrips : RoundTrips readBack) {operations : List Operation}
    {feedbackId : String} :
    Known feedbackId (run readBack operations) ↔
      ∃ operation ∈ operations, ∃ feedback ∈ operation.appended,
        feedback.feedbackId = feedbackId := by
  induction operations using List.reverseRecOn with
  | nil => simp [run, Known]
  | append_singleton operations operation ih =>
      rw [run_append_singleton, known_perform_iff roundTrips, ih]
      simp only [List.mem_append, List.mem_singleton, or_and_right, exists_or, exists_eq_left]

theorem markedAfterAppend_append_singleton {operations : List Operation} {operation : Operation}
    {feedbackId : String} :
    MarkedAfterAppend feedbackId (operations ++ [operation]) ↔
      MarkedAfterAppend feedbackId operations ∨
        (operation.marked = some feedbackId ∧
          ∃ other ∈ operations, ∃ feedback ∈ other.appended, feedback.feedbackId = feedbackId) := by
  constructor
  · rintro ⟨earlier, marking, later, split, marked, known⟩
    rcases List.eq_nil_or_concat later with rfl | ⟨rest, last, rfl⟩
    · obtain ⟨rfl, rfl⟩ : operations = earlier ∧ operation = marking := by simpa using split
      exact .inr ⟨marked, known⟩
    · have shorter : operations ++ [operation] = (earlier ++ marking :: rest) ++ [last] := by
        rw [split]
        simp
      exact .inl ⟨earlier, marking, rest, (List.append_inj' shorter rfl).1, marked, known⟩
  · rintro (⟨earlier, marking, later, rfl, marked, known⟩ | ⟨marked, known⟩)
    · exact ⟨earlier, marking, later ++ [operation], by simp, marked, known⟩
    · exact ⟨operations, operation, [], rfl, marked, known⟩

/-- The resolved ids are those of the feedback appended as resolved, and those marked after
an append. -/
theorem resolved_run_iff (roundTrips : RoundTrips readBack) {operations : List Operation}
    {feedbackId : String} :
    Resolved feedbackId (run readBack operations) ↔
      (∃ operation ∈ operations, ∃ feedback ∈ operation.appended,
        feedback.feedbackId = feedbackId ∧ feedback.status.resolves = true) ∨
      MarkedAfterAppend feedbackId operations := by
  induction operations using List.reverseRecOn with
  | nil =>
      refine iff_of_false (by simp [run, Resolved]) ?_
      rintro (⟨_, none, _⟩ | ⟨earlier, _, _, split, _⟩)
      · cases none
      · simp at split
  | append_singleton operations operation ih =>
      rw [run_append_singleton, resolved_perform_iff roundTrips, ih,
        markedAfterAppend_append_singleton, known_run_iff roundTrips]
      simp only [List.mem_append, List.mem_singleton, or_and_right, exists_or, exists_eq_left]
      exact or_or_or_comm

/-- The log only grows. -/
theorem mem_perform (roundTrips : RoundTrips readBack) {log : FeedbackLog} (operation : Operation)
    {entry : Entry Feedback} (member : entry ∈ log) : entry ∈ perform readBack log operation := by
  rcases perform_cases roundTrips log operation with ⟨written, _⟩ | ⟨copy, _, _, _, _, written⟩
  · rw [written]
    exact List.mem_append_left _ member
  · rw [written]
    exact List.mem_append_left _ member

theorem mem_run_of_appended (roundTrips : RoundTrips readBack) {operations : List Operation}
    {operation : Operation} {feedback : Feedback} (called : operation ∈ operations)
    (appended : feedback ∈ operation.appended) :
    ∃ entry ∈ run readBack operations, entry.record = feedback := by
  induction operations using List.reverseRecOn with
  | nil => cases called
  | append_singleton operations last ih =>
      rw [run_append_singleton]
      rcases List.mem_append.mp called with before | here
      · obtain ⟨entry, member, same⟩ := ih before
        exact ⟨entry, mem_perform roundTrips last member, same⟩
      · cases List.mem_singleton.mp here
        rcases perform_cases roundTrips (run readBack operations) operation with ⟨written, _⟩ |
          ⟨copy, none, _, _, _, _⟩
        · rw [written]
          exact ⟨⟨operation.now, feedback⟩,
            List.mem_append_right _ (List.mem_map_of_mem appended), rfl⟩
        · rw [none] at appended
          cases appended

/-! ## When pending feedback is seen -/

/-- A call that appends marks nothing. -/
theorem marked_eq_none_of_appended {operation : Operation} {feedback : Feedback}
    (appended : feedback ∈ operation.appended) : operation.marked = none := by
  cases operation with
  | append now other => rfl
  | appendMany now others => rfl
  | markReviewed now reviewedAt feedbackId reviewer => cases appended
  | markRejected now reviewedAt feedbackId reviewer reason => cases appended

/-- Calls that do not mark the id add no mark after an append. -/
theorem markedAfterAppend_append {before after : List Operation} {feedbackId : String}
    (unmarked : ∀ later ∈ after, later.marked ≠ some feedbackId) :
    MarkedAfterAppend feedbackId (before ++ after) ↔ MarkedAfterAppend feedbackId before := by
  induction after using List.reverseRecOn with
  | nil => rw [List.append_nil]
  | append_singleton after last ih =>
      have other := unmarked last (List.mem_append_right _ List.mem_cons_self)
      rw [← List.append_assoc, markedAfterAppend_append_singleton,
        ih fun later member => unmarked later (List.mem_append_left _ member)]
      simp only [other, false_and, or_false]

/-- **A pending feedback that was appended after the last mark of its id is unprocessed exactly
when no mark of the id came after an append of the id, and no feedback of the id was appended
as resolved.** -/
theorem pending_visible_iff (roundTrips : RoundTrips readBack) (before after : List Operation)
    {operation : Operation} {feedback : Feedback} (appended : feedback ∈ operation.appended)
    (pending : feedback.status = .pending)
    (unmarked : ∀ later ∈ after, later.marked ≠ some feedback.feedbackId) :
    feedback ∈ readUnprocessed readBack (run readBack (before ++ operation :: after)) ↔
      ¬ MarkedAfterAppend feedback.feedbackId before ∧
        ∀ other ∈ before ++ operation :: after, ∀ version ∈ other.appended,
          version.feedbackId = feedback.feedbackId → version.status.resolves = false := by
  have others : ∀ later ∈ operation :: after, later.marked ≠ some feedback.feedbackId := by
    intro later member
    rcases List.mem_cons.mp member with rfl | rest
    · rw [marked_eq_none_of_appended appended]
      exact nofun
    · exact unmarked later rest
  have called : operation ∈ before ++ operation :: after :=
    List.mem_append_right before List.mem_cons_self
  have stored := mem_run_of_appended roundTrips called appended
  rw [mem_readUnprocessed_iff roundTrips, resolved_run_iff roundTrips,
    markedAfterAppend_append others]
  constructor
  · rintro ⟨_, _, unresolved⟩
    refine ⟨fun marked => unresolved (.inr marked), ?_⟩
    intro other performed version listed same
    by_contra resolves
    exact unresolved (.inl ⟨other, performed, version, listed, same, by simpa using resolves⟩)
  · rintro ⟨unresolved, unfinished⟩
    refine ⟨stored, pending, ?_⟩
    rintro (⟨other, performed, version, listed, same, resolves⟩ | marked)
    · rw [unfinished other performed version listed same] at resolves
      exact Bool.false_ne_true resolves
    · exact unresolved marked

/-- A time on a day of the year 2024. -/
def sampleTime (micros : ℕ) : DateTime := .ofDay 738900 micros

/-- A finding of the signal decay generator. -/
def sampleFeedback : Feedback where
  feedbackId := "fb-decay-macro-carry-<24h"
  timestamp := sampleTime 0
  feedbackType := .signalDecay
  metricName := "signal_age_pnl_pct"

/-- A finding that two scans append is unprocessed as long as nobody marks it. -/
theorem pending_visible_sample :
    sampleFeedback ∈ readUnprocessed some (run some
      [.append (sampleTime 1) sampleFeedback, .appendMany (sampleTime 2) [sampleFeedback]]) := by
  have appended : sampleFeedback ∈ (Operation.append (sampleTime 1) sampleFeedback).appended :=
    List.mem_cons_self
  refine (pending_visible_iff (fun _ => rfl) [] _ appended rfl ?_).mpr ⟨?_, ?_⟩
  · intro later member
    rw [List.mem_singleton.mp member]
    exact nofun
  · rintro ⟨earlier, marking, later, split, _⟩
    simp at split
  · with_unfolding_all decide

/-- A finding that was reviewed once and is found again is not seen. -/
theorem found_again_unseen :
    sampleFeedback.status = .pending ∧
      sampleFeedback ∉ readUnprocessed some (run some
        [.append (sampleTime 1) sampleFeedback,
          .markReviewed (sampleTime 2) (sampleTime 3) sampleFeedback.feedbackId "agent",
          .append (sampleTime 4) sampleFeedback]) := by
  with_unfolding_all decide

/-! ## The time filter -/

/-- A call adds lines under the time at which it was made. -/
theorem exists_written (roundTrips : RoundTrips readBack) (log : FeedbackLog)
    (operation : Operation) :
    ∃ written, perform readBack log operation = log ++ written ∧
      ∀ entry ∈ written, entry.time = operation.now := by
  rcases perform_cases roundTrips log operation with ⟨written, _⟩ | ⟨copy, _, _, _, _, written⟩
  · refine ⟨_, written, ?_⟩
    intro entry member
    obtain ⟨feedback, _, rfl⟩ := List.mem_map.mp member
    rfl
  · refine ⟨_, written, ?_⟩
    intro entry member
    rw [List.mem_singleton.mp member]

/-- With a clock that does not go back the log is in the order of its times. -/
theorem sorted_run (roundTrips : RoundTrips readBack) {operations : List Operation}
    (clock : operations.Pairwise fun operation later =>
      operation.now.micros ≤ later.now.micros) :
    Sorted (run readBack operations) ∧
      ∀ entry ∈ run readBack operations, ∃ operation ∈ operations, entry.time = operation.now := by
  induction operations using List.reverseRecOn with
  | nil => exact ⟨List.Pairwise.nil, fun entry member => nomatch member⟩
  | append_singleton operations operation ih =>
      obtain ⟨earlier, _, ordered⟩ := List.pairwise_append.mp clock
      obtain ⟨sorted, timed⟩ := ih earlier
      obtain ⟨written, performed, now⟩ :=
        exists_written roundTrips (run readBack operations) operation
      rw [run_append_singleton, performed]
      refine ⟨List.pairwise_append.mpr ⟨sorted, ?_, ?_⟩, ?_⟩
      · refine List.pairwise_of_forall_mem_list ?_
        intro entry member other member'
        rw [now entry member, now other member']
      · intro entry member other member'
        obtain ⟨call, called, same⟩ := timed entry member
        rw [same, now other member']
        exact ordered call called operation List.mem_cons_self
      · intro entry member
        rcases List.mem_append.mp member with old | new
        · obtain ⟨call, called, same⟩ := timed entry old
          exact ⟨call, List.mem_append_left _ called, same⟩
        · exact ⟨operation, List.mem_append_right _ List.mem_cons_self, now entry new⟩

/-- The files read are those of the log whose midnight is not before the time. -/
theorem readAll_some (roundTrips : RoundTrips readBack) {log : FeedbackLog} (sorted : Sorted log)
    (since : DateTime) :
    readAll readBack (some since) log =
      (log.filter fun entry => since.micros ≤ entry.day * dayMicros).map Entry.record := by
  rw [readAll, oldestFirst_eq_of_sorted sorted, ← List.filterMap_eq_map]
  have valid : (fun entry : Entry Feedback => readBack entry.record) = some ∘ Entry.record := by
    funext entry
    exact roundTrips entry.record
  rw [valid]
  congr 1
  refine List.filter_congr ?_
  intro entry _
  simp [skips, ← decide_not]

/-- The lines that were appended from a time on. -/
def appendedSince (since : DateTime) (log : FeedbackLog) : List Feedback :=
  (log.filter fun entry => since.micros ≤ entry.time.micros).map Entry.record

/-- A file whose midnight is not before a time has lines from that time on only. -/
theorem time_of_day {since : DateTime} {entry : Entry Feedback}
    (read : since.micros ≤ entry.day * dayMicros) : since.micros ≤ entry.time.micros :=
  read.trans (Nat.div_mul_le_self _ _)

/-- From a midnight on every file with a line in time is read. -/
theorem read_of_midnight {since : DateTime} {entry : Entry Feedback}
    (midnight : since.micros % dayMicros = 0) (after : since.micros ≤ entry.time.micros) :
    since.micros ≤ entry.day * dayMicros := by
  have whole : since.micros = since.micros / dayMicros * dayMicros :=
    (Nat.div_mul_cancel (Nat.dvd_of_mod_eq_zero midnight)).symm
  rw [whole]
  exact Nat.mul_le_mul_right _ (DateTime.day_mono after)

/-- The file of a later day is read. -/
theorem read_of_later_day {since : DateTime} {entry : Entry Feedback}
    (after : since.micros ≤ entry.time.micros) (other : entry.day ≠ since.day) :
    since.micros ≤ entry.day * dayMicros := by
  have later : since.day + 1 ≤ entry.day := lt_of_le_of_ne (DateTime.day_mono after) other.symm
  have bound := Nat.mul_le_mul_right dayMicros later
  have rest := Nat.mod_lt since.micros (show 0 < dayMicros by decide)
  have parts := Nat.div_add_mod since.micros dayMicros
  rw [DateTime.day, Nat.add_mul, Nat.one_mul, Nat.mul_comm] at bound
  omega

/-- The file of the day itself is not read, except from midnight on. -/
theorem not_read_of_own_day {since : DateTime} {entry : Entry Feedback}
    (offset : since.micros % dayMicros ≠ 0) (own : entry.day = since.day) :
    ¬ since.micros ≤ entry.day * dayMicros := by
  intro read
  have parts := Nat.div_add_mod since.micros dayMicros
  rw [own, DateTime.day, Nat.mul_comm] at read
  omega

/-- The lines of the files that are read, of days whose midnight is not before the time. -/
def ofLaterDays (since : DateTime) (log : FeedbackLog) : FeedbackLog :=
  log.filter fun entry => since.micros ≤ entry.day * dayMicros

/-- In a sorted log these lines are the last. -/
theorem ofLaterDays_suffix (since : DateTime) {log : FeedbackLog} (sorted : Sorted log) :
    ofLaterDays since log <:+ log := by
  refine filter_suffix_of_sorted sorted ?_
  intro entry other earlier read
  have days := Nat.mul_le_mul_right dayMicros (DateTime.day_mono earlier)
  exact decide_eq_true ((of_decide_eq_true read).trans days)

/-- Where the time is a midnight, or nothing was appended later on its day, these are the lines
that were appended from the time on. -/
theorem appendedSince_eq_ofLaterDays {since : DateTime} {log : FeedbackLog}
    (covered : since.micros % dayMicros = 0 ∨
      ∀ entry ∈ log, since.micros ≤ entry.time.micros → entry.day ≠ since.day) :
    appendedSince since log = (ofLaterDays since log).map Entry.record := by
  rw [appendedSince, ofLaterDays]
  congr 1
  refine List.filter_congr ?_
  intro entry member
  rw [decide_eq_decide]
  refine ⟨fun after => ?_, time_of_day⟩
  rcases covered with midnight | none
  · exact read_of_midnight midnight after
  · exact read_of_later_day after (none entry member after)

/-- Where these lines are as many as those that were appended from the time on, each of the latter
is one of them. -/
theorem mem_ofLaterDays_of_length {since : DateTime} {log : FeedbackLog}
    (long : (appendedSince since log).length ≤ (ofLaterDays since log).length)
    {entry : Entry Feedback} (member : entry ∈ log) (after : since.micros ≤ entry.time.micros) :
    entry ∈ ofLaterDays since log := by
  have part : (ofLaterDays since log).Sublist
      (log.filter fun entry => since.micros ≤ entry.time.micros) := by
    refine List.monotone_filter_right _ ?_
    intro other read
    exact decide_eq_true (time_of_day (of_decide_eq_true read))
  rw [appendedSince, List.length_map] at long
  rw [part.eq_of_length_le long]
  exact List.mem_filter.mpr ⟨member, decide_eq_true after⟩

/-- From a naive time on nothing is lost exactly when the time is a midnight, or nothing was
appended later on its day. What is read is always a suffix of the whole log. -/
theorem readAll_naive_iff (roundTrips : RoundTrips readBack) {operations : List Operation}
    (clock : operations.Pairwise fun operation later =>
      operation.now.micros ≤ later.now.micros) (since : DateTime) :
    (readAll readBack (some since) (run readBack operations) <:+
        readAll readBack none (run readBack operations) ∧
      appendedSince since (run readBack operations) <:+
        readAll readBack (some since) (run readBack operations)) ↔
      since.micros % dayMicros = 0 ∨
        ∀ entry ∈ run readBack operations,
          since.micros ≤ entry.time.micros → entry.day ≠ since.day := by
  obtain ⟨sorted, _⟩ := sorted_run roundTrips clock
  set log := run readBack operations
  rw [readAll_some roundTrips sorted, readAll_none roundTrips, oldestFirst_eq_of_sorted sorted,
    ← ofLaterDays]
  constructor
  · rintro ⟨_, late⟩
    by_contra lost
    obtain ⟨offset, entry, member, after, day⟩ : since.micros % dayMicros ≠ 0 ∧
        ∃ entry ∈ log, since.micros ≤ entry.time.micros ∧ entry.day = since.day := by
      simpa using lost
    have long := late.length_le
    rw [List.length_map] at long
    have kept := mem_ofLaterDays_of_length long member after
    exact not_read_of_own_day offset day (of_decide_eq_true (List.mem_filter.mp kept).2)
  · intro covered
    rw [appendedSince_eq_ofLaterDays covered]
    exact ⟨(ofLaterDays_suffix since sorted).map Entry.record, List.suffix_refl _⟩

/-- The registry has a file: a line was appended, or a batch, which opens its file first. -/
def hasFile (readBack : Feedback → Option Feedback) (operations : List Operation) : Bool :=
  !(run readBack operations).isEmpty || operations.any fun operation =>
    match operation with
    | .appendMany _ _ => true
    | _ => false

/-- `read_all`, after a run. -/
def readAfter (readBack : Feedback → Option Feedback) (operations : List Operation)
    (since : Option Moment) : Except String (List Feedback) :=
  readSince (fun time => readAll readBack time (run readBack operations))
    (hasFile readBack operations) since

/-- The time filter loses nothing: what is read is a suffix of the whole log, and has what was
appended from the time on. -/
def LosesNothing (readBack : Feedback → Option Feedback) (operations : List Operation)
    (since : Moment) (shown : DateTime) : Prop :=
  ∃ read, readAfter readBack operations (some since) = .ok read ∧
    read <:+ readAll readBack none (run readBack operations) ∧
    appendedSince shown (run readBack operations) <:+ read

/-- **The time filter loses nothing exactly when the time is naive and a midnight, or naive
with nothing appended later on its day, or aware while there is no file.** -/
theorem readAll_since_iff (roundTrips : RoundTrips readBack) {operations : List Operation}
    (clock : operations.Pairwise fun operation later =>
      operation.now.micros ≤ later.now.micros) (since : DateTime) :
    (LosesNothing readBack operations (.naive since) since ↔
      since.micros % dayMicros = 0 ∨
        ∀ entry ∈ run readBack operations,
          since.micros ≤ entry.time.micros → entry.day ≠ since.day) ∧
    (LosesNothing readBack operations (.aware since) since ↔
      hasFile readBack operations = false) := by
  constructor
  · rw [← readAll_naive_iff roundTrips clock since]
    constructor
    · rintro ⟨read, returned, suffix⟩
      have same : readAll readBack (some since) (run readBack operations) = read :=
        Except.ok.inj returned
      rw [same]
      exact suffix
    · intro suffix
      exact ⟨_, rfl, suffix⟩
  · cases filed : hasFile readBack operations with
    | true =>
        refine iff_of_false ?_ (by decide)
        rintro ⟨read, returned, _⟩
        rw [readAfter, filed] at returned
        cases returned
    | false =>
        refine iff_of_true ?_ rfl
        have none : run readBack operations = [] := by
          have unfiled := (Bool.or_eq_false_iff.mp filed).1
          simpa using unfiled
        refine ⟨[], ?_, List.nil_suffix, ?_⟩
        · rw [readAfter, filed, none]
          rfl
        · rw [none]
          exact List.nil_suffix

/-- From a midnight on nothing is lost, though the day goes on. -/
theorem readAll_since_midnight :
    (sampleTime 0).micros % dayMicros = 0 ∧
      LosesNothing some [.append (sampleTime 1) sampleFeedback,
        .append (sampleTime 2) sampleFeedback] (.naive (sampleTime 0)) (sampleTime 0) := by
  have midnight : (sampleTime 0).micros % dayMicros = 0 := by with_unfolding_all decide
  refine ⟨midnight, ((readAll_since_iff (fun _ => rfl) ?_ (sampleTime 0)).1.mpr (.inl midnight))⟩
  refine List.pairwise_pair.mpr ?_
  with_unfolding_all decide

/-- A feedback that was appended later on the day of the time asked for is lost, and an aware
midnight raises. -/
theorem readAll_since_loses :
    (sampleTime 5).micros ≤ (sampleTime 7).micros ∧
      readAfter some [.append (sampleTime 7) sampleFeedback] (some (.naive (sampleTime 5))) =
        .ok [] ∧
      appendedSince (sampleTime 5) (run some [.append (sampleTime 7) sampleFeedback]) =
        [sampleFeedback] ∧
      readAfter some [.append (sampleTime 7) sampleFeedback] (some (.aware (sampleTime 0))) =
        .error "can't compare offset-naive and offset-aware datetimes" := by
  refine ⟨by with_unfolding_all decide, ?_, by with_unfolding_all decide, rfl⟩
  exact congrArg Except.ok (by with_unfolding_all decide)

end TradeOS.Audit
