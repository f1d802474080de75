import TradeOS.Data.DayLog
import TradeOS.Data.Removal
import TradeOS.Numeric.Rounding

/-!
# Manual reviews

The review managers of decisions and of executions append to the files of the days, and never
change a line. A review is created pending. Its completion is a record of its own, under the id of
the review with `-completed` behind it, and the pending reviews are those that no completion names.

Which review a completion names is found by removing every `-completed` from its id. So a
completion may also be completed, and names the same review (`listPending_eq`): a review is pending
in every run until it or a completion of it is completed, and never again after that.
-/

set_option autoImplicit false

namespace TradeOS.Audit

open Calendar DayLog Removal

/-! ## Records -/

/-- `ReviewStatus`. -/
inductive ReviewStatus where
  | pending
  | inProgress
  | completed
  | disputed
  deriving DecidableEq, Repr

/-- What a review is about. -/
inductive ReviewType where
  | decision
  | execution
  deriving DecidableEq, Repr

/-- The conclusions that a review may have. -/
def verdicts : List String := ["correct", "incorrect", "lucky", "unlucky", "inconclusive"]

/-- `Review`. -/
structure Review where
  reviewId : String
  timestamp : DateTime
  auditId : String
  reviewType : ReviewType
  reviewer : String := "human"
  accuracyScore : ℚ := 0
  notes : String := ""
  verdict : String := "inconclusive"
  tags : List String := []
  status : ReviewStatus := .pending
  reviewedAt : Option DateTime := none

/-- The digits of a `uuid4().hex`. -/
abbrev HexDigits := { digits : String // ∀ c ∈ digits.toList, c ∈ "0123456789abcdef".toList }

/-- The suffix of a completion. -/
def completedSuffix : String := "-completed"

/-- `review_id.replace("-completed", "")`. -/
def reviewNamed (reviewId : String) : String :=
  String.ofList (removeAll completedSuffix.toList reviewId.toList)

/-! ## The managers -/

/-- What the id of a review starts with. -/
def ReviewType.idPrefix : ReviewType → String
  | .decision => "rev-dec-"
  | .execution => "rev-exec-"

/-- The record of `create`, for the manager of a type. -/
def newReview (reviewType : ReviewType) (uuid : HexDigits) (now : DateTime)
    (auditId reviewer : String) : Review where
  reviewId := reviewType.idPrefix ++ uuid.val
  timestamp := now
  auditId := auditId
  reviewType := reviewType
  reviewer := reviewer

/-- The record of `complete`; nothing where the schema refuses it. -/
def completion (reviewType : ReviewType) (now reviewedAt : DateTime) (reviewId : String)
    (accuracyScore : ℚ) (verdict notes : String) (tags : List String) (auditId : String) :
    Option Review :=
  if 0 ≤ accuracyScore ∧ accuracyScore ≤ 1 ∧ verdict ∈ verdicts then
    some {
      reviewId := reviewId ++ completedSuffix
      timestamp := now
      auditId := auditId
      reviewType := reviewType
      reviewer := "human"
      accuracyScore := accuracyScore
      verdict := verdict
      notes := notes
      tags := tags
      status := .completed
      reviewedAt := some reviewedAt }
  else none

/-- `list_pending`: the files in the order of their days. -/
def listPending (log : List (Entry Review)) : List Review :=
  let allReviews := (oldestFirst log).map Entry.record
  let completedIds := (allReviews.filter fun review => review.status = .completed).map
    fun review => reviewNamed review.reviewId
  allReviews.filter fun review => review.status = .pending ∧ review.reviewId ∉ completedIds

/-- A call of a manager, with its readings of the clock: for the record, for the completion, and
for the name of the file. -/
inductive ReviewCall where
  | create (uuid : HexDigits) (now file : DateTime) (auditId reviewer : String)
  | complete (now reviewedAt file : DateTime) (reviewId : String) (accuracyScore : ℚ)
      (verdict notes : String) (tags : List String) (auditId : String)

namespace ReviewCall

variable (reviewType : ReviewType)

/-- The line that a call appends; none where it raises. -/
def appends : ReviewCall → Option (Entry Review)
  | create uuid now file auditId reviewer =>
      some ⟨file, newReview reviewType uuid now auditId reviewer⟩
  | complete now reviewedAt file reviewId accuracyScore verdict notes tags auditId =>
      (completion reviewType now reviewedAt reviewId accuracyScore verdict notes tags auditId).map
        fun review => ⟨file, review⟩

/-- The review that a call creates. -/
def creates : ReviewCall → Option (Entry Review)
  | create uuid now file auditId reviewer =>
      some ⟨file, newReview reviewType uuid now auditId reviewer⟩
  | _ => none

/-- The id that a call completes, if it does not raise. -/
def completes : ReviewCall → Option String
  | complete _ _ _ reviewId accuracyScore verdict _ _ _ =>
      if 0 ≤ accuracyScore ∧ accuracyScore ≤ 1 ∧ verdict ∈ verdicts then some reviewId else none
  | _ => none

end ReviewCall

/-- The log after a list of calls. -/
def reviewLog (reviewType : ReviewType) (calls : List ReviewCall) : List (Entry Review) :=
  calls.filterMap (ReviewCall.appends reviewType)

/-! ## Names of reviews -/

theorem completedSuffix_toList : completedSuffix.toList = '-' :: "completed".toList := rfl

/-- The id of a created review has no suffix in it. -/
theorem reviewNamed_create (reviewType : ReviewType) (uuid : HexDigits) :
    reviewNamed (reviewType.idPrefix ++ uuid.val) = reviewType.idPrefix ++ uuid.val := by
  have letter : 'o' ∈ completedSuffix.toList := by decide
  have absent : 'o' ∉ (reviewType.idPrefix ++ uuid.val).toList := by
    rw [String.toList_append, List.mem_append]
    rintro (first | second)
    · revert first
      cases reviewType with
      | decision => decide
      | execution => decide
    · exact absurd (uuid.property 'o' second) (by decide)
  rw [reviewNamed, removeAll_of_notMem letter absent, String.ofList_toList]

/-- **A completion names what the completed id names.** -/
theorem reviewNamed_completed (reviewId : String) :
    reviewNamed (reviewId ++ completedSuffix) = reviewNamed reviewId := by
  have once : '-' ∉ "completed".toList := by decide
  rw [reviewNamed, reviewNamed, String.toList_append, completedSuffix_toList,
    removeAll_append once]

/-! ## Pending reviews -/

/-- A line is a review that was created, or a completion of the id that was given. -/
theorem appends_cases {reviewType : ReviewType} {call : ReviewCall} {entry : Entry Review}
    (appended : call.appends reviewType = some entry) :
    (entry.record.status = .pending ∧ call.creates reviewType = some entry ∧
        call.completes = none) ∨
      (entry.record.status = .completed ∧ call.creates reviewType = none ∧
        ∃ reviewId, call.completes = some reviewId ∧
          entry.record.reviewId = reviewId ++ completedSuffix) := by
  cases call with
  | create uuid now file auditId reviewer =>
      obtain rfl := Option.some.inj appended
      exact .inl ⟨rfl, rfl, rfl⟩
  | complete now reviewedAt file reviewId accuracyScore verdict notes tags auditId =>
      simp only [ReviewCall.appends, completion] at appended
      by_cases valid : 0 ≤ accuracyScore ∧ accuracyScore ≤ 1 ∧ verdict ∈ verdicts
      · rw [if_pos valid] at appended
        obtain rfl := Option.some.inj appended
        exact .inr ⟨rfl, rfl, reviewId, if_pos valid, rfl⟩
      · rw [if_neg valid] at appended
        cases appended

/-- A call that appends nothing creates and completes nothing. -/
theorem appends_eq_none {reviewType : ReviewType} {call : ReviewCall}
    (silent : call.appends reviewType = none) :
    call.creates reviewType = none ∧ call.completes = none := by
  cases call with
  | create uuid now file auditId reviewer => cases silent
  | complete now reviewedAt file reviewId accuracyScore verdict notes tags auditId =>
      simp only [ReviewCall.appends, completion] at silent
      by_cases valid : 0 ≤ accuracyScore ∧ accuracyScore ≤ 1 ∧ verdict ∈ verdicts
      · rw [if_pos valid] at silent
        cases silent
      · exact ⟨rfl, if_neg valid⟩

/-- The pending lines of a log are the reviews that were created. -/
theorem filter_pending (reviewType : ReviewType) (calls : List ReviewCall) :
    (reviewLog reviewType calls).filter (fun entry => entry.record.status = .pending) =
      calls.filterMap (ReviewCall.creates reviewType) := by
  rw [reviewLog, List.filter_filterMap]
  refine List.filterMap_congr fun call _ => ?_
  cases appended : call.appends reviewType with
  | none => exact (appends_eq_none appended).1.symm
  | some entry =>
      rcases appends_cases appended with ⟨status, created, -⟩ | ⟨status, created, -⟩
      · rw [created, Option.filter_some, if_pos (decide_eq_true status)]
      · rw [created, Option.filter_some, status]
        rfl

/-- The completed lines of a log name what was completed. -/
theorem exists_completed_iff (reviewType : ReviewType) (calls : List ReviewCall) (name : String) :
    (∃ entry ∈ reviewLog reviewType calls, entry.record.status = .completed ∧
        reviewNamed entry.record.reviewId = name) ↔
      ∃ reviewId ∈ calls.filterMap ReviewCall.completes, reviewNamed reviewId = name := by
  constructor
  · rintro ⟨entry, member, status, named⟩
    obtain ⟨call, made, appended⟩ := List.mem_filterMap.mp member
    rcases appends_cases appended with ⟨other, -⟩ | ⟨-, -, reviewId, completes, ids⟩
    · rw [status] at other
      cases other
    · refine ⟨reviewId, List.mem_filterMap.mpr ⟨call, made, completes⟩, ?_⟩
      rw [← reviewNamed_completed, ← ids, named]
  · rintro ⟨reviewId, member, named⟩
    obtain ⟨call, made, completes⟩ := List.mem_filterMap.mp member
    cases appended : call.appends reviewType with
    | none =>
        rw [(appends_eq_none appended).2] at completes
        cases completes
    | some entry =>
        rcases appends_cases appended with ⟨-, -, silent⟩ | ⟨status, -, other, given, ids⟩
        · rw [silent] at completes
          cases completes
        · rw [completes] at given
          obtain rfl := Option.some.inj given
          refine ⟨entry, List.mem_filterMap.mpr ⟨call, made, appended⟩, status, ?_⟩
          rw [ids, reviewNamed_completed, named]

/-- The ids that `list_pending` leaves out are named by a completed id. -/
theorem mem_completedIds_iff (reviewType : ReviewType) (calls : List ReviewCall) (name : String) :
    name ∈ ((((oldestFirst (reviewLog reviewType calls)).map Entry.record).filter
        fun review => review.status = .completed).map fun review => reviewNamed review.reviewId) ↔
      ∃ reviewId ∈ calls.filterMap ReviewCall.completes, reviewNamed reviewId = name := by
  rw [← exists_completed_iff reviewType]
  constructor
  · intro member
    obtain ⟨record, kept, named⟩ := List.mem_map.mp member
    obtain ⟨found, status⟩ := List.mem_filter.mp kept
    obtain ⟨entry, logged, rfl⟩ := List.mem_map.mp found
    exact ⟨entry, mem_oldestFirst.mp logged, of_decide_eq_true status, named⟩
  · rintro ⟨entry, logged, status, named⟩
    refine List.mem_map.mpr ⟨entry.record, List.mem_filter.mpr ⟨?_, decide_eq_true status⟩, named⟩
    exact List.mem_map.mpr ⟨entry, mem_oldestFirst.mpr logged, rfl⟩

/-- An id with the suffix of a completion, some times. -/
def completedTimes (times : ℕ) (reviewId : String) : String :=
  times.repeat (fun id => id ++ completedSuffix) reviewId

theorem reviewNamed_completedTimes (times : ℕ) (reviewId : String) :
    reviewNamed (completedTimes times reviewId) = reviewNamed reviewId := by
  induction times with
  | zero => rfl
  | succ times ih => exact (reviewNamed_completed _).trans ih

/-- **The pending reviews are those that were created and that no completion names.** They are
listed in the order of the files and lines. In particular a review is not pending in any run in
which it, its completion, or a completion of that was completed, wherever this call stands. -/
theorem listPending_eq (reviewType : ReviewType) (calls : List ReviewCall) :
    listPending (reviewLog reviewType calls) =
        ((oldestFirst (calls.filterMap (ReviewCall.creates reviewType))).map Entry.record).filter
          (fun review => ∀ reviewId ∈ calls.filterMap ReviewCall.completes,
            reviewNamed reviewId ≠ review.reviewId) ∧
      ∀ (call : ReviewCall) (entry : Entry Review) (times : ℕ),
        call.creates reviewType = some entry →
        completedTimes times entry.record.reviewId ∈ calls.filterMap ReviewCall.completes →
          entry.record ∉ listPending (reviewLog reviewType calls) := by
  have listed : listPending (reviewLog reviewType calls) =
      ((oldestFirst (calls.filterMap (ReviewCall.creates reviewType))).map Entry.record).filter
        (fun review => ∀ reviewId ∈ calls.filterMap ReviewCall.completes,
          reviewNamed reviewId ≠ review.reviewId) := by
    have sorted : oldestFirst (calls.filterMap (ReviewCall.creates reviewType)) =
        (oldestFirst (reviewLog reviewType calls)).filter
          fun entry => entry.record.status = .pending := by
      rw [← filter_pending]
      exact (filter_insertionSort (fun entry other : Entry Review => entry.day ≤ other.day)
        (fun entry => entry.record.status = .pending) (reviewLog reviewType calls)).symm
    rw [sorted]
    unfold listPending
    rw [List.filter_map, List.filter_map (l := List.filter _ _), List.filter_filter]
    refine congrArg (List.map Entry.record) (List.filter_congr fun entry _ => ?_)
    rw [Function.comp_apply, Function.comp_apply, Bool.decide_and, Bool.and_comm]
    refine congrArg (· && decide (entry.record.status = .pending)) (decide_eq_decide.mpr ?_)
    rw [mem_completedIds_iff]
    push Not
    rfl
  refine ⟨listed, fun call entry times created completes pending => ?_⟩
  rw [listed] at pending
  have free := of_decide_eq_true (List.mem_filter.mp pending).2
  refine free _ completes ?_
  rw [reviewNamed_completedTimes]
  cases call with
  | create uuid now file auditId reviewer =>
      obtain rfl := Option.some.inj created
      exact reviewNamed_create reviewType uuid
  | complete now reviewedAt file reviewId accuracyScore verdict notes tags auditId =>
      cases created

end TradeOS.Audit
