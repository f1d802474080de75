import TradeOS.Audit.FeedbackRegistry

/-!
# Appending a batch of feedback

`append_many` checks the type of each item inside its write loop: when an item is not a feedback,
the items before it have been written (`readAll_appendMany`). So a failed call leaves the registry
as it was only if its first item is the bad one (`append_many_atomic_iff`).

A log is its lines, each in the file of a day. What a feedback is written as and what a line is read
back as are parameters; a line that is not read back as a feedback is skipped.
-/

set_option autoImplicit false

namespace TradeOS.Audit.BatchAppend

open Calendar DayLog

/-- What a caller hands over: a feedback, or another value with the name of its type. -/
inductive Item where
  | valid (feedback : Feedback)
  | other (typeName : String)

/-- The text of the `TypeError`. -/
def typeErrorText (typeName : String) : String :=
  "FeedbackRegistry.append_many() requires Feedback[], got " ++ typeName ++ "."

/-- The feedback of an item. -/
def Item.feedback? : Item → Option Feedback
  | .valid feedback => some feedback
  | .other _ => none

/-- The feedback among the items. -/
def feedbacks (items : List Item) : List Feedback := items.filterMap Item.feedback?

/-- The feedback before the first item that is none. -/
def leading : List Item → List Feedback
  | .valid feedback :: items => feedback :: leading items
  | _ => []

section Registry

variable {Line : Type} (dump : Feedback → Line) (parse : Line → Option Feedback)

/-- `append_many`, from its write loop on: the log and the outcome. -/
def appendMany (now : DateTime) :
    List Item → List (Entry Line) → List (Entry Line) × Except String Unit
  | [], log => (log, .ok ())
  | .valid feedback :: items, log => appendMany now items (log ++ [⟨now, dump feedback⟩])
  | .other typeName :: _, log => (log, .error (typeErrorText typeName))

/-- `read_all`. -/
def readAll (log : List (Entry Line)) : List Feedback :=
  (oldestFirst log).filterMap fun entry => parse entry.record

/-- A call is atomic: after a `TypeError` the registry reads as before, and else it has the items
behind what it had. -/
def Atomic (now : DateTime) (items : List Item) (log : List (Entry Line)) : Prop :=
  match appendMany dump now items log with
  | (after, .error _) => readAll parse after = readAll parse log
  | (after, .ok _) => readAll parse after = readAll parse log ++ feedbacks items

/-- What is read from the files of later days. -/
def readLater (now : DateTime) (log : List (Entry Line)) : List Feedback :=
  readAll parse (log.filter fun entry => now.day < entry.day)

end Registry

/-! ## One call -/

section Call

variable {Line : Type} {dump : Feedback → Line} {parse : Line → Option Feedback}

/-- **What a call writes**: the feedback before the first item that is none. -/
theorem appendMany_log (now : DateTime) (items : List Item) (log : List (Entry Line)) :
    (appendMany dump now items log).1 =
      log ++ (leading items).map fun feedback => ⟨now, dump feedback⟩ := by
  induction items generalizing log with
  | nil => exact (List.append_nil log).symm
  | cons item items ih =>
      cases item with
      | valid feedback =>
          rw [appendMany, ih, leading, List.map_cons, List.append_assoc]
          rfl
      | other typeName => exact (List.append_nil log).symm

/-- **When a call fails**: on an item that is no feedback. -/
theorem appendMany_outcome (dump : Feedback → Line) (now : DateTime) (items : List Item)
    (log : List (Entry Line)) :
    (∃ text, (appendMany dump now items log).2 = .error text ∧
        ∃ typeName, Item.other typeName ∈ items) ∨
      (appendMany dump now items log).2 = .ok () ∧ leading items = feedbacks items ∧
        ∀ typeName, Item.other typeName ∉ items := by
  induction items generalizing log with
  | nil => exact .inr ⟨rfl, rfl, fun _ => List.not_mem_nil⟩
  | cons item items ih =>
      cases item with
      | valid feedback =>
          rcases ih (log ++ [⟨now, dump feedback⟩]) with
            ⟨text, failed, typeName, member⟩ | ⟨done, all, clean⟩
          · exact .inl ⟨text, failed, typeName, List.mem_cons_of_mem _ member⟩
          · refine .inr ⟨done, ?_, fun typeName member => ?_⟩
            · rw [leading, all]
              rfl
            · rcases List.mem_cons.mp member with same | later
              · cases same
              · exact clean typeName later
      | other typeName => exact .inl ⟨_, rfl, typeName, List.mem_cons_self⟩

/-- A log is read up to a day, and then the later days. -/
theorem readAll_split (now : DateTime) (log : List (Entry Line)) :
    readAll parse log =
      readAll parse (log.filter fun entry => entry.day ≤ now.day) ++ readLater parse now log := by
  have none : ∀ entry ∈ ([] : List (Entry Line)), entry.day = now.day := nofun
  have split := oldestFirst_append none log
  rw [List.append_nil, List.nil_append] at split
  rw [readAll, split, List.filterMap_append]
  rfl

/-- **What is read after a call**: the items that it wrote stand before the later days. -/
theorem readAll_appendMany (roundTrips : ∀ feedback, parse (dump feedback) = some feedback)
    (now : DateTime) (items : List Item) (log : List (Entry Line)) :
    readAll parse (appendMany dump now items log).1 =
      readAll parse (log.filter fun entry => entry.day ≤ now.day) ++
        (leading items ++ readLater parse now log) := by
  have today : ∀ entry ∈ (leading items).map fun feedback => (⟨now, dump feedback⟩ : Entry Line),
      entry.day = now.day := by
    intro entry member
    obtain ⟨feedback, -, rfl⟩ := List.mem_map.mp member
    rfl
  have readBack :
      ((leading items).map fun feedback => (⟨now, dump feedback⟩ : Entry Line)).filterMap
        (fun entry => parse entry.record) = leading items := by
    rw [List.filterMap_map]
    simp [roundTrips]
  rw [appendMany_log, readAll, oldestFirst_append today, List.filterMap_append,
    List.filterMap_append, readBack]
  rfl

theorem leading_eq_nil_iff {items : List Item} (bad : ∃ typeName, Item.other typeName ∈ items) :
    leading items = [] ↔ ∃ typeName rest, items = .other typeName :: rest := by
  cases items with
  | nil =>
      obtain ⟨typeName, member⟩ := bad
      exact absurd member List.not_mem_nil
  | cons item items =>
      cases item with
      | valid feedback => simp [leading]
      | other typeName => simp [leading]

/-- A failed call changes nothing exactly if nothing was written before it failed. -/
theorem readAll_failed_iff (roundTrips : ∀ feedback, parse (dump feedback) = some feedback)
    (now : DateTime) (items : List Item) (log : List (Entry Line)) :
    readAll parse (appendMany dump now items log).1 = readAll parse log ↔ leading items = [] := by
  rw [readAll_appendMany roundTrips, readAll_split now log, List.append_cancel_left_eq,
    List.append_left_eq_self]

/-- A call without a bad item appends at the end exactly if its items commute with what is read from
later days. -/
theorem readAll_done_iff (roundTrips : ∀ feedback, parse (dump feedback) = some feedback)
    (now : DateTime) {items : List Item} (all : leading items = feedbacks items)
    (log : List (Entry Line)) :
    readAll parse (appendMany dump now items log).1 = readAll parse log ++ feedbacks items ↔
      feedbacks items ++ readLater parse now log = readLater parse now log ++ feedbacks items := by
  rw [readAll_appendMany roundTrips, readAll_split now log, all, List.append_assoc,
    List.append_cancel_left_eq]

/-- Without a file of a later day nothing is read from later days. -/
theorem readLater_eq_nil {now : DateTime} {log : List (Entry Line)}
    (past : ∀ entry ∈ log, entry.day ≤ now.day) : readLater parse now log = [] := by
  have none : log.filter (fun entry => now.day < entry.day) = [] := by
    refine List.filter_eq_nil_iff.mpr fun entry member => ?_
    simpa using past entry member
  rw [readLater, none]
  rfl

/-- **A batch is atomic exactly if its first item is already bad, or no item is and the items
commute with what is read from the files of later days** (there are none unless the clock went
back), for every list of items and every log. -/
theorem append_many_atomic_iff (roundTrips : ∀ feedback, parse (dump feedback) = some feedback)
    (now : DateTime) (items : List Item) (log : List (Entry Line)) :
    Atomic dump parse now items log ↔
      (∃ typeName rest, items = .other typeName :: rest) ∨
        (∀ typeName, Item.other typeName ∉ items) ∧
          feedbacks items ++ readLater parse now log =
            readLater parse now log ++ feedbacks items := by
  rcases appendMany_outcome dump now items log with
    ⟨text, failed, bad⟩ | ⟨done, all, clean⟩
  · have unchanged : Atomic dump parse now items log ↔
        readAll parse (appendMany dump now items log).1 = readAll parse log := by
      rw [Atomic, ← Prod.mk.eta (p := appendMany dump now items log), failed]
    rw [unchanged, readAll_failed_iff roundTrips, leading_eq_nil_iff bad]
    refine (or_iff_left ?_).symm
    rintro ⟨clean, -⟩
    obtain ⟨typeName, member⟩ := bad
    exact clean typeName member
  · have appended : Atomic dump parse now items log ↔
        readAll parse (appendMany dump now items log).1 =
          readAll parse log ++ feedbacks items := by
      rw [Atomic, ← Prod.mk.eta (p := appendMany dump now items log), done]
    rw [appended, readAll_done_iff roundTrips now all]
    constructor
    · exact fun commute => .inr ⟨clean, commute⟩
    · rintro (⟨typeName, rest, rfl⟩ | ⟨-, commute⟩)
      · exact absurd List.mem_cons_self (clean typeName)
      · exact commute

/-- Two feedbacks are appended to a registry that has one of the same day. -/
theorem append_many_atomic_clean :
    Atomic id some (sampleTime 1)
      [.valid sampleFeedback, .valid { sampleFeedback with feedbackId := "fb-2" }]
      [⟨sampleTime 0, sampleFeedback⟩] :=
  (append_many_atomic_iff (fun _ => rfl) (sampleTime 1) _ _).mpr
    (.inr ⟨by simp, by with_unfolding_all decide⟩)

/-- The feedback before a bad item stays in the registry. -/
theorem append_many_leaves_part :
    (appendMany id (sampleTime 1) [.valid sampleFeedback, .other "Review"] []).2 =
        .error "FeedbackRegistry.append_many() requires Feedback[], got Review." ∧
      readAll some [] = [] ∧
      readAll some
          (appendMany id (sampleTime 1) [.valid sampleFeedback, .other "Review"] []).1 =
        [sampleFeedback] := by
  with_unfolding_all decide

end Call

/-! ## The registry of feedback -/

/-- On feedback alone this is the `append_many` of the registry. -/
theorem appendMany_feedbacks (now : DateTime) (written : List Feedback) (log : FeedbackLog) :
    appendMany id now (written.map .valid) log = (Audit.appendMany now written log, .ok ()) := by
  induction written generalizing log with
  | nil => simp [appendMany, Audit.appendMany]
  | cons feedback written ih =>
      rw [List.map_cons, appendMany, ih, Audit.appendMany, Audit.appendMany, List.append_assoc]
      rfl

theorem readAll_feedbacks (readBack : Feedback → Option Feedback) (log : FeedbackLog) :
    readAll readBack log = Audit.readAll readBack none log := by
  have all : (oldestFirst log).filter (fun entry => !skips none entry.day) = oldestFirst log :=
    List.filter_eq_self.mpr fun _ _ => rfl
  rw [readAll, Audit.readAll, all]

end TradeOS.Audit.BatchAppend
