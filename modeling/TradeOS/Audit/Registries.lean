import TradeOS.Audit.Schemas
import TradeOS.Data.DayLog

/-!
# The decision and execution registries

Both registries append a record to the file of the current day, and read the files
from the newest on. `read_all` skips a file whose day is before the day of `since`,
drops the records that a filter excludes, and sorts the rest by timestamp, the latest
first. A filter value that is empty filters nothing, like an absent one.

A record is not later than its append, so a skipped file has no record that the time
filter would keep. Skipping files is transparent (`readAll_transparent`). The dates of the
files are naive, and so is `since`: with an aware one the first file raises.

A line that does not validate is skipped. What a record is read back as is a
parameter; a line that validates gives the record that was written.
-/

set_option autoImplicit false

namespace TradeOS.Audit

open Calendar DayLog

/-! ## Reading -/

section Registry

variable {ρ : Type}

/-- `append`: the record goes to the file of the day. -/
def appendRecord (log : List (Entry ρ)) (now : DateTime) (record : ρ) : List (Entry ρ) :=
  log ++ [⟨now, record⟩]

/-- The registry after a sequence of appends. -/
def appendAll (appends : List (DateTime × ρ)) : List (Entry ρ) :=
  appends.foldl (fun log entry => appendRecord log entry.1 entry.2) []

/-- A filter value that is absent or empty admits every text. -/
def admits (wanted : Option String) (actual : String) : Bool :=
  match wanted with
  | none => true
  | some text => text = "" ∨ actual = text

/-- `_date_might_match`. -/
def dateMightMatch (since : Option DateTime) (day : ℕ) : Bool :=
  match since with
  | none => true
  | some time => time.day ≤ day

/-- The time filter of a record. -/
def notBefore (since : Option DateTime) (timestamp : DateTime) : Bool :=
  match since with
  | none => true
  | some time => time.micros ≤ timestamp.micros

variable (timestamp : ρ → DateTime)

/-- `sort` by timestamp, in reverse. -/
def latestFirst (records : List ρ) : List ρ :=
  records.insertionSort fun record other => (timestamp other).micros ≤ (timestamp record).micros

/-- The body of `read_all`, for the filters that are not about the time. -/
def readFiltered (readBack : ρ → Option ρ) (matching : ρ → Bool) (since : Option DateTime)
    (log : List (Entry ρ)) : List ρ :=
  latestFirst timestamp
    (((((newestFirst log).filter fun entry => dateMightMatch since entry.day).filterMap
      fun entry => readBack entry.record).filter matching).filter
        fun record => notBefore since (timestamp record))

/-- A line that validates gives the record that was written. -/
def Faithful (readBack : ρ → Option ρ) : Prop :=
  ∀ record record', readBack record = some record' → record' = record

/-- No record is later than its append. -/
def Timely (log : List (Entry ρ)) : Prop :=
  ∀ entry ∈ log, (timestamp entry.record).micros ≤ entry.time.micros

/-! ## Skipping files -/

theorem appendAll_eq (appends : List (DateTime × ρ)) :
    appendAll appends = appends.map fun entry => ⟨entry.1, entry.2⟩ := by
  have grown : ∀ log : List (Entry ρ),
      appends.foldl (fun log entry => appendRecord log entry.1 entry.2) log =
        log ++ appends.map fun entry => ⟨entry.1, entry.2⟩ := by
    induction appends with
    | nil => intro log; exact (List.append_nil log).symm
    | cons entry rest ih =>
        intro log
        rw [List.foldl_cons, ih, appendRecord, List.append_assoc, List.map_cons,
          List.singleton_append]
  exact grown []

variable {timestamp}

/-- A file that is skipped has no record that the time filter keeps. -/
theorem notBefore_eq_false_of_skipped {since : Option DateTime} {entry : Entry ρ}
    (timely : (timestamp entry.record).micros ≤ entry.time.micros)
    (skipped : dateMightMatch since entry.day = false) :
    notBefore since (timestamp entry.record) = false := by
  cases since with
  | none => cases skipped
  | some time =>
      have day : entry.day < time.day := by simpa [dateMightMatch] using skipped
      have earlier : (timestamp entry.record).micros < time.micros := by
        by_contra later
        exact absurd (DateTime.day_mono ((not_lt.mp later).trans timely)) (not_le.mpr day)
      simpa [notBefore] using earlier

/-- Reading without the skipped files finds every record that the time filter keeps. -/
theorem filter_readBack_skip {readBack : ρ → Option ρ} (faithful : Faithful readBack)
    (since : Option DateTime) {log : List (Entry ρ)} (timely : Timely timestamp log) :
    ((log.filter fun entry => dateMightMatch since entry.day).filterMap
        fun entry => readBack entry.record).filter (fun record => notBefore since (timestamp record)) =
      (log.filterMap fun entry => readBack entry.record).filter
        fun record => notBefore since (timestamp record) := by
  induction log with
  | nil => rfl
  | cons entry rest ih =>
      have later := ih fun other member => timely other (List.mem_cons_of_mem entry member)
      cases matched : dateMightMatch since entry.day with
      | true =>
          rw [List.filter_cons, if_pos matched, List.filterMap_cons, List.filterMap_cons]
          cases readBack entry.record with
          | none => exact later
          | some record => rw [List.filter_cons, List.filter_cons, later]
      | false =>
          have late := notBefore_eq_false_of_skipped (timely entry List.mem_cons_self) matched
          rw [List.filter_cons, if_neg (by rw [matched]; exact Bool.false_ne_true),
            List.filterMap_cons]
          cases valid : readBack entry.record with
          | none => exact later
          | some record =>
              rw [List.filter_cons, faithful _ _ valid, late, if_neg Bool.false_ne_true]
              exact later

theorem timely_newestFirst {log : List (Entry ρ)} (timely : Timely timestamp log) :
    Timely timestamp (newestFirst log) :=
  fun entry member => timely entry ((List.mem_insertionSort _).mp member)

theorem latest_total :
    Std.Total fun record other : ρ => (timestamp other).micros ≤ (timestamp record).micros :=
  ⟨fun _ _ => Nat.le_total _ _⟩

theorem latest_isTrans :
    IsTrans ρ fun record other => (timestamp other).micros ≤ (timestamp record).micros :=
  ⟨fun _ _ _ first second => second.trans first⟩

theorem filter_latestFirst (p : ρ → Bool) (records : List ρ) :
    (latestFirst timestamp records).filter p = latestFirst timestamp (records.filter p) := by
  have total := @latest_total ρ timestamp
  have trans := @latest_isTrans ρ timestamp
  exact filter_insertionSort _ p records

theorem latestFirst_sorted (records : List ρ) :
    (latestFirst timestamp records).Pairwise
      fun record other => (timestamp other).micros ≤ (timestamp record).micros := by
  have total := @latest_total ρ timestamp
  have trans := @latest_isTrans ρ timestamp
  exact List.pairwise_insertionSort _ records

/-- **Reading with filters is a selection from reading without.** -/
theorem readFiltered_eq {readBack : ρ → Option ρ} (faithful : Faithful readBack)
    (matching : ρ → Bool) (since : Option DateTime) {log : List (Entry ρ)}
    (timely : Timely timestamp log) :
    readFiltered timestamp readBack matching since log =
      (readFiltered timestamp readBack (fun _ => true) none log).filter
        fun record => matching record && notBefore since (timestamp record) := by
  have unfiltered : readFiltered timestamp readBack (fun _ => true) none log =
      latestFirst timestamp ((newestFirst log).filterMap fun entry => readBack entry.record) := by
    simp [readFiltered, dateMightMatch, notBefore]
  rw [unfiltered, filter_latestFirst, readFiltered, List.filter_comm,
    filter_readBack_skip faithful since (timely_newestFirst timely), List.filter_filter]

end Registry

/-! ## The two registries -/

/-- `DecisionRegistry.read_all`. There is a file when a record was appended. -/
def readDecisions (readBack : DecisionRecord → Option DecisionRecord) (symbol : Option String)
    (since : Option Moment) (log : List (Entry DecisionRecord)) :
    Except String (List DecisionRecord) :=
  readSince
    (fun time => readFiltered (fun record => record.timestamp) readBack
      (fun record => admits symbol record.symbol) time log)
    (!log.isEmpty) since

/-- `ExecutionRegistry.read_all`. -/
def readExecutions (readBack : ExecutionRecord → Option ExecutionRecord)
    (symbol decisionId : Option String) (since : Option Moment)
    (log : List (Entry ExecutionRecord)) : Except String (List ExecutionRecord) :=
  readSince
    (fun time => readFiltered (fun record => record.timestamp) readBack
      (fun record => admits symbol record.symbol && admits decisionId record.decisionId) time log)
    (!log.isEmpty) since

/-- A record is of the symbol asked for; an empty symbol asks for none. -/
def OfSymbol (symbol : Option String) (record : AuditRecord) : Prop :=
  ∀ text, symbol = some text → text ≠ "" → record.symbol = text

/-- A record is not before the time asked for. -/
def NotBefore (since : Option DateTime) (record : AuditRecord) : Prop :=
  ∀ time, since = some time → time.micros ≤ record.timestamp.micros

theorem admits_eq_true_iff {symbol : Option String} {record : AuditRecord} :
    admits symbol record.symbol = true ↔ OfSymbol symbol record := by
  cases symbol with
  | none => simp [admits, OfSymbol]
  | some text =>
      simp only [admits, OfSymbol, Option.some.injEq, forall_eq', decide_eq_true_eq]
      exact or_iff_not_imp_left

theorem notBefore_eq_true_iff {since : Option DateTime} {record : AuditRecord} :
    notBefore since record.timestamp = true ↔ NotBefore since record := by
  cases since with
  | none => simp [notBefore, NotBefore]
  | some time => simp [notBefore, NotBefore]

instance (symbol : Option String) (record : AuditRecord) : Decidable (OfSymbol symbol record) :=
  decidable_of_iff _ admits_eq_true_iff

instance (since : Option DateTime) (record : AuditRecord) : Decidable (NotBefore since record) :=
  decidable_of_iff _ notBefore_eq_true_iff

/-- The records, the latest first. -/
def LatestFirst (records : List AuditRecord) : Prop :=
  records.Pairwise fun record other => other.timestamp.micros ≤ record.timestamp.micros

/-- The log of a sequence of appends has no record that is later than its append. -/
theorem timely_appendAll {ρ : Type} {timestamp : ρ → DateTime} {appends : List (DateTime × ρ)}
    (timely : ∀ entry ∈ appends, (timestamp entry.2).micros ≤ entry.1.micros) :
    Timely timestamp (appendAll appends) := by
  rw [appendAll_eq]
  intro entry member
  obtain ⟨append, appended, rfl⟩ := List.mem_map.mp member
  exact timely append appended

/-- Reading the records of a symbol from a time on is a selection from reading all records. -/
theorem readFiltered_admits {ρ : Type} (base : ρ → AuditRecord) {readBack : ρ → Option ρ}
    (faithful : Faithful readBack) {appends : List (DateTime × ρ)}
    (timely : ∀ entry ∈ appends, (base entry.2).timestamp.micros ≤ entry.1.micros)
    (symbol : Option String) (since : Option DateTime) :
    readFiltered (fun record => (base record).timestamp) readBack
        (fun record => admits symbol (base record).symbol) since (appendAll appends) =
      (readFiltered (fun record => (base record).timestamp) readBack (fun _ => true) none
        (appendAll appends)).filter
          fun record => OfSymbol symbol (base record) ∧ NotBefore since (base record) := by
  rw [readFiltered_eq faithful _ since (timely_appendAll timely)]
  congr 1
  funext record
  rw [Bool.eq_iff_iff, Bool.and_eq_true, decide_eq_true_eq, admits_eq_true_iff,
    notBefore_eq_true_iff]

/-- What a read gives from a naive time on: the records that a read of everything gives, less
those of another symbol or of an earlier time, in the same order, the latest first. -/
def ReadsSelection {ρ : Type} (base : ρ → AuditRecord) (symbol : Option String)
    (since : Option DateTime) (everything read : Except String (List ρ)) : Prop :=
  ∃ records, everything = .ok records ∧
    read = .ok (records.filter fun record =>
      OfSymbol symbol (base record) ∧ NotBefore since (base record)) ∧
    LatestFirst ((records.filter fun record =>
      OfSymbol symbol (base record) ∧ NotBefore since (base record)).map base)

/-- Reading from a naive time on is a selection. -/
theorem readsSelection_readSince {ρ : Type} (base : ρ → AuditRecord) {readBack : ρ → Option ρ}
    (faithful : Faithful readBack) {appends : List (DateTime × ρ)}
    (timely : ∀ entry ∈ appends, (base entry.2).timestamp.micros ≤ entry.1.micros)
    (symbol : Option String) (since : Option DateTime) (filed : Bool) :
    ReadsSelection base symbol since
      (readSince (fun time => readFiltered (fun record => (base record).timestamp) readBack
        (fun record => admits none (base record).symbol) time (appendAll appends)) filed none)
      (readSince (fun time => readFiltered (fun record => (base record).timestamp) readBack
        (fun record => admits symbol (base record).symbol) time (appendAll appends)) filed
        (since.map .naive)) := by
  have selected := readFiltered_admits base faithful timely symbol since
  have naive : ∀ read : Option DateTime → List ρ,
      readSince read filed (since.map .naive) = .ok (read since) := by
    intro read
    cases since <;> rfl
  refine ⟨_, rfl, ?_, ?_⟩
  · rw [naive]
    exact congrArg Except.ok selected
  · rw [LatestFirst, List.pairwise_map]
    exact (latestFirst_sorted _).filter _

/-- A read from an aware time on raises exactly if there is a file. -/
theorem readSince_aware {α : Type} (read : Option DateTime → α) (filed : Bool) (time : DateTime) :
    readSince read filed (some (.aware time)) =
      .error "can't compare offset-naive and offset-aware datetimes" ↔ filed = true := by
  cases filed with
  | true => exact iff_of_true rfl rfl
  | false => exact iff_of_false nofun Bool.false_ne_true

theorem filed_appendAll {ρ : Type} (appends : List (DateTime × ρ)) :
    (!(appendAll appends).isEmpty) = true ↔ appends ≠ [] := by
  rw [appendAll_eq]
  cases appends with
  | nil => exact iff_of_false Bool.false_ne_true (not_not.mpr rfl)
  | cons => exact iff_of_true rfl (List.cons_ne_nil _ _)

/-- **Skipping files is transparent.** In both registries reading the records of a symbol
from a naive time on gives the records that reading everything gives, less those of another
symbol or of an earlier time, in the same order, the latest first. An empty symbol asks
for every symbol. From an aware time on, reading raises as soon as a record was appended. -/
theorem readAll_transparent {readDecision : DecisionRecord → Option DecisionRecord}
    {readExecution : ExecutionRecord → Option ExecutionRecord}
    (decisionFaithful : Faithful readDecision) (executionFaithful : Faithful readExecution)
    (decisions : List (DateTime × DecisionRecord)) (executions : List (DateTime × ExecutionRecord))
    (decisionsTimely : ∀ entry ∈ decisions, entry.2.timestamp.micros ≤ entry.1.micros)
    (executionsTimely : ∀ entry ∈ executions, entry.2.timestamp.micros ≤ entry.1.micros)
    (symbol : Option String) :
    (∀ since : Option DateTime,
      ReadsSelection DecisionRecord.toAuditRecord symbol since
          (readDecisions readDecision none none (appendAll decisions))
          (readDecisions readDecision symbol (since.map .naive) (appendAll decisions)) ∧
        ReadsSelection ExecutionRecord.toAuditRecord symbol since
          (readExecutions readExecution none none none (appendAll executions))
          (readExecutions readExecution symbol none (since.map .naive) (appendAll executions))) ∧
    ∀ time : DateTime,
      (readDecisions readDecision symbol (some (.aware time)) (appendAll decisions) =
          .error "can't compare offset-naive and offset-aware datetimes" ↔ decisions ≠ []) ∧
        (readExecutions readExecution symbol none (some (.aware time)) (appendAll executions) =
          .error "can't compare offset-naive and offset-aware datetimes" ↔ executions ≠ []) := by
  refine ⟨fun since => ⟨?_, ?_⟩, fun time => ⟨?_, ?_⟩⟩
  · exact readsSelection_readSince DecisionRecord.toAuditRecord decisionFaithful decisionsTimely
      symbol since _
  · have noId : ∀ (wanted : Option String) (record : ExecutionRecord),
        (admits wanted record.symbol && admits none record.decisionId) =
          admits wanted record.symbol :=
      fun wanted record => Bool.and_true _
    simp only [readExecutions, noId]
    exact readsSelection_readSince ExecutionRecord.toAuditRecord executionFaithful
      executionsTimely symbol since _
  · exact (readSince_aware _ _ time).trans (filed_appendAll decisions)
  · exact (readSince_aware _ _ time).trans (filed_appendAll executions)

/-- A decision on the first day of year 1000. -/
def sampleDecision (auditId symbol : String) (micros : ℕ) : DecisionRecord where
  auditId := auditId
  timestamp := .ofDay 364877 micros
  symbol := symbol
  decisionId := "d-1"

/-- Two decisions, read from the middle of their day on. -/
theorem readAll_transparent_sample :
    ReadsSelection DecisionRecord.toAuditRecord (some "AAPL") (some (.ofDay 364877 5))
      (readDecisions some none none
        (appendAll [(.ofDay 364877 7, sampleDecision "a" "AAPL" 6),
          (.ofDay 364877 8, sampleDecision "b" "AAPL" 3)]))
      (readDecisions some (some "AAPL") (some (.naive (.ofDay 364877 5)))
        (appendAll [(.ofDay 364877 7, sampleDecision "a" "AAPL" 6),
          (.ofDay 364877 8, sampleDecision "b" "AAPL" 3)])) := by
  have faithful : ∀ {ρ : Type}, Faithful (some : ρ → Option ρ) :=
    fun _ _ same => (Option.some.inj same).symm
  refine ((readAll_transparent faithful (faithful (ρ := ExecutionRecord)) _ [] ?_ ?_
    (some "AAPL")).1 (some (.ofDay 364877 5))).1
  · with_unfolding_all decide
  · with_unfolding_all decide

/-- Asked for the empty symbol, the registry gives a record of another symbol; asked for an
aware time, it raises. -/
theorem readDecisions_empty_symbol :
    readDecisions some (some "") none
        (appendAll [(.ofDay 364877 7, sampleDecision "a" "AAPL" 6)]) =
      .ok [sampleDecision "a" "AAPL" 6] ∧
    (sampleDecision "a" "AAPL" 6).symbol ≠ "" ∧
    readDecisions some none (some (.aware (.ofDay 364877 0)))
        (appendAll [(.ofDay 364877 7, sampleDecision "a" "AAPL" 6)]) =
      .error "can't compare offset-naive and offset-aware datetimes" := by
  refine ⟨?_, by decide, rfl⟩
  exact congrArg Except.ok (by with_unfolding_all decide)

end TradeOS.Audit
