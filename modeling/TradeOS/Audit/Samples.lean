import TradeOS.Audit.Generators
import Mathlib.Algebra.BigOperators.Group.List.Basic
import Mathlib.Algebra.Order.Field.Rat

/-!
# What the generators count as a sample

A decision record is one sample. Factor attribution enters a record once for every module of
its signals. Signal decay enters it once for every signal, so a record with several signals of
one module and type is several entries of one bucket. Such entries count towards the number of
samples that a feedback needs, and are listed in it one by one.

The feedbacks list every record once exactly if no bucket that makes one has such a record
(`oneSampleEach_iff`). Which buckets those are is read off the records: the entries of all
records are five or more, and the sum of their profits is negative.
-/

set_option autoImplicit false

namespace TradeOS.Audit

open Calendar Grouping KeepFirst

/-- A feedback lists every record once, and has their number as its sample size. -/
def Feedback.OneSampleEach (feedback : Feedback) : Prop :=
  feedback.sourceAuditIds.Nodup ∧ feedback.sampleSize = feedback.sourceAuditIds.length

/-- The key of the type of a signal. -/
def typeKey (signal : SignalSnapshot) : String := signal.sourceModule ++ ":" ++ signal.signalType

/-- How often a record is entered under a key. -/
def entries (key : String) (record : DecisionRecord) : ℕ :=
  record.inputSignals.countP fun signal => typeKey signal = key

/-- The records with a profit in an age bucket. -/
def aged (bucketName : String) (records : List DecisionRecord) : List DecisionRecord :=
  records.filter fun record =>
    record.realizedPnlPct.isSome ∧ record.signalAgeHours.bind bucketOf = some bucketName

/-- A bucket makes a feedback: it has five entries or more, and their profits are negative on
the whole. The profits are added in exact arithmetic. -/
def MakesFeedback (key bucketName : String) (records : List DecisionRecord) : Prop :=
  5 ≤ ((aged bucketName records).map (entries key)).sum ∧
    ((aged bucketName records).map fun record =>
      (entries key record : ℚ) * record.realizedPnlPct.getD 0).sum < 0

/-- In every bucket that makes a feedback, every record has one signal of its key at most. -/
def EnteredOnce (records : List DecisionRecord) : Prop :=
  ∀ key bucketName, MakesFeedback key bucketName records →
    ∀ record ∈ aged bucketName records, entries key record ≤ 1

/-! ## Repeated entries -/

section Repeated

variable {α : Type} (count : α → ℕ)

/-- The elements of a list, each as often as counted. -/
def repeated (xs : List α) : List α := xs.flatMap fun x => List.replicate (count x) x

theorem repeated_cons (x : α) (xs : List α) :
    repeated count (x :: xs) = List.replicate (count x) x ++ repeated count xs :=
  List.flatMap_cons

theorem length_repeated (xs : List α) : (repeated count xs).length = (xs.map count).sum := by
  induction xs with
  | nil => rfl
  | cons x xs ih => rw [repeated_cons, List.length_append, List.length_replicate, ih]; rfl

theorem filter_repeated (p : α → Bool) (xs : List α) :
    (repeated count xs).filter p = repeated count (xs.filter p) := by
  induction xs with
  | nil => rfl
  | cons x xs ih =>
      rw [repeated_cons, List.filter_append, ih, List.filter_replicate, List.filter_cons]
      split
      · exact (repeated_cons count x _).symm
      · exact List.nil_append _

/-- Over distinct keys, no key is repeated if every element is there once at most. -/
theorem nodup_map_repeated_iff {κ : Type} (key : α → κ) {xs : List α}
    (distinct : (xs.map key).Nodup) :
    ((repeated count xs).map key).Nodup ↔ ∀ x ∈ xs, count x ≤ 1 := by
  have apart : xs.Pairwise fun x y => key x ≠ key y := List.pairwise_map.mp distinct
  rw [repeated, List.map_flatMap, List.nodup_flatMap]
  simp only [List.map_replicate, List.nodup_replicate]
  refine and_iff_left (apart.imp ?_)
  intro x y differ
  rw [Function.onFun, List.disjoint_left]
  intro k first second
  obtain rfl := List.eq_of_mem_replicate first
  exact differ (List.eq_of_mem_replicate second)

end Repeated

/-! ## Signal decay -/

/-- The entries of a key. -/
theorem valuesOf_keyedSignals (key : String) (records : List DecisionRecord) :
    valuesOf key (keyedSignals records) =
      repeated (entries key) (records.filter fun record => record.realizedPnlPct.isSome) :=
  valuesOf_flatMap key typeKey DecisionRecord.inputSignals _

/-- The entries of an age bucket. -/
theorem valuesOf_buckets (bucketName : String) (records : List DecisionRecord) :
    valuesOf bucketName (records.filterMap fun record =>
      (record.signalAgeHours.bind bucketOf).map fun name => (name, record)) =
      records.filter fun record => record.signalAgeHours.bind bucketOf = some bucketName := by
  induction records with
  | nil => rfl
  | cons record rest ih =>
      rw [List.filterMap_cons, List.filter_cons]
      cases bucket : record.signalAgeHours.bind bucketOf with
      | none =>
          rw [Option.map_none, ih]
          rfl
      | some name =>
          rw [Option.map_some, ← ih, valuesOf, List.filter_cons]
          by_cases own : name = bucketName
          · simp [own, valuesOf]
          · simp [own, valuesOf]

theorem aged_eq (bucketName : String) (records : List DecisionRecord) :
    aged bucketName records =
      (records.filter fun record => record.realizedPnlPct.isSome).filter fun record =>
        record.signalAgeHours.bind bucketOf = some bucketName := by
  rw [aged, List.filter_filter]
  congr 1
  funext record
  rw [Bool.and_comm, ← Bool.decide_coe (record.realizedPnlPct.isSome)]
  simp

/-- The findings on signal decay are those of the entries of a key and an age bucket. -/
theorem mem_decayFindings_iff {records : List DecisionRecord} {finding : Finding} :
    finding ∈ decayFindings records ↔ ∃ key bucketName,
      decayFinding key bucketName (repeated (entries key) (aged bucketName records)) =
        some finding := by
  have silent : ∀ key bucketName, decayFinding key bucketName [] = none := fun _ _ => rfl
  have quiet : ∀ key, analyzeSignalType key [] = [] := fun _ => rfl
  rw [decayFindings, mem_flatMap_group_iff quiet]
  refine exists_congr fun key => ?_
  rw [analyzeSignalType, mem_filterMap_group_iff (silent key)]
  refine exists_congr fun bucketName => ?_
  rw [valuesOf_buckets, valuesOf_keyedSignals, filter_repeated, aged_eq]

/-- The profits of the entries. -/
theorem sum_realizedPnls (key bucketName : String) (records : List DecisionRecord) :
    (realizedPnls (repeated (entries key) (aged bucketName records))).sum =
      ((aged bucketName records).map fun record =>
        (entries key record : ℚ) * record.realizedPnlPct.getD 0).sum := by
  have single : ∀ (n : ℕ) (record : DecisionRecord),
      (realizedPnls (List.replicate n record)).sum = (n : ℚ) * record.realizedPnlPct.getD 0 := by
    intro n record
    rw [realizedPnls, List.filterMap_replicate]
    cases record.realizedPnlPct with
    | none => simp
    | some value => simp
  induction aged bucketName records with
  | nil => rfl
  | cons record rest ih =>
      rw [repeated_cons, List.map_cons, List.sum_cons, ← ih, ← single, realizedPnls,
        List.filterMap_append, List.sum_append]
      rfl

/-- A bucket has a finding if it makes a feedback, and the finding lists its entries. -/
theorem decayFinding_isSome_iff (key bucketName : String) (records : List DecisionRecord) :
    (decayFinding key bucketName (repeated (entries key) (aged bucketName records))).isSome ↔
      MakesFeedback key bucketName records := by
  rw [MakesFeedback, ← sum_realizedPnls, ← length_repeated]
  simp only [decayFinding]
  by_cases few : (repeated (entries key) (aged bucketName records)).length < 5
  · rw [if_pos few]
    exact iff_of_false Bool.false_ne_true fun both => absurd both.1 (not_le.mpr few)
  · have enough := not_lt.mp few
    have positive : (0 : ℚ) < (repeated (entries key) (aged bucketName records)).length :=
      Nat.cast_pos.mpr (by omega)
    have sign : 0 ≤ (realizedPnls (repeated (entries key) (aged bucketName records))).sum /
        (repeated (entries key) (aged bucketName records)).length ↔
          0 ≤ (realizedPnls (repeated (entries key) (aged bucketName records))).sum := by
      rw [le_div_iff₀ positive, zero_mul]
    rw [if_neg few, if_congr sign rfl rfl]
    split
    · rename_i gains
      exact iff_of_false Bool.false_ne_true fun both => absurd both.2 (not_lt.mpr gains)
    · rename_i loses
      exact iff_of_true rfl ⟨enough, not_le.mp loses⟩

theorem listed_of_decayFinding {key bucketName : String} {records : List DecisionRecord}
    {finding : Finding} (made : decayFinding key bucketName records = some finding) :
    finding.sourceAuditIds = records.map (fun record => record.auditId) ∧
      finding.sampleSize = records.length := by
  unfold decayFinding at made
  dsimp only at made
  split at made
  · cases made
  · split at made
    · cases made
    · cases made
      exact ⟨rfl, rfl⟩

/-- The feedbacks on signal decay list every record once if no bucket that makes one has a
record with several of its entries. -/
theorem decay_oneSampleEach_iff {records : List DecisionRecord}
    (distinct : (records.map fun record => record.auditId).Nodup) (now : DateTime) :
    (∀ finding ∈ decayFindings records, (finding.feedback now).OneSampleEach) ↔
      EnteredOnce records := by
  have once : ∀ key bucketName,
      ((repeated (entries key) (aged bucketName records)).map fun record =>
        record.auditId).Nodup ↔ ∀ record ∈ aged bucketName records, entries key record ≤ 1 := by
    intro key bucketName
    refine nodup_map_repeated_iff _ _ (distinct.sublist ?_)
    exact List.filter_sublist.map _
  constructor
  · intro each key bucketName makes
    obtain ⟨finding, made⟩ :=
      Option.isSome_iff_exists.mp ((decayFinding_isSome_iff key bucketName records).mpr makes)
    have own := (each finding (mem_decayFindings_iff.mpr ⟨key, bucketName, made⟩)).1
    have ids := (listed_of_decayFinding made).1
    rw [← once]
    rwa [← ids]
  · intro entered finding member
    obtain ⟨key, bucketName, made⟩ := mem_decayFindings_iff.mp member
    obtain ⟨ids, size⟩ := listed_of_decayFinding made
    have makes : MakesFeedback key bucketName records := by
      rw [← decayFinding_isSome_iff, made]
      rfl
    constructor
    · show finding.sourceAuditIds.Nodup
      rw [ids]
      exact (once key bucketName).mpr (entered key bucketName makes)
    · show finding.sampleSize = finding.sourceAuditIds.length
      rw [ids, size, List.length_map]

/-! ## Factor attribution -/

/-- A record is entered once for a module. -/
theorem countP_keepFirst_le (module : String) (signals : List SignalSnapshot) :
    ((keepFirst SignalSnapshot.sourceModule signals).countP fun signal =>
      signal.sourceModule = module) ≤ 1 := by
  have distinct := (settled_keepFirst SignalSnapshot.sourceModule signals).distinct
  have counted := List.nodup_iff_count_le_one.mp distinct module
  rw [List.count, List.countP_map] at counted
  exact counted

theorem listed_of_attributionFinding (root : ℚ → ℚ) {module : String}
    {records : List DecisionRecord} {finding : Finding}
    (made : attributionFinding root module records = some finding) :
    finding.sourceAuditIds = records.map (fun record => record.auditId) ∧
      finding.sampleSize = records.length := by
  unfold attributionFinding at made
  dsimp only at made
  split at made
  · cases made
  · split at made
    · cases made
    · cases made
      exact ⟨rfl, rfl⟩

/-- The feedbacks on factors list every record once. -/
theorem attribution_oneSampleEach (root : ℚ → ℚ) {records : List DecisionRecord}
    (distinct : (records.map fun record => record.auditId).Nodup) (now : DateTime) :
    ∀ finding ∈ attributionFindings root records, (finding.feedback now).OneSampleEach := by
  have silent : ∀ module, attributionFinding root module [] = none := fun _ => rfl
  intro finding member
  rw [attributionFindings, mem_filterMap_group_iff silent] at member
  obtain ⟨module, made⟩ := member
  obtain ⟨ids, size⟩ := listed_of_attributionFinding root made
  have entered := valuesOf_flatMap module SignalSnapshot.sourceModule
    (fun record : DecisionRecord => keepFirst SignalSnapshot.sourceModule record.inputSignals)
    (records.filter fun record => record.realizedPnlPct.isSome)
  constructor
  · show finding.sourceAuditIds.Nodup
    rw [ids, keyedModules, entered]
    refine (nodup_map_repeated_iff _ _ (distinct.sublist (List.filter_sublist.map _))).mpr ?_
    intro record _
    exact countP_keepFirst_le module record.inputSignals
  · show finding.sampleSize = finding.sourceAuditIds.length
    rw [ids, size, List.length_map]

/-- **Every feedback of the two generators lists every record once if and only if no bucket of
signal decay that makes a feedback has a record with several signals of its key.** -/
theorem oneSampleEach_iff (root : ℚ → ℚ) (records : List DecisionRecord)
    (distinct : (records.map fun record => record.auditId).Nodup) (now : DateTime) :
    (∀ finding ∈ decayFindings records ++ attributionFindings root records,
      (finding.feedback now).OneSampleEach) ↔ EnteredOnce records := by
  rw [← decay_oneSampleEach_iff distinct now, List.forall_mem_append]
  exact and_iff_left (attribution_oneSampleEach root distinct now)

/-- A signal of the technical module. -/
def trendSignal : SignalSnapshot := ⟨"technical", "trend_up", .clamp (1 / 2)⟩

/-- A losing decision, an hour after its signals. -/
def losingRecord (auditId : String) (signals : List SignalSnapshot) : DecisionRecord where
  auditId := auditId
  timestamp := .ofDay 738900 0
  symbol := "AAPL"
  decisionId := "d"
  inputSignals := signals
  realizedPnlPct := some (-1 / 100)
  signalAgeHours := some 1

/-- Five losing decisions with one signal each. -/
def fiveRecords : List DecisionRecord :=
  ["a", "b", "c", "d", "e"].map fun auditId => losingRecord auditId [trendSignal]

/-- One losing decision with five signals of one type. -/
def fiveSignals : List DecisionRecord := [losingRecord "a" (List.replicate 5 trendSignal)]

/-- Five decisions make a feedback that lists each of them once. -/
theorem fiveRecords_oneSampleEach :
    (decayFindings fiveRecords).map Finding.sourceAuditIds = [["a", "b", "c", "d", "e"]] ∧
      ∀ finding ∈ decayFindings fiveRecords ++ attributionFindings id fiveRecords,
        (finding.feedback (.ofDay 738901 0)).OneSampleEach := by
  have entered : EnteredOnce fiveRecords := by
    intro key bucketName _ record member
    have listed : record ∈ fiveRecords := (List.mem_filter.mp member).1
    obtain ⟨auditId, -, rfl⟩ := List.mem_map.mp listed
    exact List.countP_le_length
  refine ⟨by with_unfolding_all decide, ?_⟩
  exact (oneSampleEach_iff id fiveRecords (by decide) (.ofDay 738901 0)).mpr entered

/-- One decision makes a feedback with a sample of five. -/
theorem fiveSignals_repeated :
    (fiveSignals.map fun record => record.auditId).Nodup ∧
      (decayFindings fiveSignals).map Finding.sourceAuditIds = [["a", "a", "a", "a", "a"]] ∧
      (decayFindings fiveSignals).map Finding.sampleSize = [5] ∧
      ¬ ∀ finding ∈ decayFindings fiveSignals ++ attributionFindings id fiveSignals,
        (finding.feedback (.ofDay 738901 0)).OneSampleEach := by
  have ids : (decayFindings fiveSignals).map Finding.sourceAuditIds =
      [["a", "a", "a", "a", "a"]] := by
    with_unfolding_all decide
  refine ⟨by decide, ids, by with_unfolding_all decide, ?_⟩
  intro each
  have listed : ["a", "a", "a", "a", "a"] ∈
      (decayFindings fiveSignals).map Finding.sourceAuditIds := by
    rw [ids]
    exact List.mem_cons_self
  obtain ⟨finding, member, same⟩ := List.mem_map.mp listed
  have distinct := (each finding (List.mem_append_left _ member)).1
  change finding.sourceAuditIds.Nodup at distinct
  rw [same] at distinct
  exact absurd distinct (by decide)

end TradeOS.Audit
