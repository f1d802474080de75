import TradeOS.Research.Backtest

/-!
# Look-ahead of the research backtest

The gross return that a run reports for a period is earned by the weights of the date
that ends it, although the change to these weights is only paid for on that date. So two
runs with the same weights on all earlier dates may report different returns.

`no_look_ahead_iff` says when they do not: when no asset has a return over the period. For
the other direction the row of the date is replaced, once by a row with nothing in it
and once by a row with one asset only, and later dates are dropped. Up to the date the
run is the same (`walk_congr`), so the replaced run gets there and reports zero, or the
return of the asset.
-/

set_option autoImplicit false

namespace TradeOS.Research

open TradeOS.Numeric TradeOS.Numeric.Extended

/-! ## Gross returns -/

section Gross

variable {columns : List String} {prevPrices currPrices : Row}

/-- Nothing is earned on prices that stay. -/
theorem grossReturn_of_still (still : ∀ asset ∈ columns,
    assetReturn prevPrices currPrices asset = fin 0) (weights : Row) :
    grossReturn columns weights prevPrices currPrices = fin 0 := by
  refine sum_eq_zero ?_
  intro value member
  obtain ⟨asset, listed, rfl⟩ := List.mem_map.mp member
  rw [still asset listed]
  exact mul_fin_zero _

/-- The row with nothing in it. -/
def idle : Row := fun _ => fin 0

/-- The row with one asset only. -/
def only (asset : String) : Row := fun other => if other = asset then fin 1 else fin 0

theorem normalized_idle : normalized columns idle = idle := by
  have total : sum (columns.map fun asset => Extended.abs (idle asset)) = fin 0 := by
    refine sum_eq_zero ?_
    intro value member
    obtain ⟨asset, _, rfl⟩ := List.mem_map.mp member
    exact .inl (congrArg fin abs_zero)
  have below : ¬ le (fin (1 / 10 ^ 10)) (fin 0) = true := by with_unfolding_all decide
  unfold normalized
  dsimp only
  rw [total, if_neg below]
  rfl

theorem grossReturn_idle :
    grossReturn columns (normalized columns idle) prevPrices currPrices = fin 0 := by
  rw [normalized_idle]
  refine sum_eq_zero ?_
  intro value member
  obtain ⟨asset, _, rfl⟩ := List.mem_map.mp member
  exact fin_zero_mul _

/-- A column with one asset that counts. -/
theorem sum_map_of_only {asset : String} {f : String → Extended} (distinct : columns.Nodup)
    (member : asset ∈ columns) (silent : ∀ other ≠ asset, f other = fin 0 ∨ f other = nan) :
    sum (columns.map f) = if f asset = nan then fin 0 else f asset := by
  obtain ⟨before, after, rfl⟩ := List.append_of_mem member
  rw [List.nodup_append, List.nodup_cons] at distinct
  obtain ⟨_, ⟨later, _⟩, apart⟩ := distinct
  rw [List.map_append, List.map_cons]
  refine sum_append_cons (fun value listed => ?_) fun value listed => ?_
  · obtain ⟨other, earlier, rfl⟩ := List.mem_map.mp listed
    exact silent other (apart other earlier asset List.mem_cons_self)
  · obtain ⟨other, behind, rfl⟩ := List.mem_map.mp listed
    exact silent other fun same => later (same ▸ behind)

theorem only_self (asset : String) : only asset asset = fin 1 := if_pos rfl

theorem only_of_ne {asset other : String} (different : other ≠ asset) :
    only asset other = fin 0 :=
  if_neg different

theorem normalized_only {asset : String} (distinct : columns.Nodup) (member : asset ∈ columns) :
    normalized columns (only asset) = only asset := by
  have total : sum (columns.map fun other => Extended.abs (only asset other)) = fin 1 := by
    rw [sum_map_of_only distinct member, only_self]
    · rfl
    · intro other different
      rw [only_of_ne different]
      exact .inl (congrArg fin abs_zero)
  have above : le (fin (1 / 10 ^ 10)) (fin 1) = true := by with_unfolding_all decide
  unfold normalized
  dsimp only
  rw [total, if_pos above]
  funext other
  by_cases same : other = asset
  · rw [same, only_self, fin_div one_ne_zero, div_one]
  · rw [only_of_ne same, fin_div one_ne_zero, div_one]

theorem assetReturn_ne_nan (asset : String) : assetReturn prevPrices currPrices asset ≠ nan := by
  unfold assetReturn fillNan
  split
  · exact fun impossible => by cases impossible
  case isFalse number => exact number

/-- One asset only earns its return. -/
theorem grossReturn_only {asset : String} (distinct : columns.Nodup) (member : asset ∈ columns) :
    grossReturn columns (normalized columns (only asset)) prevPrices currPrices =
      assetReturn prevPrices currPrices asset := by
  rw [normalized_only distinct member, grossReturn, sum_map_of_only distinct member, only_self,
    fin_one_mul, if_neg (assetReturn_ne_nan asset)]
  intro other different
  rw [only_of_ne different]
  exact fin_zero_mul _

end Gross

namespace BacktestEngine

variable {sqrt : Extended → Extended} {periodStart : String → Date → Date}
  {engine other : BacktestEngine} {before date : Date} {state next final : RunState}
  {result : BacktestResult}

/-! ## Two runs -/

/-- Two backtests on the same prices whose weights agree on all dates before a date. -/
structure AgreeBefore (date : Date) (engine other : BacktestEngine) : Prop where
  prices : other.prices = engine.prices
  config : other.config = engine.config
  costModel : other.costModel = engine.costModel
  weights : ∀ earlier < date, ∀ asset ∈ engine.weights.columns,
    (other.weights.row? earlier).map (· asset) = (engine.weights.row? earlier).map (· asset)

/-- No asset has a return over the period that ends on a date. -/
def Still (periodStart : String → Date → Date) (engine : BacktestEngine) (date : Date) : Prop :=
  ∀ before, [before, date] <:+: engine.schedule periodStart → ∀ asset ∈ engine.prices.columns,
    assetReturn (engine.pricesOn before) (engine.pricesOn date) asset = fin 0

namespace AgreeBefore

variable (agree : AgreeBefore date engine other) {earlier : Date} (below : earlier < date)

include agree below

theorem mem_dates_iff : earlier ∈ other.weights.dates ↔ earlier ∈ engine.weights.dates := by
  obtain ⟨asset, listed⟩ : ∃ asset, asset ∈ engine.weights.columns := by
    refine List.exists_mem_of_ne_nil _ ?_
    intro none
    have nonempty := engine.weightsNonempty
    rw [Table.isEmpty, none, List.isEmpty_nil, Bool.or_true] at nonempty
    cases nonempty
  have same := congrArg Option.isSome (agree.weights earlier below asset listed)
  rw [Option.isSome_map, Option.isSome_map] at same
  rw [Table.mem_dates_iff, Table.mem_dates_iff, ← Option.isSome_iff_exists,
    ← Option.isSome_iff_exists, same]

theorem mem_schedule_iff :
    earlier ∈ other.schedule periodStart ↔ earlier ∈ engine.schedule periodStart := by
  rw [BacktestEngine.mem_schedule_iff, BacktestEngine.mem_schedule_iff, rebalanceDates,
    rebalanceDates, agree.config, agree.prices, agree.mem_dates_iff below]
  split
  · rfl
  · rw [agree.mem_dates_iff below]

end AgreeBefore

/-- The period that ends on a date begins on the same date in both runs. -/
theorem AgreeBefore.begin_eq (agree : AgreeBefore date engine other) {begin : Date}
    (adjacent : [before, date] <:+: engine.schedule periodStart)
    (adjacent' : [begin, date] <:+: other.schedule periodStart) : begin = before := by
  have early := Adjacent.lt_of_adjacent schedule_increasing adjacent
  have early' := Adjacent.lt_of_adjacent schedule_increasing adjacent'
  refine le_antisymm ?_ ?_
  · refine Adjacent.le_of_adjacent schedule_increasing adjacent ?_ early'
    exact (agree.mem_schedule_iff early').mp (adjacent'.subset List.mem_cons_self)
  · refine Adjacent.le_of_adjacent schedule_increasing adjacent' ?_ early
    exact (agree.mem_schedule_iff early).mpr (adjacent.subset List.mem_cons_self)

/-! ## The same run up to a date -/

theorem visit_congr (columns : other.weights.columns = engine.weights.columns)
    (costModel : other.costModel = engine.costModel) {prevDate : Option Date}
    (prices : other.pricesAligned date = engine.pricesAligned date)
    (weights : other.safeWeights date = engine.safeWeights date)
    (earlier : prevDate.bind other.pricesAligned = prevDate.bind engine.pricesAligned) :
    other.visit prevDate date state = engine.visit prevDate date state := by
  have report : other.report = engine.report := by
    unfold BacktestEngine.report
    rw [columns, costModel]
  unfold visit
  rw [columns, prices, weights, earlier, report]

/-- Where prices and weights are the same, so is the loop. -/
theorem walk_congr (columns : other.weights.columns = engine.weights.columns)
    (costModel : other.costModel = engine.costModel) {dates : List Date} {prevDate : Option Date}
    (same : ∀ date ∈ dates, other.pricesAligned date = engine.pricesAligned date ∧
      other.safeWeights date = engine.safeWeights date)
    (earlier : prevDate.bind other.pricesAligned = prevDate.bind engine.pricesAligned) :
    other.walk prevDate dates state = engine.walk prevDate dates state := by
  induction dates generalizing prevDate state with
  | nil => rfl
  | cons date rest ih =>
      obtain ⟨prices, weights⟩ := same date List.mem_cons_self
      rw [walk, walk, visit_congr columns costModel prices weights earlier]
      congr 1
      funext next
      exact ih (fun later listed => same later (List.mem_cons_of_mem date listed)) prices

theorem walk_append (prevDate : Option Date) (xs : List Date) (y : Date) (ys : List Date) :
    engine.walk prevDate (xs ++ y :: ys) state =
      engine.walk prevDate xs state >>= engine.walk (xs.getLast?.or prevDate) (y :: ys) := by
  induction xs generalizing prevDate state with
  | nil => rfl
  | cons x xs ih =>
      rw [List.cons_append, walk, walk, bind_assoc]
      congr 1
      funext mid
      rw [ih, List.getLast?_cons]
      cases xs.getLast? with
      | none => rfl
      | some last => rfl

/-- After a date the loop holds its weights. -/
theorem held_of_visit (member : date ∈ engine.weights.dates) {prevDate : Option Date}
    (visited : engine.visit prevDate date state = .ok next) :
    next.prevWeights = some (engine.weightsOn date) := by
  obtain ⟨row, found, scaled⟩ := safeWeights_of_mem member
  rw [visit, pricesAligned_of_mem member, found] at visited
  dsimp only at visited
  split at visited
  · obtain ⟨period, _, same⟩ := bind_eq_ok_iff.mp visited
    rw [← scaled, ← Except.ok.inj same]
  · rw [← scaled, ← Except.ok.inj visited]

/-- Two adjacent dates of a schedule have weights. -/
theorem dated_of_split {init rest : List Date}
    (dates : engine.schedule periodStart = (init ++ [before]) ++ date :: rest) :
    before ∈ engine.weights.dates ∧ date ∈ engine.weights.dates ∧
      ¬ (engine.schedule periodStart).length < 2 := by
  have members : ∀ other ∈ (init ++ [before]) ++ date :: rest, other ∈ engine.weights.dates := by
    intro other listed
    rw [← dates] at listed
    exact (mem_schedule_iff.mp listed).2
  refine ⟨?_, ?_, ?_⟩
  · exact members before (List.mem_append_left _ (List.mem_append_right init List.mem_cons_self))
  · exact members date (List.mem_append_right _ List.mem_cons_self)
  · rw [dates]
    simp only [List.length_append, List.length_cons]
    omega

/-- A run that reports a date has equity when it gets there. -/
theorem reached_of_run (ran : engine.run sqrt periodStart = .ok result) {init rest : List Date}
    (dates : engine.schedule periodStart = (init ++ [before]) ++ date :: rest) :
    ∃ mid, engine.walk none (init ++ [before]) engine.start = .ok mid ∧
      mid.prevWeights = some (engine.weightsOn before) ∧ mid.equity ≠ fin 0 := by
  obtain ⟨earlier, member, long⟩ := dated_of_split dates
  rw [run, if_neg long, dates] at ran
  obtain ⟨final, walked, _⟩ := bind_eq_ok_iff.mp ran
  rw [walk_append] at walked
  obtain ⟨mid, reached, walked⟩ := bind_eq_ok_iff.mp walked
  obtain ⟨next, visited, _⟩ := bind_eq_ok_iff.mp walked
  have held : mid.prevWeights = some (engine.weightsOn before) := by
    rw [walk_append] at reached
    obtain ⟨_, _, reached⟩ := bind_eq_ok_iff.mp reached
    obtain ⟨last, stepped, stopped⟩ := bind_eq_ok_iff.mp reached
    obtain rfl := Except.ok.inj stopped
    exact held_of_visit earlier stepped
  rw [List.getLast?_concat, Option.some_or] at visited
  exact ⟨mid, reached, held, (reported_of_visit member earlier held visited).solvent⟩

/-- A run that has equity on its last date succeeds. -/
theorem run_of_reached {init : List Date}
    (dates : engine.schedule periodStart = (init ++ [before]) ++ [date])
    (reached : engine.walk none (init ++ [before]) engine.start = .ok state) {prevWeights : Row}
    (held : state.prevWeights = some prevWeights) (solvent : state.equity ≠ fin 0) :
    ∃ result, engine.run sqrt periodStart = .ok result := by
  obtain ⟨earlier, member, long⟩ := dated_of_split dates
  obtain ⟨next, visited⟩ := visit_total member earlier held solvent
  rw [run, if_neg long, dates, walk_append, reached]
  refine ⟨engine.resultOf sqrt next.periods, ?_⟩
  rw [List.getLast?_concat, Option.some_or]
  refine bind_eq_ok_iff.mpr ⟨next, bind_eq_ok_iff.mpr ⟨state, rfl, ?_⟩, rfl⟩
  exact bind_eq_ok_iff.mpr ⟨next, visited, rfl⟩

/-! ## Replacing the weights of a date -/

/-- The rows before a date, with another row on the date. -/
def replacedRows (rows : List (Date × Row)) (date : Date) (row : Row) : List (Date × Row) :=
  (rows.filter fun entry => entry.1 < date) ++ [(date, row)]

theorem replacedRows_nodup {rows : List (Date × Row)} (nodup : (rows.map Prod.fst).Nodup)
    (date : Date) (row : Row) : ((replacedRows rows date row).map Prod.fst).Nodup := by
  rw [replacedRows, List.map_append, List.nodup_append]
  refine ⟨nodup.sublist (List.filter_sublist.map Prod.fst), List.nodup_singleton date, ?_⟩
  rintro earlier listed last ends rfl
  obtain ⟨entry, member, rfl⟩ := List.mem_map.mp listed
  have below := of_decide_eq_true (List.mem_filter.mp member).2
  rw [List.mem_singleton.mp ends] at below
  exact lt_irrefl date below

variable (engine)

/-- The weights up to a date, with another row on the date. -/
def replacedWeights (date : Date) (row : Row) : Table where
  columns := engine.weights.columns
  rows := replacedRows engine.weights.rows date row
  distinct := engine.weights.distinct
  nodup := replacedRows_nodup engine.weights.nodup date row

variable {engine} (row : Row)

theorem replacedWeights_row?_self : (engine.replacedWeights date row).row? date = some row :=
  Table.row?_eq_some_iff.mpr (List.mem_append_right _ List.mem_cons_self)

theorem replacedWeights_row?_of_lt {earlier : Date} (below : earlier < date) :
    (engine.replacedWeights date row).row? earlier = engine.weights.row? earlier := by
  refine Option.ext ?_
  intro found
  rw [Table.row?_eq_some_iff, Table.row?_eq_some_iff]
  simp [replacedWeights, replacedRows, below, below.ne]

theorem mem_replacedWeights_dates {other : Date} :
    other ∈ (engine.replacedWeights date row).dates ↔
      (other ∈ engine.weights.dates ∧ other < date) ∨ other = date := by
  simp [Table.dates, replacedWeights, replacedRows, and_comm]

theorem replacedWeights_nonempty : (engine.replacedWeights date row).isEmpty = false := by
  have nonempty := engine.weightsNonempty
  rw [Table.isEmpty, Bool.or_eq_false_iff] at nonempty ⊢
  exact ⟨by simp [replacedWeights, replacedRows], nonempty.2⟩

theorem replacedWeights_priced (member : date ∈ engine.weights.dates) :
    ∀ other ∈ (engine.replacedWeights date row).dates, other ∈ engine.prices.dates := by
  intro other listed
  rcases (mem_replacedWeights_dates row).mp listed with ⟨listed, _⟩ | rfl
  · exact engine.priced other listed
  · exact engine.priced other member

variable (engine)

/-- The backtest up to a date, with another row of weights on the date. -/
def replaced (date : Date) (row : Row) (member : date ∈ engine.weights.dates) :
    BacktestEngine where
  weights := engine.replacedWeights date row
  prices := engine.prices
  config := engine.config
  costModel := engine.costModel
  weightsNonempty := replacedWeights_nonempty row
  pricesNonempty := engine.pricesNonempty
  sameColumns := engine.sameColumns
  priced := replacedWeights_priced row member

variable {engine} (member : date ∈ engine.weights.dates)

theorem agreeBefore_replaced : AgreeBefore date engine (engine.replaced date row member) where
  prices := rfl
  config := rfl
  costModel := rfl
  weights := by
    intro earlier below asset _
    exact congrArg (Option.map (· asset)) (replacedWeights_row?_of_lt row below)

theorem mem_schedule_replaced (listed : date ∈ engine.schedule periodStart) {other : Date} :
    other ∈ (engine.replaced date row member).schedule periodStart ↔
      other ∈ engine.schedule periodStart ∧ other ≤ date := by
  have agree := agreeBefore_replaced row member
  rcases lt_trichotomy other date with below | rfl | above
  · rw [agree.mem_schedule_iff below, and_iff_left below.le]
  · have dated : other ∈ (engine.replaced other row member).weights.dates :=
      (mem_replacedWeights_dates row).mpr (.inr rfl)
    refine iff_of_true (mem_schedule_iff.mpr ⟨?_, dated⟩) ⟨listed, le_refl other⟩
    have rebalanced := (mem_schedule_iff.mp listed).1
    unfold rebalanceDates at rebalanced ⊢
    split
    case isTrue frequency =>
      have given : engine.config.rebalanceFreq ≠ "" ∧ engine.config.rebalanceFreq ≠ "W" := frequency
      rw [if_pos given] at rebalanced
      exact rebalanced
    case isFalse => exact dated
  · refine iff_of_false (fun late => ?_) fun late => above.not_ge late.2
    rcases (mem_replacedWeights_dates row).mp (mem_schedule_iff.mp late).2 with ⟨_, below⟩ | rfl
    · exact above.asymm below
    · exact lt_irrefl other above

/-- The schedule of the replaced backtest ends on the date. -/
theorem schedule_replaced {init rest : List Date}
    (split : engine.schedule periodStart = init ++ date :: rest) :
    (engine.replaced date row member).schedule periodStart = init ++ [date] := by
  have increasing : (init ++ date :: rest).Pairwise (· < ·) := split ▸ schedule_increasing
  have shorter : (init ++ [date]).Pairwise (· < ·) :=
    increasing.sublist ((List.Sublist.refl init).append (by simp))
  have listed : date ∈ engine.schedule periodStart := by
    rw [split]
    exact List.mem_append_right init List.mem_cons_self
  rw [List.pairwise_append, List.pairwise_cons] at increasing
  obtain ⟨_, ⟨later, _⟩, ordered⟩ := increasing
  refine List.Pairwise.eq_of_mem_iff schedule_increasing shorter ?_
  intro other
  rw [mem_schedule_replaced row member listed, split]
  simp only [List.mem_append, List.mem_cons, List.not_mem_nil, or_false]
  constructor
  · rintro ⟨early | rfl | late, upTo⟩
    · exact .inl early
    · exact .inr rfl
    · exact absurd (later other late) upTo.not_gt
  · rintro (early | rfl)
    · exact ⟨.inl early, (ordered other early date List.mem_cons_self).le⟩
    · exact ⟨.inr (.inl rfl), le_refl other⟩

/-- Before the date both backtests read the same prices and weights. -/
theorem replaced_reads {earlier : Date} (below : earlier < date)
    (dated : earlier ∈ engine.weights.dates) :
    (engine.replaced date row member).pricesAligned earlier = engine.pricesAligned earlier ∧
      (engine.replaced date row member).safeWeights earlier = engine.safeWeights earlier := by
  have kept : earlier ∈ (engine.replaced date row member).weights.dates :=
    ((agreeBefore_replaced row member).mem_dates_iff below).mpr dated
  obtain ⟨found, row?⟩ := Table.mem_dates_iff.mp dated
  have same : (engine.replaced date row member).weights.row? earlier = some found :=
    (replacedWeights_row?_of_lt row below).trans row?
  refine ⟨?_, ?_⟩
  · rw [pricesAligned, pricesAligned, if_pos kept, if_pos dated]
    rfl
  · rw [safeWeights, safeWeights, same, row?]

theorem grossOver_replaced (before : Date) :
    (engine.replaced date row member).grossOver before date =
      grossReturn engine.weights.columns (normalized engine.weights.columns row)
        (engine.pricesOn before) (engine.pricesOn date) := by
  have weights : (engine.replaced date row member).weightsOn date =
      normalized engine.weights.columns row :=
    congrArg (fun found : Option Row => normalized engine.weights.columns
      (found.getD fun _ => nan)) (replacedWeights_row?_self row)
  rw [grossOver, weights]
  rfl

/-- The replaced backtest gets to the date when the backtest does, and reports what the
other row earns. -/
theorem run_replaced (ran : engine.run sqrt periodStart = .ok result)
    (adjacent : [before, date] <:+: engine.schedule periodStart) :
    ∃ other, (engine.replaced date row member).run sqrt periodStart = .ok other ∧
      other.grossReturns.lookup date =
        some (grossReturn engine.weights.columns (normalized engine.weights.columns row)
          (engine.pricesOn before) (engine.pricesOn date)) := by
  obtain ⟨init, rest, split⟩ := adjacent
  have dates : engine.schedule periodStart = (init ++ [before]) ++ date :: rest := by
    rw [← split, List.append_assoc, List.append_assoc]
    rfl
  have ends := schedule_replaced row member dates
  obtain ⟨mid, reached, held, solvent⟩ := reached_of_run ran dates
  have reads : ∀ earlier ∈ init ++ [before],
      (engine.replaced date row member).pricesAligned earlier = engine.pricesAligned earlier ∧
        (engine.replaced date row member).safeWeights earlier = engine.safeWeights earlier := by
    intro earlier listed
    have increasing : ((init ++ [before]) ++ date :: rest).Pairwise (· < ·) :=
      dates ▸ schedule_increasing
    have scheduled : earlier ∈ engine.schedule periodStart := by
      rw [dates]
      exact List.mem_append_left _ listed
    exact replaced_reads row member
      ((List.pairwise_append.mp increasing).2.2 earlier listed date List.mem_cons_self)
      (mem_schedule_iff.mp scheduled).2
  have same : (engine.replaced date row member).walk none (init ++ [before]) engine.start =
      engine.walk none (init ++ [before]) engine.start := by
    refine walk_congr ?_ ?_ reads ?_
    · rfl
    · rfl
    · rfl
  obtain ⟨other, ran⟩ : ∃ other,
      (engine.replaced date row member).run sqrt periodStart = .ok other :=
    run_of_reached ends (same.trans reached) held solvent
  refine ⟨other, ran, (lookup_grossReturns_iff ran).mpr ⟨before, ?_, ?_⟩⟩
  · rw [ends, List.append_assoc]
    exact (List.suffix_append init [before, date]).isInfix
  · exact grossOver_replaced row member before

/-- **The gross return of a period does not depend on the weights from its last date on
exactly when no asset has a return over the period.** -/
theorem no_look_ahead_iff (ran : engine.run sqrt periodStart = .ok result) {gross : Extended}
    (reported : result.grossReturns.lookup date = some gross) :
    (∀ other, AgreeBefore date engine other → ∀ otherResult otherGross,
        other.run sqrt periodStart = .ok otherResult →
        otherResult.grossReturns.lookup date = some otherGross → otherGross = gross) ↔
      Still periodStart engine date := by
  obtain ⟨before, adjacent, rfl⟩ := (lookup_grossReturns_iff ran).mp reported
  have member : date ∈ engine.weights.dates :=
    (mem_schedule_iff.mp (adjacent.subset (List.mem_cons_of_mem before List.mem_cons_self))).2
  constructor
  · intro independent start adjacent' asset listed
    have reweighed : ∀ row, grossReturn engine.weights.columns
        (normalized engine.weights.columns row) (engine.pricesOn start) (engine.pricesOn date) =
          engine.grossOver before date := by
      intro row
      obtain ⟨other, otherRan, found⟩ := run_replaced row member ran adjacent'
      exact independent _ (agreeBefore_replaced row member) other _ otherRan found
    have earned := reweighed (only asset)
    rw [← reweighed idle, grossReturn_idle,
      grossReturn_only engine.weights.distinct ((engine.sameColumns asset).mpr listed)] at earned
    exact earned
  · intro still other agree otherResult otherGross otherRan found
    obtain ⟨start, adjacent', rfl⟩ := (lookup_grossReturns_iff otherRan).mp found
    obtain rfl := agree.begin_eq adjacent adjacent'
    have nothing : grossReturn engine.weights.columns (engine.weightsOn date) _ _ = fin 0 :=
      grossReturn_of_still (fun asset listed => still start adjacent asset
        ((engine.sameColumns asset).mp listed)) _
    have nothing' : other.grossOver start date = fin 0 := by
      refine grossReturn_of_still ?_ _
      intro asset listed
      have priced := (other.sameColumns asset).mp listed
      rw [agree.prices] at priced
      have same := still start adjacent asset priced
      rw [pricesOn, pricesOn, ← agree.prices] at same
      exact same
    exact nothing'.trans nothing.symm

/-- Prices that stay. -/
theorem no_look_ahead_sample :
    ∃ result, (sampleEngine (fun _ => 1) fun _ => 100).run squareRoot (fun _ date => date) =
        .ok result ∧
      result.grossReturns.lookup 3 = some (fin 0) ∧
      ∀ other, AgreeBefore 3 (sampleEngine (fun _ => 1) fun _ => 100) other →
        ∀ otherResult otherGross, other.run squareRoot (fun _ date => date) = .ok otherResult →
          otherResult.grossReturns.lookup 3 = some otherGross → otherGross = fin 0 := by
  obtain ⟨result, ran, reported⟩ := exists_ok_of_read
    ((sampleEngine (fun _ => 1) fun _ => 100).run squareRoot fun _ date => date)
    (fun result => result.grossReturns.lookup 3) (some (fin 0)) (by with_unfolding_all decide)
  refine ⟨result, ran, reported, (no_look_ahead_iff ran reported).mpr ?_⟩
  intro before adjacent asset listed
  have dated : before ∈ [1, 2, 3] := (mem_schedule_iff.mp (adjacent.subset List.mem_cons_self)).2
  have returns : ∀ before ∈ [1, 2, 3], assetReturn
      ((sampleEngine (fun _ => 1) fun _ => 100).pricesOn before)
      ((sampleEngine (fun _ => 1) fun _ => 100).pricesOn 3) "A" = fin 0 := by
    with_unfolding_all decide
  rw [List.mem_singleton.mp listed]
  exact returns before dated

/-- Two weight tables that differ on the last date only, where the price goes up: the
backtest with the asset on this date reports the gain, the one without it reports
nothing. -/
theorem looks_ahead :
    AgreeBefore 3 (sampleEngine (fun _ => 1) fun date => if date = 3 then 110 else 100)
        (sampleEngine (fun date => if date = 3 then 0 else 1)
          fun date => if date = 3 then 110 else 100) ∧
      ((sampleEngine (fun _ => 1) fun date => if date = 3 then 110 else 100).run squareRoot
        fun _ date => date).toOption.map (fun result => result.grossReturns.lookup 3) =
          some (some (fin (1 / 10))) ∧
      ((sampleEngine (fun date => if date = 3 then 0 else 1)
          fun date => if date = 3 then 110 else 100).run squareRoot
        fun _ date => date).toOption.map (fun result => result.grossReturns.lookup 3) =
          some (some (fin 0)) := by
  refine ⟨⟨rfl, rfl, rfl, fun earlier below asset _ => ?_⟩, ?_, ?_⟩
  · match earlier, below with
    | 0, _ => rfl
    | 1, _ => rfl
    | 2, _ => rfl
  · with_unfolding_all decide
  · with_unfolding_all decide

end BacktestEngine

end TradeOS.Research
