import TradeOS.Research.Backtest

/-!
# Trading costs and turnover

A rebalancing period has two maps of weights. The turnover rate is taken over the assets of both
(`turnoverRate`), and the costs over the assets of the new one (`costsForPeriod`): what an asset
that leaves the portfolio trades is counted in the turnover and never charged
(`costs_match_turnover_iff`).

The weights of a backtest have the columns of one table, where both agree (`costsForPeriod_fin`,
`turnoverRate_fin`). The prices of the period are not read.
-/

set_option autoImplicit false

namespace TradeOS.Research

open TradeOS.Numeric TradeOS.Numeric.Extended

/-- The weights of a portfolio: a series with one entry per asset. -/
structure AssetWeights where
  assets : List String
  weight : String → ℚ
  nodup : assets.Nodup

namespace AssetWeights

/-! ## Turnover -/

/-- `get(asset, 0.0)`. -/
def get (weights : AssetWeights) (asset : String) : ℚ :=
  if asset ∈ weights.assets then weights.weight asset else 0

/-- The assets that a rebalancing takes out of the portfolio. -/
def leaving (prev new : AssetWeights) : List String :=
  prev.assets.filter fun asset => asset ∉ new.assets

/-- The index of `align` with an outer join. -/
def outerIndex (prev new : AssetWeights) : List String := new.assets ++ leaving prev new

/-- The weight that is traded in an asset. -/
def tradeWeight (prev new : AssetWeights) (asset : String) : ℚ := |new.get asset - prev.get asset|

/-- `CostModel.turnover_rate`. -/
def turnoverRate (prev new : AssetWeights) : ℚ :=
  1 / 2 * ((outerIndex prev new).map (tradeWeight prev new)).sum

/-- The smallest weight that counts as a trade. -/
def tradeThreshold : ℚ := 1 / 10 ^ 12

/-- A traded weight, unless it is too small. -/
def counted (trade : ℚ) : ℚ := if trade < tradeThreshold then 0 else trade

/-- The turnover rate that ignores trades below the threshold. -/
def countedTurnover (prev new : AssetWeights) : ℚ :=
  1 / 2 * ((outerIndex prev new).map fun asset => counted (tradeWeight prev new asset)).sum

/-! ## Costs -/

/-- `CostModel.cost_for_trade`. -/
def costForTrade (config : CostModelConfig) (notional : ℚ) : ℚ :=
  max (notional * (config.totalCostBps / 10000)) config.minCost.val

/-- One round of the loop over the new assets: the total so far, and the costs by asset. -/
def chargeAsset (config : CostModelConfig) (prev new : AssetWeights) (capital : ℚ)
    (state : ℚ × List (String × ℚ)) (asset : String) : ℚ × List (String × ℚ) :=
  let trade := tradeWeight prev new asset
  if trade < tradeThreshold then (state.1, state.2 ++ [(asset, 0)])
  else
    let cost := costForTrade config (trade * capital)
    (state.1 + cost, state.2 ++ [(asset, cost)])

/-- `CostModel.costs_for_period`. -/
def costsForPeriod (config : CostModelConfig) (prev new : AssetWeights) (capital : ℚ) :
    ℚ × List (String × ℚ) :=
  new.assets.foldl (chargeAsset config prev new capital) (0, [])

/-! ## The turnover of the two maps -/

section Turnover

variable {prev new : AssetWeights}

theorem get_of_mem {weights : AssetWeights} {asset : String} (member : asset ∈ weights.assets) :
    weights.get asset = weights.weight asset := if_pos member

theorem get_of_not_mem {weights : AssetWeights} {asset : String} (absent : asset ∉ weights.assets) :
    weights.get asset = 0 := if_neg absent

theorem mem_leaving_iff {asset : String} :
    asset ∈ leaving prev new ↔ asset ∈ prev.assets ∧ asset ∉ new.assets := by
  simp [leaving]

/-- Every asset of the two maps has one row in their outer join. -/
theorem outerIndex_nodup (prev new : AssetWeights) : (outerIndex prev new).Nodup := by
  refine new.nodup.append (prev.nodup.filter _) fun asset kept left => ?_
  exact (mem_leaving_iff.mp left).2 kept

/-- A leaving asset trades its whole weight. -/
theorem tradeWeight_of_leaving {asset : String} (left : asset ∈ leaving prev new) :
    tradeWeight prev new asset = |prev.weight asset| := by
  obtain ⟨held, dropped⟩ := mem_leaving_iff.mp left
  rw [tradeWeight, get_of_not_mem dropped, get_of_mem held, zero_sub, abs_neg]

theorem counted_nonneg {trade : ℚ} (nonneg : 0 ≤ trade) : 0 ≤ counted trade := by
  unfold counted
  split_ifs
  · exact le_rfl
  · exact nonneg

theorem counted_eq_zero_iff {trade : ℚ} : counted trade = 0 ↔ trade < tradeThreshold := by
  unfold counted
  split_ifs with small
  · exact iff_of_true rfl small
  · refine iff_of_false ?_ small
    have positive : 0 < tradeThreshold := by norm_num [tradeThreshold]
    linarith

/-- Without a trade that is too small to count, the turnover rate is the counted one. -/
theorem countedTurnover_eq_turnoverRate
    (large : ∀ asset ∈ outerIndex prev new, tradeWeight prev new asset = 0 ∨
      tradeThreshold ≤ tradeWeight prev new asset) :
    countedTurnover prev new = turnoverRate prev new := by
  have same : ∀ asset ∈ outerIndex prev new,
      counted (tradeWeight prev new asset) = tradeWeight prev new asset := by
    intro asset member
    rcases large asset member with still | traded
    · rw [still, counted_eq_zero_iff]
      norm_num [tradeThreshold]
    · exact if_neg (not_lt.mpr traded)
  rw [countedTurnover, turnoverRate, List.map_congr_left same]

end Turnover

/-! ## The costs of the new assets -/

section Costs

variable {config : CostModelConfig} {prev new : AssetWeights} {capital : ℚ}

theorem costForTrade_free (free : config.minCost.val = 0) {notional : ℚ}
    (nonneg : 0 ≤ notional) :
    costForTrade config notional = notional * (config.totalCostBps / 10000) := by
  have bps : 0 ≤ config.totalCostBps := add_nonneg config.fixedBps.property
    config.slippageBps.property
  rw [costForTrade, free]
  exact max_eq_left (by positivity)

/-- One round charges the counted trade of the asset. -/
theorem chargeAsset_fst (free : config.minCost.val = 0) (funded : 0 < capital)
    (state : ℚ × List (String × ℚ)) (asset : String) :
    (chargeAsset config prev new capital state asset).1 =
      state.1 + config.totalCostBps / 10000 * capital * counted (tradeWeight prev new asset) := by
  unfold chargeAsset counted
  dsimp only
  split_ifs with small
  · simp
  · have notional : 0 ≤ tradeWeight prev new asset * capital :=
      mul_nonneg (abs_nonneg _) funded.le
    rw [costForTrade_free free notional]
    ring

/-- Every round reports the asset. -/
theorem chargeAsset_snd (state : ℚ × List (String × ℚ)) (asset : String) :
    (chargeAsset config prev new capital state asset).2.map Prod.fst =
      state.2.map Prod.fst ++ [asset] := by
  unfold chargeAsset
  dsimp only
  split_ifs <;> simp

/-- The loop charges the counted trades of the assets it goes over. -/
theorem foldl_chargeAsset_fst (free : config.minCost.val = 0) (funded : 0 < capital)
    (assets : List String) (state : ℚ × List (String × ℚ)) :
    (assets.foldl (chargeAsset config prev new capital) state).1 =
      state.1 + config.totalCostBps / 10000 * capital *
        (assets.map fun asset => counted (tradeWeight prev new asset)).sum := by
  induction assets generalizing state with
  | nil => simp
  | cons asset assets ih =>
      rw [List.foldl_cons, ih, chargeAsset_fst free funded, List.map_cons, List.sum_cons]
      ring

/-- The costs are reported for the new assets, in their order. -/
theorem costsForPeriod_assets :
    (costsForPeriod config prev new capital).2.map Prod.fst = new.assets := by
  have reported : ∀ (assets : List String) (state : ℚ × List (String × ℚ)),
      (assets.foldl (chargeAsset config prev new capital) state).2.map Prod.fst =
        state.2.map Prod.fst ++ assets := by
    intro assets
    induction assets with
    | nil => simp
    | cons asset assets ih =>
        intro state
        rw [List.foldl_cons, ih, chargeAsset_snd, List.append_assoc]
        rfl
  exact (reported new.assets (0, [])).trans (List.nil_append _)

/-- The trades that are counted in the turnover and not charged. -/
def uncharged (prev new : AssetWeights) : ℚ :=
  ((leaving prev new).map fun asset => counted |prev.weight asset|).sum

/-- **The costs fall short of the turnover by the trades of the leaving assets.** -/
theorem costsForPeriod_add_uncharged (free : config.minCost.val = 0) (funded : 0 < capital) :
    (costsForPeriod config prev new capital).1 +
        config.totalCostBps / 10000 * capital * uncharged prev new =
      2 * countedTurnover prev new * capital * config.totalCostBps / 10000 := by
  have left : (leaving prev new).map (fun asset => counted (tradeWeight prev new asset)) =
      (leaving prev new).map fun asset => counted |prev.weight asset| :=
    List.map_congr_left fun asset member => by rw [tradeWeight_of_leaving member]
  rw [costsForPeriod, foldl_chargeAsset_fst free funded, countedTurnover, outerIndex,
    List.map_append, List.sum_append, left, uncharged]
  ring

theorem uncharged_eq_zero_iff :
    uncharged prev new = 0 ↔
      ∀ asset ∈ prev.assets, asset ∉ new.assets → |prev.weight asset| < tradeThreshold := by
  have nonneg : ∀ cost ∈ (leaving prev new).map fun asset => counted |prev.weight asset|,
      0 ≤ cost := by
    intro cost member
    obtain ⟨asset, -, rfl⟩ := List.mem_map.mp member
    exact counted_nonneg (abs_nonneg _)
  constructor
  · intro zero asset held dropped
    have member : counted |prev.weight asset| ∈
        (leaving prev new).map fun asset => counted |prev.weight asset| :=
      List.mem_map_of_mem (mem_leaving_iff.mpr ⟨held, dropped⟩)
    refine counted_eq_zero_iff.mp (le_antisymm ?_ (nonneg _ member))
    exact (List.single_le_sum nonneg _ member).trans zero.le
  · intro small
    refine List.sum_eq_zero fun cost member => ?_
    obtain ⟨asset, left, rfl⟩ := List.mem_map.mp member
    obtain ⟨held, dropped⟩ := mem_leaving_iff.mp left
    exact counted_eq_zero_iff.mpr (small asset held dropped)

end Costs

/-- **The costs match the turnover exactly if trading is free or no asset leaves the portfolio with
a weight that counts**, for all weights, over any assets. -/
theorem costs_match_turnover_iff (config : CostModelConfig) (free : config.minCost.val = 0)
    (prev new : AssetWeights) (capital : ℚ) (funded : 0 < capital) :
    (costsForPeriod config prev new capital).1 =
        2 * countedTurnover prev new * capital * config.totalCostBps / 10000 ↔
      config.totalCostBps = 0 ∨
        ∀ asset ∈ prev.assets, asset ∉ new.assets → |prev.weight asset| < tradeThreshold := by
  rw [← costsForPeriod_add_uncharged free funded, left_eq_add, mul_eq_zero, mul_eq_zero,
    or_iff_left funded.ne', uncharged_eq_zero_iff, div_eq_zero_iff,
    or_iff_left (by norm_num : (10000 : ℚ) ≠ 0)]

/-- The default costs, and five basis points more. -/
def sampleConfig : CostModelConfig :=
  ⟨⟨5, by norm_num⟩, ⟨5, by norm_num⟩, NonnegRational.zero⟩

/-- A portfolio of one asset. -/
def single (asset : String) : AssetWeights := ⟨[asset], fun _ => 1, List.nodup_singleton asset⟩

theorem costs_match_turnover_kept :
    (costsForPeriod sampleConfig (single "AAPL") (single "AAPL") 1000).1 =
        2 * countedTurnover (single "AAPL") (single "AAPL") * 1000 * sampleConfig.totalCostBps /
          10000 ↔
      sampleConfig.totalCostBps = 0 ∨
        ∀ asset ∈ (single "AAPL").assets, asset ∉ (single "AAPL").assets →
          |(single "AAPL").weight asset| < tradeThreshold :=
  costs_match_turnover_iff sampleConfig rfl (single "AAPL") (single "AAPL") 1000 (by norm_num)

/-- One asset replaces another: a turnover rate of one, and only the new asset is charged. -/
theorem costs_miss_leaving_asset :
    turnoverRate (single "AAPL") (single "MSFT") = 1 ∧
      countedTurnover (single "AAPL") (single "MSFT") = 1 ∧
      2 * countedTurnover (single "AAPL") (single "MSFT") * 1000 * sampleConfig.totalCostBps /
        10000 = 2 ∧
      costsForPeriod sampleConfig (single "AAPL") (single "MSFT") 1000 = (1, [("MSFT", 1)]) := by
  with_unfolding_all decide

/-! ## The costs of a backtest -/

section Backtest

variable {config : CostModelConfig} {prev new : AssetWeights} {capital : ℚ}

/-- The row of a table with these weights. -/
def row (weights : AssetWeights) : Row := fun asset => fin (weights.weight asset)

theorem totalCostAbsolute_fin (notional : ℚ) :
    config.totalCostAbsolute (fin notional) = fin (costForTrade config notional) := by
  rw [CostModelConfig.totalCostAbsolute, fin_mul, larger_fin, costForTrade]

/-- Over the same assets the traded weight is read from the two rows. -/
theorem tradeWeight_fin (columns : prev.assets = new.assets) {asset : String}
    (member : asset ∈ new.assets) :
    Extended.abs (new.row asset - prev.row asset) = fin (tradeWeight prev new asset) := by
  rw [tradeWeight, get_of_mem member, get_of_mem (columns ▸ member)]
  simp [row, Extended.abs]

/-- A round of the loop in a backtest. -/
theorem chargeAsset_fin (columns : prev.assets = new.assets) {asset : String}
    (member : asset ∈ new.assets) (state : ℚ × List (String × ℚ)) :
    (if lt (Extended.abs (new.row asset - prev.row asset)) (fin (1 / 10 ^ 12)) then fin state.1
      else fin state.1 +
        config.totalCostAbsolute (Extended.abs (new.row asset - prev.row asset) * fin capital)) =
      fin (chargeAsset config prev new capital state asset).1 := by
  rw [tradeWeight_fin columns member, lt_fin, fin_mul, totalCostAbsolute_fin, fin_add]
  change (if decide (tradeWeight prev new asset < tradeThreshold) then _ else _) = _
  by_cases small : tradeWeight prev new asset < tradeThreshold
  · simp [chargeAsset, small]
  · simp [chargeAsset, small]

/-- The costs of a backtest are the costs of the two rows. -/
theorem costsForPeriod_fin (columns : prev.assets = new.assets) :
    config.costsForPeriod new.assets prev.row new.row (fin capital) =
      fin (costsForPeriod config prev new capital).1 := by
  have loop : ∀ (assets : List String) (state : ℚ × List (String × ℚ)),
      (∀ asset ∈ assets, asset ∈ new.assets) →
      assets.foldl (fun total asset =>
          let tradeWeight := Extended.abs (new.row asset - prev.row asset)
          if lt tradeWeight (fin (1 / 10 ^ 12)) then total
          else total + config.totalCostAbsolute (tradeWeight * fin capital)) (fin state.1) =
        fin (assets.foldl (chargeAsset config prev new capital) state).1 := by
    intro assets
    induction assets with
    | nil => exact fun _ _ => rfl
    | cons asset assets ih =>
        intro state members
        have member := members asset List.mem_cons_self
        rw [List.foldl_cons, List.foldl_cons, chargeAsset_fin columns member]
        exact ih _ fun other later => members other (List.mem_cons_of_mem asset later)
  exact loop new.assets (0, []) fun _ member => member

/-- The turnover rate of a backtest is the turnover rate of the two rows. -/
theorem turnoverRate_fin (columns : prev.assets = new.assets) :
    Research.turnoverRate new.assets prev.row new.row = fin (turnoverRate prev new) := by
  have stays : leaving prev new = [] := by
    rw [leaving, columns]
    simp
  have trades : (new.assets.map fun asset => Extended.abs (new.row asset - prev.row asset)) =
      (new.assets.map (tradeWeight prev new)).map fin := by
    rw [List.map_map]
    exact List.map_congr_left fun asset member => tradeWeight_fin columns member
  rw [Research.turnoverRate, trades, sum_map_fin, fin_mul, turnoverRate, outerIndex, stays,
    List.append_nil]

/-- In a backtest nothing leaves the portfolio without being charged. -/
theorem backtest_costs_match_turnover (free : config.minCost.val = 0) (funded : 0 < capital)
    (columns : prev.assets = new.assets) :
    config.costsForPeriod new.assets prev.row new.row (fin capital) =
      fin (2 * countedTurnover prev new * capital * config.totalCostBps / 10000) := by
  have charged : uncharged prev new = 0 :=
    uncharged_eq_zero_iff.mpr fun asset held dropped => absurd (columns ▸ held) dropped
  rw [costsForPeriod_fin columns, ← costsForPeriod_add_uncharged free funded, charged, mul_zero,
    add_zero]

end Backtest

end AssetWeights

end TradeOS.Research
