import ChainMonitor.Backtest.Batch

/-! The books of a backtest: what the metrics of a run say about each other before they are rounded,
and what the rounded costs and net results of its trades add up to. -/

namespace ChainMonitor.Backtest

open ProofKit Snapshots

/-! ### The metrics before the rounding -/

/-- What `_build_metrics` has computed of some trades when it rounds. -/
def exactMetrics (trades : List BacktestTradeResult) (costs : List TradeCost)
    (tradeSizeUsd : ℚ) : BacktestMetrics :=
  let netValues := trades.map BacktestTradeResult.netPnlUsd
  let wins := netValues.filter fun v => 0 < v
  let losses := netValues.filter fun v => v ≤ 0
  let grossProfit := wins.sum
  let grossLossAbs := |losses.sum|
  let pf := if 0 < grossLossAbs then grossProfit / grossLossAbs else 99
  let winRate : ℚ := wins.length / trades.length
  let avgWin := if wins = [] then 0 else grossProfit / wins.length
  let avgLoss := if losses = [] then 0 else grossLossAbs / losses.length
  let loseRate := 1 - winRate
  let expectancy := winRate * avgWin - loseRate * avgLoss
  { tradeCount := trades.length
    winCount := wins.length
    loseCount := losses.length
    winRate
    netPnlUsd := netValues.sum
    grossProfitUsd := grossProfit
    grossLossUsd := grossLossAbs
    pf
    expectancy
    maxDdPct := maxDrawdownPct netValues tradeSizeUsd
    costBreakdown := summarize costs }

/-- The final rounding. -/
def BacktestMetrics.rounded (m : BacktestMetrics) : BacktestMetrics :=
  { m with
    winRate := roundTo 8 m.winRate
    netPnlUsd := roundTo 8 m.netPnlUsd
    grossProfitUsd := roundTo 8 m.grossProfitUsd
    grossLossUsd := roundTo 8 m.grossLossUsd
    pf := roundTo 8 m.pf
    expectancy := roundTo 8 m.expectancy
    maxDdPct := roundTo 8 m.maxDdPct }

section Metrics

variable {trades : List BacktestTradeResult} {costs : List TradeCost} {size : ℚ} {nets : List ℚ}

theorem buildMetrics_eq_rounded (hne : trades ≠ []) :
    buildMetrics trades costs size = (exactMetrics trades costs size).rounded := if_neg hne

theorem exactMetrics_expectancy (hne : trades ≠ []) :
    (exactMetrics trades costs size).expectancy =
      (trades.map BacktestTradeResult.netPnlUsd).sum / trades.length := by
  have hnets : trades.map BacktestTradeResult.netPnlUsd ≠ [] := by simpa using hne
  have hmean := expectancy_eq hnets
  rw [List.length_map] at hmean
  exact hmean

/-- A profit factor above one is a sum above zero. -/
theorem one_lt_profitFactor_iff (hloss : 0 < grossLoss nets) :
    1 < profitFactor nets ↔ 0 < nets.sum := by
  rw [profitFactor, if_pos hloss, one_lt_div hloss, sum_eq, sub_pos]

/-- The counts add up, the net result is the profit less the loss, and the expectancy is the net
result per trade, of any trades; and the profit factor of trades that lose something is above one
when the expectancy is positive. -/
theorem buildMetrics_identities (costs : List TradeCost) (size : ℚ) (hne : trades ≠ []) :
    let m := exactMetrics trades costs size
    buildMetrics trades costs size = m.rounded ∧
      m.tradeCount = trades.length ∧
      m.winCount + m.loseCount = m.tradeCount ∧
      m.netPnlUsd = m.grossProfitUsd - m.grossLossUsd ∧
      m.expectancy = m.netPnlUsd / m.tradeCount ∧
      (0 < m.grossLossUsd → (1 < m.pf ↔ 0 < m.expectancy)) := by
  intro m
  have hexpectancy : m.expectancy = m.netPnlUsd / m.tradeCount := exactMetrics_expectancy hne
  refine ⟨buildMetrics_eq_rounded hne, rfl, ?_, ?_, hexpectancy, ?_⟩
  · have hlength := length_wins_add_losses (trades.map BacktestTradeResult.netPnlUsd)
    rw [List.length_map] at hlength
    exact hlength
  · exact sum_eq (trades.map BacktestTradeResult.netPnlUsd)
  · intro hloss
    have hcount : (0 : ℚ) < m.tradeCount := by
      have hpos : 0 < trades.length := List.length_pos_iff.mpr hne
      exact_mod_cast hpos
    have hpf : 1 < m.pf ↔ 0 < m.netPnlUsd := one_lt_profitFactor_iff hloss
    rw [hpf, hexpectancy, div_pos_iff_of_pos_right hcount]

/-- A win, a loss, and a trade that is neither. -/
theorem buildMetrics_identities_three_trades :
    let trades := [tradeOf 30, tradeOf (-10), tradeOf 0]
    let m := exactMetrics trades [] 1000
    buildMetrics trades [] 1000 = m.rounded ∧
      m.tradeCount = 3 ∧
      m.winCount + m.loseCount = m.tradeCount ∧
      m.netPnlUsd = m.grossProfitUsd - m.grossLossUsd ∧
      m.expectancy = m.netPnlUsd / m.tradeCount ∧
      (0 < m.grossLossUsd → (1 < m.pf ↔ 0 < m.expectancy)) :=
  buildMetrics_identities [] 1000 (List.cons_ne_nil _ _)

end Metrics

/-! ### What the costs add up to -/

/-- The costs of trades, by component or by trade. -/
theorem sum_total (costs : List TradeCost) :
    (costs.map TradeCost.total).sum =
      (costs.map TradeCost.feeUsd).sum + (costs.map TradeCost.slippageUsd).sum +
        (costs.map TradeCost.latencyUsd).sum + (costs.map TradeCost.gasUsd).sum := by
  induction costs with
  | nil => simp
  | cons c costs ih =>
    simp only [List.map_cons, List.sum_cons, ih, TradeCost.total]
    ring

/-- Costs whose components have eight decimal places. -/
structure TradeCost.IsRounded (c : TradeCost) : Prop where
  fee : IsDecimal 8 c.feeUsd
  slippage : IsDecimal 8 c.slippageUsd
  latency : IsDecimal 8 c.latencyUsd
  gas : IsDecimal 8 c.gasUsd

theorem estimate_isRounded (config : BacktestConfig) (notionalUsd : ℚ) :
    (estimate config notionalUsd).IsRounded :=
  ⟨isDecimal_roundTo 8 _, isDecimal_roundTo 8 _, isDecimal_roundTo 8 _, isDecimal_roundTo 8 _⟩

theorem TradeCost.IsRounded.total {c : TradeCost} (h : c.IsRounded) : IsDecimal 8 c.total :=
  ((h.fee.add h.slippage).add h.latency).add h.gas

/-- The rounding of the totals changes nothing, so that they add up. -/
theorem summarize_eq {costs : List TradeCost} (h : ∀ c ∈ costs, c.IsRounded) :
    summarize costs =
      { totalFeeUsd := (costs.map TradeCost.feeUsd).sum
        totalSlippageUsd := (costs.map TradeCost.slippageUsd).sum
        totalLatencyUsd := (costs.map TradeCost.latencyUsd).sum
        totalGasUsd := (costs.map TradeCost.gasUsd).sum
        totalCostUsd := (costs.map TradeCost.total).sum } := by
  have hfee := IsDecimal.sum_map fun c hc => (h c hc).fee
  have hslippage := IsDecimal.sum_map fun c hc => (h c hc).slippage
  have hlatency := IsDecimal.sum_map fun c hc => (h c hc).latency
  have hgas := IsDecimal.sum_map fun c hc => (h c hc).gas
  have htotal := IsDecimal.sum_map fun c hc => (h c hc).total
  rw [sum_total] at htotal
  rw [summarize, roundTo_of_isDecimal hfee, roundTo_of_isDecimal hslippage,
    roundTo_of_isDecimal hlatency, roundTo_of_isDecimal hgas, roundTo_of_isDecimal htotal,
    sum_total]

/-! ### What the trades add up to -/

/-- Sums of terms that lie a distance apart. -/
theorem abs_sum_sub_sum_le {α : Type*} {f g : α → ℚ} {bound : ℚ} {xs : List α}
    (h : ∀ x ∈ xs, |f x - g x| ≤ bound) :
    |(xs.map f).sum - (xs.map g).sum| ≤ xs.length * bound := by
  induction xs with
  | nil => simp
  | cons x xs ih =>
    obtain ⟨hx, hxs⟩ := List.forall_mem_cons.mp h
    have hsplit : (f x + (xs.map f).sum) - (g x + (xs.map g).sum) =
        (f x - g x) + ((xs.map f).sum - (xs.map g).sum) := by ring
    rw [List.map_cons, List.map_cons, List.sum_cons, List.sum_cons, hsplit, List.length_cons]
    push_cast
    calc |(f x - g x) + ((xs.map f).sum - (xs.map g).sum)|
        ≤ |f x - g x| + |(xs.map f).sum - (xs.map g).sum| := abs_add_le _ _
      _ ≤ bound + xs.length * bound := add_le_add hx (ih hxs)
      _ = (xs.length + 1) * bound := by ring

section Run

variable {e : BacktestEngine} {config : BacktestConfig} {score : ScoreRowInput}
  {trades : List BacktestTradeResult} {metrics : BacktestMetrics}

theorem trade_cost (e : BacktestEngine) (config : BacktestConfig) (score : ScoreRowInput) :
    (e.trade config score).1.costUsd = (e.trade config score).2.total :=
  roundTo_of_isDecimal (estimate_isRounded config config.tradeSizeUsd).total

/-- The net result of a trade and its gross result are rounded apart, half a unit each. -/
theorem trade_net (e : BacktestEngine) (config : BacktestConfig) (score : ScoreRowInput) :
    let row := (e.trade config score).1
    |row.netPnlUsd - (row.grossPnlUsd - row.costUsd)| ≤ 1 / 10 ^ 8 := by
  intro row
  have hcost : row.costUsd = (estimate config config.tradeSizeUsd).total :=
    trade_cost e config score
  have hnet := abs_roundTo_sub_le 8
    (e.grossPnl config score - (estimate config config.tradeSizeUsd).total)
  have hgross := abs_roundTo_sub_le 8 (e.grossPnl config score)
  rw [abs_le] at hnet hgross ⊢
  rw [hcost]
  show _ ≤ roundTo 8 _ - (roundTo 8 _ - _) ∧ roundTo 8 _ - (roundTo 8 _ - _) ≤ _
  constructor <;> linarith

/-- The sum of rounded net results is not rounded again. -/
theorem netPnlUsd_buildMetrics (costs : List TradeCost) (size : ℚ)
    (h : ∀ row ∈ trades, IsDecimal 8 row.netPnlUsd) :
    (buildMetrics trades costs size).netPnlUsd =
      (trades.map BacktestTradeResult.netPnlUsd).sum := by
  by_cases hne : trades = []
  · subst hne
    rfl
  · rw [buildMetrics_eq_rounded hne]
    apply roundTo_of_isDecimal
    exact IsDecimal.sum_map h

theorem tradeCount_buildMetrics (trades : List BacktestTradeResult) (costs : List TradeCost)
    (size : ℚ) : (buildMetrics trades costs size).tradeCount = trades.length := by
  unfold buildMetrics
  split
  · rename_i hnil
    rw [hnil]
    rfl
  · rfl

/-- The totals of the costs and of the net results of a run. -/
structure Balanced (trades : List BacktestTradeResult) (metrics : BacktestMetrics) : Prop where
  components : metrics.costBreakdown.totalFeeUsd + metrics.costBreakdown.totalSlippageUsd +
    metrics.costBreakdown.totalLatencyUsd + metrics.costBreakdown.totalGasUsd =
      metrics.costBreakdown.totalCostUsd
  costs : metrics.costBreakdown.totalCostUsd = (trades.map BacktestTradeResult.costUsd).sum
  net : |metrics.netPnlUsd - ((trades.map BacktestTradeResult.grossPnlUsd).sum -
    metrics.costBreakdown.totalCostUsd)| ≤ trades.length * (1 / 10 ^ 8)

theorem report_costs (e : BacktestEngine) (config : BacktestConfig) (rows : List ScoreRowInput) :
    ∀ c ∈ rows.map fun score => (e.trade config score).2, c.IsRounded := by
  intro c hc
  obtain ⟨score, -, rfl⟩ := List.mem_map.mp hc
  exact estimate_isRounded config config.tradeSizeUsd

/-- What the trades of a run cost, by trade. -/
theorem report_costUsd (e : BacktestEngine) (config : BacktestConfig) (rows : List ScoreRowInput) :
    ((rows.map fun score => (e.trade config score).2).map TradeCost.total).sum =
      ((e.report config rows).1.map BacktestTradeResult.costUsd).sum := by
  rw [BacktestEngine.report, List.map_map, List.map_map]
  congr 1
  exact List.map_congr_left fun score _ => (trade_cost e config score).symm

theorem report_netPnlUsd (e : BacktestEngine) (config : BacktestConfig)
    (rows : List ScoreRowInput) : (e.report config rows).2.netPnlUsd =
      ((e.report config rows).1.map BacktestTradeResult.netPnlUsd).sum := by
  apply netPnlUsd_buildMetrics
  intro row hrow
  obtain ⟨score, -, rfl⟩ := List.mem_map.mp hrow
  exact isDecimal_roundTo 8 _

/-- The net results of a run, and its gross results less its costs. -/
theorem report_net (e : BacktestEngine) (config : BacktestConfig) (rows : List ScoreRowInput) :
    let trades := (e.report config rows).1
    |(trades.map BacktestTradeResult.netPnlUsd).sum -
      ((trades.map BacktestTradeResult.grossPnlUsd).sum -
        (trades.map BacktestTradeResult.costUsd).sum)| ≤ trades.length * (1 / 10 ^ 8) := by
  intro trades
  have hgross : (trades.map BacktestTradeResult.grossPnlUsd).sum =
      (trades.map fun row => row.grossPnlUsd - row.costUsd).sum +
        (trades.map BacktestTradeResult.costUsd).sum := by
    rw [← List.sum_map_add]
    simp only [sub_add_cancel]
  rw [hgross, add_sub_cancel_right]
  apply abs_sum_sub_sum_le
  intro row hrow
  obtain ⟨score, -, rfl⟩ := List.mem_map.mp hrow
  exact trade_net e config score

theorem report_balanced (e : BacktestEngine) (config : BacktestConfig)
    (rows : List ScoreRowInput) :
    Balanced (e.report config rows).1 (e.report config rows).2 := by
  have hbreakdown := costBreakdown_buildMetrics (e.report config rows).1
    (rows.map fun score => (e.trade config score).2) config.tradeSizeUsd
  rw [summarize_eq (report_costs e config rows), report_costUsd] at hbreakdown
  have hmetrics : (e.report config rows).2.costBreakdown = _ := hbreakdown
  refine ⟨?_, ?_, ?_⟩
  · rw [hmetrics, ← report_costUsd]
    exact (sum_total _).symm
  · rw [hmetrics]
  · rw [hmetrics, report_netPnlUsd]
    exact report_net e config rows

theorem run_balanced (h : e.run config = .ok (trades, metrics)) : Balanced trades metrics := by
  obtain ⟨-, rows, -, hreport⟩ := run_eq_ok.mp h
  have hbalanced := report_balanced e config rows
  rwa [hreport] at hbalanced

theorem tradeCount_run (h : e.run config = .ok (trades, metrics)) :
    metrics.tradeCount = trades.length := by
  obtain ⟨-, rows, -, hreport⟩ := run_eq_ok.mp h
  obtain ⟨rfl, rfl⟩ := Prod.mk.inj hreport
  exact tradeCount_buildMetrics _ _ _

/-- What the check says of the costs of balanced books. -/
theorem check_costs {gate : Gate2CheckResult} (h : e.run config = .ok (trades, metrics))
    (hgate : check e config = .ok gate) :
    gate.costConsistencyPassed = decide (metrics.tradeCount = 0 ∨
      |metrics.costBreakdown.totalFeeUsd + metrics.costBreakdown.totalSlippageUsd +
        metrics.costBreakdown.totalLatencyUsd + metrics.costBreakdown.totalGasUsd -
          metrics.costBreakdown.totalCostUsd| ≤ 1 / 10 ^ 8 ∧
        0 < metrics.costBreakdown.totalCostUsd) := by
  unfold check at hgate
  rw [h] at hgate
  obtain ⟨_, hfirst, hgate⟩ := bind_eq_ok.mp hgate
  cases hfirst
  obtain ⟨_, hsecond, hgate⟩ := bind_eq_ok.mp hgate
  cases hsecond
  obtain ⟨walkForward, -, hgate⟩ := bind_eq_ok.mp hgate
  rw [← Except.ok.inj hgate]

/-- The books of a run balance, and the cost check fails exactly when there are trades that cost
nothing. -/
theorem books_balance (h : e.run config = .ok (trades, metrics)) :
    Balanced trades metrics ∧
      ∀ gate, check e config = .ok gate →
        (gate.costConsistencyPassed = false ↔
          trades ≠ [] ∧ metrics.costBreakdown.totalCostUsd ≤ 0) := by
  have hbalanced := run_balanced h
  refine ⟨hbalanced, fun gate hgate => ?_⟩
  have hzero : |(0 : ℚ)| ≤ 1 / 10 ^ 8 := by norm_num
  rw [check_costs h hgate, hbalanced.components, sub_self, decide_eq_false_iff_not, not_or,
    tradeCount_run h, List.length_eq_zero_iff]
  simp only [hzero, true_and, not_lt, ne_eq]

end Run

/-- The trade of one minute. -/
theorem books_balance_one_minute :
    let config := oneMinuteConfig 1000 20
    let (row, cost) := oneSymbol.trade config oneScore
    let metrics := buildMetrics [row] [cost] 1000
    Balanced [row] metrics ∧
      ∀ gate, check oneSymbol config = .ok gate →
        (gate.costConsistencyPassed = false ↔
          [row] ≠ [] ∧ metrics.costBreakdown.totalCostUsd ≤ 0) :=
  books_balance (run_oneMinute 1000 20)

end ChainMonitor.Backtest
