import ChainMonitor.Backtest.Engine

/-! What `_build_metrics` computes of a list of net results, and what a run of the engine is. -/

namespace ChainMonitor.Backtest

open ProofKit PipelineService Scoring Snapshots

/-! ### Wins and losses -/

section Nets

variable {nets : List ℚ} {size : ℚ}

def wins (nets : List ℚ) : List ℚ := nets.filter fun v => 0 < v

def losses (nets : List ℚ) : List ℚ := nets.filter fun v => v ≤ 0

def grossProfit (nets : List ℚ) : ℚ := (wins nets).sum

def grossLoss (nets : List ℚ) : ℚ := |(losses nets).sum|

def profitFactor (nets : List ℚ) : ℚ :=
  if 0 < grossLoss nets then grossProfit nets / grossLoss nets else 99

theorem grossProfit_nonneg (nets : List ℚ) : 0 ≤ grossProfit nets := by
  apply List.sum_nonneg
  intro v hv
  exact (of_decide_eq_true (List.mem_filter.mp hv).2).le

theorem grossLoss_eq (nets : List ℚ) : grossLoss nets = -(losses nets).sum := by
  apply abs_of_nonpos
  induction nets with
  | nil => simp [losses]
  | cons v vs ih =>
    by_cases hv : v ≤ 0
    · have hcons : losses (v :: vs) = v :: losses vs := by simp [losses, hv]
      rw [hcons, List.sum_cons]
      linarith
    · have hcons : losses (v :: vs) = losses vs := by simp [losses, hv]
      rw [hcons]
      exact ih

theorem length_wins_add_losses (nets : List ℚ) :
    (wins nets).length + (losses nets).length = nets.length := by
  induction nets with
  | nil => rfl
  | cons v vs ih =>
    by_cases hv : 0 < v
    · simp [wins, losses, hv, not_le.mpr hv] at ih ⊢
      omega
    · simp [wins, losses, hv, not_lt.mp hv] at ih ⊢
      omega

/-- The sum of the net results is what is won less what is lost. -/
theorem sum_eq (nets : List ℚ) : nets.sum = grossProfit nets - grossLoss nets := by
  rw [grossLoss_eq]
  induction nets with
  | nil => simp [grossProfit, wins, losses]
  | cons v vs ih =>
    by_cases hv : 0 < v
    · simp [grossProfit, wins, losses, hv, not_le.mpr hv] at ih ⊢
      linarith
    · simp [grossProfit, wins, losses, hv, not_lt.mp hv] at ih ⊢
      linarith

theorem grossLoss_nonneg (nets : List ℚ) : 0 ≤ grossLoss nets := abs_nonneg _

/-- The average win, weighed by the rate of wins, is the profit over all trades; so for losses. -/
theorem rate_mul_average {vs : List ℚ} {total : ℚ} {n : ℕ} (hvs : vs = [] → total = 0) :
    (vs.length / n : ℚ) * (if vs = [] then 0 else total / vs.length) = total / n := by
  split
  · rename_i h
    rw [hvs h, mul_zero, zero_div]
  · rename_i h
    have hpos : (vs.length : ℚ) ≠ 0 := by simpa using h
    field_simp

/-- The expectancy is the mean of the net results. -/
theorem expectancy_eq (hne : nets ≠ []) :
    ((wins nets).length / nets.length : ℚ) *
        (if wins nets = [] then 0 else grossProfit nets / (wins nets).length) -
      (1 - (wins nets).length / nets.length) *
        (if losses nets = [] then 0 else grossLoss nets / (losses nets).length) =
      nets.sum / nets.length := by
  have hn : (nets.length : ℚ) ≠ 0 := by simpa using hne
  have hrate : (1 - (wins nets).length / nets.length : ℚ) = (losses nets).length / nets.length := by
    have hlen : ((wins nets).length + (losses nets).length : ℚ) = nets.length := by
      exact_mod_cast length_wins_add_losses nets
    rw [← hlen] at hn ⊢
    field_simp
    ring
  rw [hrate, rate_mul_average, rate_mul_average, sum_eq nets, sub_div]
  · intro h
    simp [grossLoss, h]
  · intro h
    simp [grossProfit, h]

end Nets

theorem costBreakdown_buildMetrics (trades : List BacktestTradeResult) (costs : List TradeCost)
    (size : ℚ) : (buildMetrics trades costs size).costBreakdown = summarize costs := by
  unfold buildMetrics
  split
  · rfl
  · rfl

/-- The metrics of a run that has trades. -/
theorem buildMetrics_eq {trades : List BacktestTradeResult} (costs : List TradeCost) (size : ℚ)
    (hne : trades ≠ []) :
    let nets := trades.map BacktestTradeResult.netPnlUsd
    buildMetrics trades costs size =
      { tradeCount := trades.length
        winCount := (wins nets).length
        loseCount := (losses nets).length
        winRate := roundTo 8 ((wins nets).length / trades.length)
        netPnlUsd := roundTo 8 nets.sum
        grossProfitUsd := roundTo 8 (grossProfit nets)
        grossLossUsd := roundTo 8 (grossLoss nets)
        pf := roundTo 8 (profitFactor nets)
        expectancy := roundTo 8 (nets.sum / trades.length)
        maxDdPct := roundTo 8 (maxDrawdownPct nets size)
        costBreakdown := summarize costs } := by
  intro nets
  have hnets : nets ≠ [] := by simpa [nets] using hne
  have hlen : nets.length = trades.length := by simp [nets]
  have hexp := expectancy_eq hnets
  rw [hlen] at hexp
  rw [← hexp]
  exact if_neg hne

/-! ### Drawdown -/

/-- The shares by which the equity lies below its peak so far, after each trade at which the peak is
positive. -/
def falls (equity peak : ℚ) : List ℚ → List ℚ
  | [] => []
  | v :: vs =>
    let equity' := equity + v
    let peak' := max peak equity'
    (if 0 < peak' then [(peak' - equity') / peak'] else []) ++ falls equity' peak' vs

theorem falls_nonneg (equity peak : ℚ) (nets : List ℚ) : ∀ d ∈ falls equity peak nets, 0 ≤ d := by
  induction nets generalizing equity peak with
  | nil => simp [falls]
  | cons v vs ih =>
    intro d hd
    rcases List.mem_append.mp hd with hd | hd
    · split at hd
      · rename_i hpos
        rw [List.mem_singleton.mp hd]
        exact div_nonneg (sub_nonneg.mpr (le_max_right _ _)) hpos.le
      · simp at hd
    · exact ih _ _ d hd

theorem Drawdown.step_eq (s : Drawdown) (v : ℚ) :
    s.step v =
      let equity := s.equity + v
      let peak := max s.peak equity
      ⟨equity, peak, if 0 < peak then max s.maxDd ((peak - equity) / peak) else s.maxDd⟩ := by
  unfold Drawdown.step
  dsimp only
  rw [← max_def_lt]
  by_cases hpos : 0 < max s.peak (s.equity + v)
  · rw [if_neg (not_le.mpr hpos), if_pos hpos, max_def_lt s.maxDd]
  · rw [if_pos (not_lt.mp hpos), if_neg hpos]

/-- The loop keeps the greatest of the falls. -/
theorem foldl_drawdown (s : Drawdown) (nets : List ℚ) :
    (nets.foldl Drawdown.step s).maxDd = (falls s.equity s.peak nets).foldl max s.maxDd := by
  induction nets generalizing s with
  | nil => rfl
  | cons v vs ih =>
    rw [List.foldl_cons, ih, Drawdown.step_eq, falls]
    dsimp only
    split
    · rfl
    · rfl

/-- The falls of a run that begins with ten times its trade size. -/
def drawdowns (size : ℚ) (nets : List ℚ) : List ℚ := falls (size * 10) (size * 10) nets

theorem maxDrawdownPct_eq (nets : List ℚ) (size : ℚ) :
    maxDrawdownPct nets size = (drawdowns size nets).foldl max 0 :=
  foldl_drawdown _ nets

theorem le_foldl_max {ds : List ℚ} {m : ℚ} : ∀ d ∈ m :: ds, d ≤ ds.foldl max m := by
  induction ds generalizing m with
  | nil => simp
  | cons x ds ih =>
    intro d hd
    rw [List.foldl_cons]
    rcases List.mem_cons.mp hd with rfl | hd
    · exact (le_max_left d x).trans (ih _ List.mem_cons_self)
    · rcases List.mem_cons.mp hd with rfl | hd
      · exact (le_max_right m d).trans (ih _ List.mem_cons_self)
      · exact ih d (List.mem_cons_of_mem _ hd)

theorem foldl_max_mem (ds : List ℚ) (m : ℚ) : ds.foldl max m ∈ m :: ds := by
  induction ds generalizing m with
  | nil => simp
  | cons x ds ih =>
    rw [List.foldl_cons]
    rcases List.mem_cons.mp (ih (max m x)) with h | h
    · rw [h]
      rcases max_choice m x with hm | hm <;> simp [hm]
    · exact List.mem_cons_of_mem _ (List.mem_cons_of_mem _ h)

/-! ### Runs -/

/-- The score rows of the minutes that pass the threshold, in order. -/
def BacktestEngine.passing (e : BacktestEngine) (threshold : ℚ) (minutes : List ℤ) :
    Except ScoringError (List ScoreRowInput) := do
  let rows ← minutes.mapM e.scoreRows
  return rows.flatten.filter fun score => threshold ≤ score.conviction

/-- The trades that score rows open, and their metrics. -/
def BacktestEngine.report (e : BacktestEngine) (config : BacktestConfig)
    (rows : List ScoreRowInput) : List BacktestTradeResult × BacktestMetrics :=
  let trades := rows.map fun score => (e.trade config score).1
  (trades, buildMetrics trades (rows.map fun score => (e.trade config score).2)
    config.tradeSizeUsd)

/-- The loop opens the trades of the score rows that pass the threshold. -/
theorem runMinutes_eq (e : BacktestEngine) (config : BacktestConfig) (minutes : List ℤ) :
    e.runMinutes config minutes =
      e.report config <$> e.passing config.convictionThreshold minutes := by
  have hminute : e.minuteTrades config = fun ts =>
      (fun rows : List ScoreRowInput => (rows.filter fun score =>
        config.convictionThreshold ≤ score.conviction).map (e.trade config)) <$>
          e.scoreRows ts := by
    funext ts
    unfold BacktestEngine.minuteTrades
    cases e.scoreRows ts <;> rfl
  unfold BacktestEngine.runMinutes BacktestEngine.passing
  rw [hminute, mapM_map_eq]
  cases minutes.mapM e.scoreRows with
  | error err => rfl
  | ok rows =>
    have hflat : (rows.map fun rows : List ScoreRowInput => (rows.filter fun score =>
        config.convictionThreshold ≤ score.conviction).map (e.trade config)).flatten =
          (rows.flatten.filter fun score => config.convictionThreshold ≤ score.conviction).map
            (e.trade config) := by
      simp only [List.filter_flatten, List.map_flatten, List.map_map, Function.comp_def]
    show Except.ok ((List.flatten _).map Prod.fst,
      buildMetrics ((List.flatten _).map Prod.fst) ((List.flatten _).map Prod.snd) _) =
        .ok (e.report config _)
    rw [hflat, BacktestEngine.report, List.map_map, List.map_map]
    rfl

theorem run_eq (e : BacktestEngine) (config : BacktestConfig)
    (hle : config.periodStart.instant ≤ config.periodEnd.instant) :
    e.run config = (e.report config <$> e.passing config.convictionThreshold
      (iterMinutes config.periodStart config.periodEnd)).mapError .scoring := by
  unfold BacktestEngine.run
  rw [if_neg (not_lt.mpr hle), runMinutes_eq]

/-- A run that returns reports the score rows that pass its threshold. -/
theorem run_eq_ok {e : BacktestEngine} {config : BacktestConfig}
    {result : List BacktestTradeResult × BacktestMetrics} :
    e.run config = .ok result ↔
      config.periodStart.instant ≤ config.periodEnd.instant ∧
      ∃ rows, e.passing config.convictionThreshold
          (iterMinutes config.periodStart config.periodEnd) = .ok rows ∧
        e.report config rows = result := by
  by_cases hle : config.periodStart.instant ≤ config.periodEnd.instant
  · rw [run_eq e config hle]
    simp only [hle, true_and]
    cases e.passing config.convictionThreshold
        (iterMinutes config.periodStart config.periodEnd) with
    | error err => simp [Except.mapError, Functor.map, Except.map]
    | ok rows => simp [Except.mapError, Functor.map, Except.map]
  · unfold BacktestEngine.run
    rw [if_pos (not_le.mp hle)]
    constructor
    · intro h
      cases h
    · rintro ⟨hle', -⟩
      exact absurd hle' hle

/-! ### One minute of one symbol -/

/-- A trade of which only the net result counts. -/
def tradeOf (net : ℚ) : BacktestTradeResult :=
  ⟨"bsc", "bsc_bnb", 29453780, 60, 0, net, 0, net, false⟩

/-- The digests of the texts that a run of `oneSymbol` takes in its minute. -/
def oneSymbolTexts : Texts where
  digest payload :=
    if payload = "BNB:2026-01-01T00:20:00+00:00" then 174160820388442
    else if payload = "bsc-mvp-v1:bsc_bnb:2026-01-01T00:20:00+00:00" then 256015283261313
    else if payload = "fail:bsc_bnb:2026-01-01T00:20:00+00:00" then 183027079507118
    else 0
  digest_lt payload := by
    split_ifs <;> norm_num
  isoformat _ := "2026-01-01T00:20:00+00:00"
  lower s := .ofList (s.toList.map Char.toLower)

def oneSymbol : BacktestEngine where
  texts := oneSymbolTexts
  pipelineSettings := ⟨150000, 12000, 15⟩
  chainId := "bsc"
  symbols := ["BNB"]
  scoringEngine := ⟨⟨85, 70, 55⟩, "bsc-mvp-v1"⟩

/-- The start of that minute. -/
def oneMinute : DateTime := ⟨29453780 * 60000000, 0⟩

/-- The default parameters, with a threshold that the score of the minute passes. -/
def oneMinuteConfig (tradeSizeUsd feeBps : ℚ) : BacktestConfig where
  chainId := "bsc"
  strategyVersion := "bsc-mvp-v1"
  periodStart := oneMinute
  periodEnd := oneMinute
  convictionThreshold := 50
  holdMinutes := 5
  stopLossPct := 6 / 100
  takeProfitPct := 12 / 100
  tradeSizeUsd
  feeBps
  slippageBps := 30
  gasUsdPerTrade := 15 / 10
  latencyBps := 5
  failProbability := 1 / 100

/-- The score of the minute. -/
def oneScore : ScoreRowInput where
  strategyVersion := "bsc-mvp-v1"
  chainId := "bsc"
  tokenId := "bsc_bnb"
  tsMinute := 29453780
  alphaScore := 1215507 / 12500
  momentumScore := 65
  smartMoneyScore := 37
  narrativeScore := 434 / 5
  riskPenalty := 389 / 25
  finalScore := 16288077 / 250000
  conviction := 27298817 / 500000
  confidence := 419 / 500
  tier := "C"
  reasonCodes := ["liquidity_ok", "positive_netflow", "buy_pressure", "low_conviction"]

theorem scoreRows_oneSymbol : oneSymbol.scoreRows 29453780 = .ok [oneScore] :=
  toOption_eq_some.mp (by decide +kernel)

/-- The run of the minute opens one trade. -/
theorem run_oneMinute (tradeSizeUsd feeBps : ℚ) :
    let config := oneMinuteConfig tradeSizeUsd feeBps
    let (row, cost) := oneSymbol.trade config oneScore
    oneSymbol.run config = .ok ([row], buildMetrics [row] [cost] tradeSizeUsd) := by
  intro config
  refine run_eq_ok.mpr ⟨le_rfl, [oneScore], ?_, rfl⟩
  have hminutes : iterMinutes config.periodStart config.periodEnd = [29453780] :=
    minutesFrom_self 29453780
  have hpasses : config.convictionThreshold ≤ oneScore.conviction := by
    show (50 : ℚ) ≤ 27298817 / 500000
    norm_num
  unfold BacktestEngine.passing
  rw [hminutes, mapM_eq_ok.mpr (.cons scoreRows_oneSymbol .nil)]
  show Except.ok ([oneScore].filter fun score => config.convictionThreshold ≤ score.conviction) = _
  simp [hpasses]

end ChainMonitor.Backtest
