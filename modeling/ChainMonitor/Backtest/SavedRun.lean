import ChainMonitor.Backtest.Metrics

/-! The row of `backtest_metrics` that `PipelineRepository.save_backtest_run` writes, and the ranges
of its columns. -/

namespace ChainMonitor.Backtest

open ProofKit PipelineService Scoring Snapshots

/-- A column of type `NUMERIC(precision, scale)`. -/
structure Numeric where
  precision : ℕ
  scale : ℕ

/-- The values in the range of a column. -/
def Numeric.Holds (c : Numeric) (v : ℚ) : Prop := |v| < 10 ^ (c.precision - c.scale)

instance (c : Numeric) (v : ℚ) : Decidable (c.Holds v) := inferInstanceAs (Decidable (_ < _))

/-- The columns of `backtest_metrics` and the values that `save_backtest_run` writes to them. -/
def metricsPayload (metrics : BacktestMetrics) : List (Numeric × ℚ) :=
  let tradeCount := max 1 metrics.tradeCount
  let calmarLike :=
    if 0 < metrics.maxDdPct then metrics.netPnlUsd / metrics.maxDdPct else metrics.netPnlUsd
  let capacityScore := max 0 (min 1 (1 - metrics.maxDdPct))
  [ (⟨24, 10⟩, metrics.netPnlUsd),
    (⟨10, 6⟩, metrics.pf),
    (⟨10, 6⟩, metrics.winRate),
    (⟨10, 6⟩, metrics.expectancy),
    (⟨10, 6⟩, metrics.maxDdPct),
    (⟨10, 6⟩, metrics.expectancy / 100),
    (⟨10, 6⟩, calmarLike),
    (⟨10, 6⟩, tradeCount),
    (⟨10, 6⟩, capacityScore) ]

/-- Every value of the row is in the range of its column. -/
def Stores (metrics : BacktestMetrics) : Prop := ∀ c ∈ metricsPayload metrics, c.1.Holds c.2

instance (metrics : BacktestMetrics) : Decidable (Stores metrics) :=
  inferInstanceAs (Decidable (∀ c ∈ _, _))

/-- The least number that eight digits round up to `10 ^ 4`. -/
def ceiling : ℚ := (10 ^ 12 - 1 / 2) / 10 ^ 8

/-- The net results whose metrics are in range: fewer than `10 ^ 4` of them, whose profit is not too
large a multiple of their loss, whose mean is below the ceiling, whose equity never falls by that
multiple of its peak, and whose sum is small next to the deepest fall. Where every fall rounds to
zero, the sum itself is small. -/
structure Storable (size : ℚ) (nets : List ℚ) : Prop where
  count : nets.length < 10 ^ 4
  profit : grossLoss nets ≠ 0 → grossProfit nets < ceiling * grossLoss nets
  mean : |nets.sum| < ceiling * max 1 nets.length
  falls : ∀ d ∈ drawdowns size nets, d < ceiling
  calmar : |nets.sum| < 10 ^ 4 ∧ (∀ d ∈ drawdowns size nets, roundTo 8 d = 0) ∨
    ∃ d ∈ drawdowns size nets, |nets.sum| < 10 ^ 4 * roundTo 8 d

theorem round_holds {q : ℚ} : Numeric.Holds ⟨10, 6⟩ (roundTo 8 q) ↔ |q| < ceiling := by
  have h := abs_roundTo_lt_iff 8 q (show (10 ^ 12 : ℤ) % 2 = 0 by norm_num)
  have hpow : (((10 ^ 12 : ℤ) : ℚ) / 10 ^ 8) = 10 ^ 4 := by norm_num
  rw [hpow] at h
  push_cast at h
  exact h

theorem ceiling_gt : 1000 < ceiling := by norm_num [ceiling]

section Columns

variable {size : ℚ} {nets : List ℚ}

theorem pf_holds : Numeric.Holds ⟨10, 6⟩ (roundTo 8 (profitFactor nets)) ↔
    (grossLoss nets ≠ 0 → grossProfit nets < ceiling * grossLoss nets) := by
  rw [round_holds, profitFactor]
  rcases (grossLoss_nonneg nets).eq_or_lt with hzero | hpos
  · rw [← hzero, if_neg (lt_irrefl 0)]
    norm_num [ceiling]
  · rw [if_pos hpos, abs_of_nonneg (div_nonneg (grossProfit_nonneg nets) hpos.le),
      div_lt_iff₀ hpos]
    exact ⟨fun h _ => h, fun h => h hpos.ne'⟩

theorem mean_holds {n : ℕ} (hn : 0 < n) :
    Numeric.Holds ⟨10, 6⟩ (roundTo 8 (nets.sum / n)) ↔ |nets.sum| < ceiling * n := by
  have hpos : (0 : ℚ) < n := by exact_mod_cast hn
  rw [round_holds, abs_div, abs_of_pos hpos, div_lt_iff₀ hpos]

theorem netPnl_holds {n : ℕ} (hmean : |nets.sum| < ceiling * n) (hn : n < 10 ^ 4) :
    Numeric.Holds ⟨24, 10⟩ nets.sum := by
  have hcast : (n : ℚ) < 10 ^ 4 := by exact_mod_cast hn
  have hmul : ceiling * n ≤ ceiling * 10 ^ 4 :=
    mul_le_mul_of_nonneg_left hcast.le (by norm_num [ceiling])
  have hbound : ceiling * 10 ^ 4 < 10 ^ 14 := by norm_num [ceiling]
  exact hmean.trans (hmul.trans_lt hbound)

theorem winRate_holds {w n : ℕ} (hle : w ≤ n) (hn : 0 < n) :
    Numeric.Holds ⟨10, 6⟩ (roundTo 8 (w / n)) := by
  have hpos : (0 : ℚ) < n := by exact_mod_cast hn
  have hle' : (w : ℚ) / n ≤ 1 := (div_le_one hpos).mpr (by exact_mod_cast hle)
  rw [round_holds, abs_of_nonneg (by positivity)]
  have := ceiling_gt
  linarith

theorem maxDrawdownPct_nonneg : 0 ≤ maxDrawdownPct nets size := by
  rw [maxDrawdownPct_eq]
  exact le_foldl_max 0 List.mem_cons_self

theorem maxDd_holds : Numeric.Holds ⟨10, 6⟩ (roundTo 8 (maxDrawdownPct nets size)) ↔
    ∀ d ∈ drawdowns size nets, d < ceiling := by
  rw [round_holds, abs_of_nonneg maxDrawdownPct_nonneg, maxDrawdownPct_eq]
  constructor
  · intro h d hd
    exact (le_foldl_max d (List.mem_cons_of_mem _ hd)).trans_lt h
  · intro h
    rcases List.mem_cons.mp (foldl_max_mem (drawdowns size nets) 0) with hm | hm
    · rw [hm]
      have := ceiling_gt
      linarith
    · exact h _ hm

theorem sharpeLike_holds {q : ℚ} (h : Numeric.Holds ⟨10, 6⟩ q) :
    Numeric.Holds ⟨10, 6⟩ (q / 100) := by
  unfold Numeric.Holds at *
  rw [abs_div]
  norm_num at *
  linarith

theorem calmarLike_holds :
    Numeric.Holds ⟨10, 6⟩
        (if 0 < roundTo 8 (maxDrawdownPct nets size) then
          nets.sum / roundTo 8 (maxDrawdownPct nets size) else nets.sum) ↔
      |nets.sum| < 10 ^ 4 ∧ (∀ d ∈ drawdowns size nets, roundTo 8 d = 0) ∨
        ∃ d ∈ drawdowns size nets, |nets.sum| < 10 ^ 4 * roundTo 8 d := by
  have hzero : roundTo 8 0 = 0 := roundTo_of_isDecimal (isDecimal_zero 8)
  have hle : ∀ d ∈ drawdowns size nets, roundTo 8 d ≤ roundTo 8 (maxDrawdownPct nets size) := by
    intro d hd
    apply roundTo_mono
    rw [maxDrawdownPct_eq]
    exact le_foldl_max d (List.mem_cons_of_mem _ hd)
  have hnonneg : ∀ d ∈ drawdowns size nets, 0 ≤ roundTo 8 d := by
    intro d hd
    rw [← hzero]
    exact roundTo_mono 8 (falls_nonneg _ _ _ d hd)
  unfold Numeric.Holds
  split
  · rename_i hpos
    have hmem : maxDrawdownPct nets size ∈ drawdowns size nets := by
      rcases List.mem_cons.mp (foldl_max_mem (drawdowns size nets) 0) with hm | hm
      · rw [maxDrawdownPct_eq, hm, hzero] at hpos
        exact absurd hpos (lt_irrefl 0)
      · rwa [maxDrawdownPct_eq]
    rw [abs_div, abs_of_pos hpos, div_lt_iff₀ hpos]
    constructor
    · intro h
      exact .inr ⟨_, hmem, h⟩
    · rintro (⟨-, hall⟩ | ⟨d, hd, hlt⟩)
      · exact absurd (hall _ hmem) hpos.ne'
      · exact hlt.trans_le (mul_le_mul_of_nonneg_left (hle d hd) (by norm_num))
  · rename_i hpos
    have hall : ∀ d ∈ drawdowns size nets, roundTo 8 d = 0 := fun d hd =>
      le_antisymm ((hle d hd).trans (not_lt.mp hpos)) (hnonneg d hd)
    constructor
    · intro h
      exact .inl ⟨h, hall⟩
    · rintro (⟨h, -⟩ | ⟨d, hd, hlt⟩)
      · exact h
      · rw [hall d hd, mul_zero] at hlt
        exact absurd hlt (abs_nonneg _).not_gt

theorem capacityScore_holds (dd : ℚ) : Numeric.Holds ⟨10, 6⟩ (max 0 (min 1 (1 - dd))) := by
  have hlow : (0 : ℚ) ≤ max 0 (min 1 (1 - dd)) := le_max_left _ _
  have hhigh : max 0 (min 1 (1 - dd)) ≤ (1 : ℚ) := max_le zero_le_one (min_le_left _ _)
  show |max 0 (min 1 (1 - dd))| < (10 : ℚ) ^ 4
  rw [abs_of_nonneg hlow]
  linarith

theorem turnover_holds (n : ℕ) : Numeric.Holds ⟨10, 6⟩ (max 1 n : ℕ) ↔ n < 10 ^ 4 := by
  show |((max 1 n : ℕ) : ℚ)| < (10 : ℚ) ^ 4 ↔ n < 10 ^ 4
  rw [abs_of_nonneg (Nat.cast_nonneg _)]
  have hcast : ((max 1 n : ℕ) : ℚ) < 10 ^ 4 ↔ max 1 n < 10 ^ 4 := by
    exact_mod_cast Iff.rfl
  rw [hcast]
  omega

end Columns

theorem stores_nil (costs : List TradeCost) (size : ℚ) : Stores (buildMetrics [] costs size) := by
  intro c hc
  have hzero : ∀ n : Numeric, n.Holds 0 := by
    intro n
    show |(0 : ℚ)| < _
    rw [abs_zero]
    positivity
  simp only [metricsPayload, buildMetrics, ↓reduceIte, List.mem_cons, List.not_mem_nil,
    or_false] at hc
  rcases hc with rfl | rfl | rfl | rfl | rfl | rfl | rfl | rfl | rfl
  · exact hzero _
  · exact hzero _
  · exact hzero _
  · exact hzero _
  · exact hzero _
  · simpa using hzero ⟨10, 6⟩
  · simpa using hzero ⟨10, 6⟩
  · exact (turnover_holds 0).mpr (by norm_num)
  · exact capacityScore_holds 0

theorem storable_nil (size : ℚ) : Storable size [] where
  count := by norm_num
  profit := fun h => absurd (by simp [grossLoss, losses]) h
  mean := by norm_num [ceiling]
  falls := fun d hd => absurd hd (by simp [drawdowns, Backtest.falls])
  calmar := .inl ⟨by norm_num, fun d hd => absurd hd (by simp [drawdowns, Backtest.falls])⟩

/-- The row of a trade list whose net results have eight digits. -/
theorem stores_iff {trades : List BacktestTradeResult} (costs : List TradeCost) (size : ℚ)
    (hdec : ∀ t ∈ trades, IsDecimal 8 t.netPnlUsd) :
    Stores (buildMetrics trades costs size) ↔
      Storable size (trades.map BacktestTradeResult.netPnlUsd) := by
  by_cases hne : trades = []
  · subst hne
    exact ⟨fun _ => storable_nil size, fun _ => stores_nil costs size⟩
  · have hn : 0 < trades.length := List.length_pos_iff.mpr hne
    have hsum : roundTo 8 (trades.map BacktestTradeResult.netPnlUsd).sum =
        (trades.map BacktestTradeResult.netPnlUsd).sum :=
      roundTo_of_isDecimal (IsDecimal.sum_map hdec)
    have hmax : max 1 trades.length = trades.length := by omega
    have hmap : (trades.map BacktestTradeResult.netPnlUsd).length = trades.length :=
      List.length_map _
    have hmetrics := buildMetrics_eq costs size hne
    dsimp only at hmetrics
    rw [Stores, hmetrics]
    generalize trades.map BacktestTradeResult.netPnlUsd = nets at *
    have hwins : (wins nets).length ≤ trades.length := by
      have := length_wins_add_losses nets
      omega
    simp only [metricsPayload, List.forall_mem_cons, List.not_mem_nil, false_implies, implies_true,
      and_true, hsum, pf_holds, mean_holds hn, maxDd_holds, calmarLike_holds, turnover_holds,
      winRate_holds hwins hn, capacityScore_holds, true_and]
    constructor
    · rintro ⟨-, hpf, hmean, hdd, -, hcalmar, hcount⟩
      exact ⟨by rwa [hmap], hpf, by rwa [hmap, hmax], hdd, hcalmar⟩
    · rintro ⟨hcount, hpf, hmean, hdd, hcalmar⟩
      rw [hmap] at hcount
      rw [hmap, hmax] at hmean
      refine ⟨netPnl_holds hmean hcount, hpf, hmean, hdd,
        sharpeLike_holds ((mean_holds hn).mpr hmean), hcalmar, hcount⟩

theorem isDecimal_of_run {e : BacktestEngine} {config : BacktestConfig}
    {trades : List BacktestTradeResult} {metrics : BacktestMetrics}
    (h : e.run config = .ok (trades, metrics)) : ∀ t ∈ trades, IsDecimal 8 t.netPnlUsd := by
  obtain ⟨-, rows, -, hreport⟩ := run_eq_ok.mp h
  cases hreport
  intro t ht
  obtain ⟨score, -, rfl⟩ := List.mem_map.mp ht
  exact isDecimal_roundTo 8 _

/-- The metrics of a run are in range exactly when its net results are storable. -/
theorem run_stores_iff {e : BacktestEngine} {config : BacktestConfig}
    {trades : List BacktestTradeResult} {metrics : BacktestMetrics}
    (h : e.run config = .ok (trades, metrics)) :
    Stores metrics ↔
      Storable config.tradeSizeUsd (trades.map BacktestTradeResult.netPnlUsd) := by
  have hdec := isDecimal_of_run h
  obtain ⟨-, rows, -, hreport⟩ := run_eq_ok.mp h
  cases hreport
  exact stores_iff _ _ hdec

theorem run_stores_iff_thousand :
    let config := oneMinuteConfig 1000 20
    ∃ trades metrics, oneSymbol.run config = .ok (trades, metrics) ∧ trades.length = 1 ∧
      (Stores metrics ↔
        Storable config.tradeSizeUsd (trades.map BacktestTradeResult.netPnlUsd)) :=
  ⟨_, _, run_oneMinute 1000 20, rfl, run_stores_iff (run_oneMinute 1000 20)⟩

/-- A trade of a million that wins ten per cent has an expectancy out of range. -/
theorem million_overflows :
    ¬∀ (e : BacktestEngine) (config : BacktestConfig) (trades : List BacktestTradeResult)
      (metrics : BacktestMetrics), e.run config = .ok (trades, metrics) → Stores metrics := by
  intro hall
  have hstores := hall _ _ _ _ (run_oneMinute 1000000 20)
  exact absurd hstores (by decide +kernel)

end ChainMonitor.Backtest
