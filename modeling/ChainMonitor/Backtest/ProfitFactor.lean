import ChainMonitor.Backtest.Metrics
import Mathlib.Data.Prod.Lex

/-! The profit factor when net results improve, and with it the place of a candidate in the ranking
of `BacktestParameterOptimizer.grid_search` of `backtest/optimizer.py`. -/

namespace ChainMonitor.Backtest

open ProofKit

structure SearchCandidate where
  convictionThreshold : ℚ
  stopLossPct : ℚ
  takeProfitPct : ℚ
  holdMinutes : ℤ
  pf : ℚ
  expectancy : ℚ
  netPnlUsd : ℚ
  passed : Bool

/-- The candidate of a trial. -/
def searchCandidate (config : BacktestConfig) (metrics : BacktestMetrics) : SearchCandidate where
  convictionThreshold := config.convictionThreshold
  stopLossPct := config.stopLossPct
  takeProfitPct := config.takeProfitPct
  holdMinutes := config.holdMinutes
  pf := metrics.pf
  expectancy := metrics.expectancy
  netPnlUsd := metrics.netPnlUsd
  passed := 12 / 10 < metrics.pf ∧ 0 < metrics.expectancy

/-- What the candidates are sorted by, the greatest first. -/
def SearchCandidate.key (c : SearchCandidate) : Bool ×ₗ ℚ ×ₗ ℚ ×ₗ ℚ :=
  toLex (c.passed, toLex (c.pf, toLex (c.expectancy, c.netPnlUsd)))

/-! ### Better net results -/

section Nets

variable {before after : List ℚ}

theorem grossProfit_eq (nets : List ℚ) : grossProfit nets = (nets.map fun v => max v 0).sum := by
  induction nets with
  | nil => rfl
  | cons v vs ih =>
    rw [List.map_cons, List.sum_cons, ← ih]
    by_cases hv : 0 < v
    · simp [grossProfit, wins, hv, max_eq_left hv.le]
    · simp [grossProfit, wins, hv, max_eq_right (not_lt.mp hv)]

theorem grossProfit_mono (h : List.Forall₂ (· ≤ ·) before after) :
    grossProfit before ≤ grossProfit after := by
  rw [grossProfit_eq, grossProfit_eq]
  apply List.Forall₂.sum_le_sum
  rw [List.forall₂_map_left_iff, List.forall₂_map_right_iff]
  exact h.imp fun v v' hv => max_le_max_right 0 hv

theorem sum_mono (h : List.Forall₂ (· ≤ ·) before after) : before.sum ≤ after.sum := h.sum_le_sum

theorem grossLoss_eq_sum (nets : List ℚ) : grossLoss nets = (nets.map fun v => max (-v) 0).sum := by
  rw [grossLoss_eq]
  induction nets with
  | nil => rfl
  | cons v vs ih =>
    rw [List.map_cons, List.sum_cons, ← ih]
    by_cases hv : v ≤ 0
    · simp [losses, hv]
      ring
    · simp [losses, hv, max_eq_right (neg_nonpos.mpr (not_le.mp hv).le)]

theorem grossLoss_anti (h : List.Forall₂ (· ≤ ·) before after) :
    grossLoss after ≤ grossLoss before := by
  rw [grossLoss_eq_sum, grossLoss_eq_sum]
  apply List.Forall₂.sum_le_sum
  rw [List.forall₂_map_left_iff, List.forall₂_map_right_iff]
  exact h.flip.imp fun v' v hv => max_le_max_right 0 (neg_le_neg hv)

/-- The second list loses nothing, and the first wins more than 99 times what it loses. -/
def BeyondSentinel (before after : List ℚ) : Prop :=
  grossLoss after = 0 ∧ 0 < grossLoss before ∧ 99 < grossProfit before / grossLoss before

/-- The profit factor falls only from a quotient above 99 to the value for no loss. -/
theorem profitFactor_le_iff (h : List.Forall₂ (· ≤ ·) before after) :
    profitFactor before ≤ profitFactor after ↔ ¬BeyondSentinel before after := by
  have hprofit := grossProfit_mono h
  have hloss := grossLoss_anti h
  unfold profitFactor BeyondSentinel
  by_cases hafter : 0 < grossLoss after
  · have hbefore : 0 < grossLoss before := hafter.trans_le hloss
    rw [if_pos hbefore, if_pos hafter]
    have hle : grossProfit before / grossLoss before ≤ grossProfit after / grossLoss after :=
      div_le_div₀ (grossProfit_nonneg after) hprofit hafter hloss
    exact ⟨fun _ hbeyond => hafter.ne' hbeyond.1, fun _ => hle⟩
  · have hzero : grossLoss after = 0 := le_antisymm (not_lt.mp hafter) (grossLoss_nonneg after)
    rw [if_neg hafter]
    by_cases hbefore : 0 < grossLoss before
    · rw [if_pos hbefore]
      exact ⟨fun hle hbeyond => absurd hbeyond.2.2 (not_lt.mpr hle),
        fun hbeyond => not_lt.mp fun hlt => hbeyond ⟨hzero, hbefore, hlt⟩⟩
    · rw [if_neg hbefore]
      exact ⟨fun _ hbeyond => hbefore hbeyond.2.1, fun _ => le_rfl⟩

end Nets

/-! ### Better trades -/

/-- The net results of the trades, in order. -/
def netValues (trades : List BacktestTradeResult) : List ℚ :=
  trades.map BacktestTradeResult.netPnlUsd

/-- Better trades have no smaller profit factor and no lower place in the ranking, unless they lose
nothing where the quotient was above 99. -/
theorem buildMetrics_pf_mono {before after : List BacktestTradeResult} (hne : before ≠ [])
    (h : List.Forall₂ (fun t t' => t.netPnlUsd ≤ t'.netPnlUsd) before after)
    (costs costs' : List TradeCost) (size size' : ℚ) :
    let metrics := buildMetrics before costs size
    let metrics' := buildMetrics after costs' size'
    (metrics.pf = roundTo 8 (profitFactor (netValues before)) ∧
      metrics'.pf = roundTo 8 (profitFactor (netValues after))) ∧
    (profitFactor (netValues before) ≤ profitFactor (netValues after) ↔
      ¬BeyondSentinel (netValues before) (netValues after)) ∧
    (¬BeyondSentinel (netValues before) (netValues after) → metrics.pf ≤ metrics'.pf ∧
      ∀ config, (searchCandidate config metrics).key ≤ (searchCandidate config metrics').key) := by
  intro metrics metrics'
  have hlen := h.length_eq
  have hne' : after ≠ [] := by
    intro hnil
    subst hnil
    exact hne (List.length_eq_zero_iff.mp hlen)
  have hm : metrics = _ := buildMetrics_eq costs size hne
  have hm' : metrics' = _ := buildMetrics_eq costs' size' hne'
  have hnets : List.Forall₂ (· ≤ ·) (netValues before) (netValues after) := by
    rw [netValues, netValues, List.forall₂_map_left_iff, List.forall₂_map_right_iff]
    exact h
  have hpf := profitFactor_le_iff hnets
  have hsum := sum_mono hnets
  refine ⟨by rw [hm, hm']; exact ⟨rfl, rfl⟩, hpf, fun hbeyond => ?_⟩
  have hle : metrics.pf ≤ metrics'.pf := by
    rw [hm, hm']
    exact roundTo_mono 8 (hpf.mpr hbeyond)
  have hexpectancy : metrics.expectancy ≤ metrics'.expectancy := by
    rw [hm, hm']
    apply roundTo_mono 8
    rw [hlen]
    exact div_le_div_of_nonneg_right hsum (Nat.cast_nonneg _)
  have hnet : metrics.netPnlUsd ≤ metrics'.netPnlUsd := by
    rw [hm, hm']
    exact roundTo_mono 8 hsum
  refine ⟨hle, fun config => ?_⟩
  have hpassed : (searchCandidate config metrics).passed ≤
      (searchCandidate config metrics').passed := by
    intro hp
    have hp := of_decide_eq_true hp
    exact decide_eq_true ⟨hp.1.trans_le hle, hp.2.trans_le hexpectancy⟩
  exact Prod.Lex.toLex_mono
    ⟨hpassed, Prod.Lex.toLex_mono ⟨hle, Prod.Lex.toLex_mono ⟨hexpectancy, hnet⟩⟩⟩

/-- The loss of the second trade becomes smaller. -/
theorem buildMetrics_pf_mono_two_trades :
    (buildMetrics [tradeOf 100, tradeOf (-50)] [] 1000).pf ≤
      (buildMetrics [tradeOf 100, tradeOf (-25)] [] 1000).pf := by
  have h : List.Forall₂ (fun t t' : BacktestTradeResult => t.netPnlUsd ≤ t'.netPnlUsd)
      [tradeOf 100, tradeOf (-50)] [tradeOf 100, tradeOf (-25)] :=
    .cons le_rfl (.cons (show (-50 : ℚ) ≤ -25 by norm_num) .nil)
  obtain ⟨-, -, hmono⟩ := buildMetrics_pf_mono (by simp) h [] [] 1000 1000
  refine (hmono ?_).1
  rintro ⟨hzero, -⟩
  exact absurd hzero (by decide +kernel)

/-- Without its loss of half a dollar, a run that won 200 times as much has a smaller profit
factor. -/
theorem profitFactor_decreases :
    ¬∀ before after : List BacktestTradeResult, before ≠ [] →
      List.Forall₂ (fun t t' : BacktestTradeResult => t.netPnlUsd ≤ t'.netPnlUsd) before after →
      profitFactor (netValues before) ≤ profitFactor (netValues after) := by
  intro hall
  have h := hall [tradeOf 100, tradeOf (-1 / 2)] [tradeOf 100, tradeOf 0] (by simp)
    (.cons le_rfl (.cons (show (-1 / 2 : ℚ) ≤ 0 by norm_num) .nil))
  exact absurd h (by decide +kernel)

end ChainMonitor.Backtest
