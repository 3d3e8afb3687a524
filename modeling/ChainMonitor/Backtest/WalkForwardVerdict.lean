import ChainMonitor.Backtest.WalkForward

/-! The verdict of `_walk_forward_check` over an engine of any behaviour: which windows it vouches
for. -/

namespace ChainMonitor.Backtest

open ProofKit

section AnyEngine

variable (run : BacktestConfig → Except RunError BacktestMetrics) (config : BacktestConfig)

/-- The metrics of a window with each threshold. -/
def variantMetrics (window : DateTime × DateTime) : Except RunError (List BacktestMetrics) :=
  (thresholdVariants config).mapM fun threshold => run (withWindow config window threshold)

/-- What `_walk_forward_check` makes of the metrics of the windows. -/
def walkForwardReport (metrics : List (List BacktestMetrics)) : WalkForwardReport :=
  let pfValues := metrics.map fun variants => mean (variants.map BacktestMetrics.pf)
  let expectancyValues := metrics.map fun variants =>
    mean (variants.map BacktestMetrics.expectancy)
  let activePfValues := metrics.filterMap activePf
  let score := stability activePfValues
  { windowCount := (windows config).length
    pfValues := pfValues.map (roundTo 8)
    expectancyValues := expectancyValues.map (roundTo 8)
    parameterStabilityScore := roundTo 8 score
    passed := activePfValues ≠ [] ∧ (∀ v ∈ activePfValues, 1 < v) ∧ 4 / 10 ≤ score }

/-- `_walk_forward_check`, when `run` gives the metrics of a config. -/
def walkForwardVerdict : Except RunError WalkForwardReport := do
  if totalSpan config ≤ 120000000 then
    return ⟨0, [], [], 0, false⟩
  let metrics ← (windows config).mapM (variantMetrics run config)
  return walkForwardReport config metrics

end AnyEngine

theorem walkForwardCheck_eq (e : BacktestEngine) (config : BacktestConfig) :
    walkForwardCheck e config = walkForwardVerdict (fun c => Prod.snd <$> e.run c) config := rfl

/-- The variants of a window that have trades. -/
def traded (variants : List BacktestMetrics) : List BacktestMetrics :=
  variants.filter fun m => 0 < m.tradeCount

/-- The mean profit factor of the variants that have trades. -/
def tradedPf (variants : List BacktestMetrics) : ℚ :=
  mean ((traded variants).map BacktestMetrics.pf)

theorem activePf_eq_some {variants : List BacktestMetrics} {v : ℚ} :
    activePf variants = some v ↔ traded variants ≠ [] ∧ tradedPf variants = v := by
  unfold activePf
  by_cases h : traded variants = []
  · have hmap : (variants.filter fun m => 0 < m.tradeCount).map BacktestMetrics.pf = [] := by
      rw [List.map_eq_nil_iff]
      exact h
    simp [hmap, h]
  · have hmap : (variants.filter fun m => 0 < m.tradeCount).map BacktestMetrics.pf ≠ [] := by
      rw [ne_eq, List.map_eq_nil_iff]
      exact h
    simp only [if_neg hmap, Option.some.injEq]
    exact ⟨fun hv => ⟨h, hv⟩, fun hv => hv.2⟩

/-- The profit factors that the verdict reads are those of the windows that have trades. -/
theorem mem_activePfValues {metrics : List (List BacktestMetrics)} {v : ℚ} :
    v ∈ metrics.filterMap activePf ↔
      ∃ variants ∈ metrics, traded variants ≠ [] ∧ tradedPf variants = v := by
  simp only [List.mem_filterMap, activePf_eq_some]

theorem walkForwardReport_passed (config : BacktestConfig) (metrics : List (List BacktestMetrics)) :
    (walkForwardReport config metrics).passed = true ↔
      (∃ variants ∈ metrics, traded variants ≠ []) ∧
      (∀ variants ∈ metrics, traded variants ≠ [] → 1 < tradedPf variants) ∧
      4 / 10 ≤ stability (metrics.filterMap activePf) := by
  have hne : metrics.filterMap activePf ≠ [] ↔ ∃ variants ∈ metrics, traded variants ≠ [] := by
    constructor
    · intro hne
      obtain ⟨v, hv⟩ := List.exists_mem_of_ne_nil _ hne
      obtain ⟨variants, hmem, htraded, -⟩ := mem_activePfValues.mp hv
      exact ⟨variants, hmem, htraded⟩
    · rintro ⟨variants, hmem, htraded⟩
      exact List.ne_nil_of_mem (mem_activePfValues.mpr ⟨variants, hmem, htraded, rfl⟩)
  have hall : (∀ v ∈ metrics.filterMap activePf, 1 < v) ↔
      ∀ variants ∈ metrics, traded variants ≠ [] → 1 < tradedPf variants := by
    constructor
    · intro h variants hmem htraded
      exact h _ (mem_activePfValues.mpr ⟨variants, hmem, htraded, rfl⟩)
    · intro h v hv
      obtain ⟨variants, hmem, htraded, rfl⟩ := mem_activePfValues.mp hv
      exact h variants hmem htraded
  rw [← hne, ← hall]
  exact decide_eq_true_iff

/-- A period of four minutes. -/
def fourMinuteConfig : BacktestConfig :=
  { oneMinuteConfig 1000 20 with periodEnd := oneMinute.add 240000000 }

/-- An engine that opens two trades in each period that ends when that one does, and else none. -/
def lateTrades (config : BacktestConfig) : Except RunError BacktestMetrics :=
  if config.periodEnd = fourMinuteConfig.periodEnd then
    .ok (buildMetrics [tradeOf 100, tradeOf (-50)] [] 1000)
  else .ok (buildMetrics [] [] 1000)

theorem passed_lateTrades :
    (walkForwardVerdict lateTrades fourMinuteConfig).toOption.any (·.passed) = true := by
  decide +kernel

end ChainMonitor.Backtest
