import ChainMonitor.Backtest.Metrics

/-! `Gate2Validator._walk_forward_check` of `backtest/validator.py`: the period of a config is split
in two windows, and each is run with two thresholds. -/

namespace ChainMonitor.Backtest

open ProofKit PipelineService Scoring Snapshots

structure WalkForwardReport where
  windowCount : ℕ
  pfValues : List ℚ
  expectancyValues : List ℚ
  parameterStabilityScore : ℚ
  passed : Bool
  deriving DecidableEq

/-! ### Windows -/

/-- `a / b` for a `timedelta` and an integer: the nearest microsecond, and of two the even one. -/
def divideAndRound (a b : ℤ) : ℤ :=
  let q := a / b
  let r := 2 * (a % b)
  if b < r ∨ r = b ∧ q % 2 = 1 then q + 1 else q

/-- `t + timedelta(microseconds=micros)`. -/
def DateTime.add (t : DateTime) (micros : ℤ) : DateTime := { t with instant := t.instant + micros }

def totalSpan (config : BacktestConfig) : ℤ := config.periodEnd.instant - config.periodStart.instant

def splitPoint (config : BacktestConfig) : DateTime :=
  config.periodStart.add (divideAndRound (totalSpan config) 2)

/-- A config with the period of a window and a threshold. -/
def withWindow (config : BacktestConfig) (window : DateTime × DateTime) (threshold : ℚ) :
    BacktestConfig :=
  { config with
    periodStart := window.1
    periodEnd := window.2
    convictionThreshold := threshold }

def windows (config : BacktestConfig) : List (DateTime × DateTime) :=
  [ (config.periodStart, splitPoint config),
    ((splitPoint config).add 60000000, config.periodEnd) ]

def thresholdVariants (config : BacktestConfig) : List ℚ :=
  [config.convictionThreshold, min 95 (config.convictionThreshold + 2)]

def mean (vs : List ℚ) : ℚ := vs.sum / vs.length

/-- The profit factors of the variants that have trades, on average. -/
def activePf (variants : List BacktestMetrics) : Option ℚ :=
  let active := (variants.filter fun m => 0 < m.tradeCount).map BacktestMetrics.pf
  if active = [] then none else some (mean active)

def stability (activePfValues : List ℚ) : ℚ :=
  match activePfValues with
  | [] => 0
  | v :: vs =>
    let pfMin := vs.foldl min v
    let pfMax := vs.foldl max v
    if pfMax ≤ 0 then 0 else max 0 (1 - (pfMax - pfMin) / pfMax)

def walkForwardCheck (e : BacktestEngine) (config : BacktestConfig) :
    Except RunError WalkForwardReport := do
  if totalSpan config ≤ 120000000 then
    return ⟨0, [], [], 0, false⟩
  let metrics ← (windows config).mapM fun window => (thresholdVariants config).mapM fun threshold =>
    Prod.snd <$> e.run (withWindow config window threshold)
  let pfValues := metrics.map fun variants => mean (variants.map BacktestMetrics.pf)
  let expectancyValues := metrics.map fun variants =>
    mean (variants.map BacktestMetrics.expectancy)
  let activePfValues := metrics.filterMap activePf
  let score := stability activePfValues
  return {
    windowCount := (windows config).length
    pfValues := pfValues.map (roundTo 8)
    expectancyValues := expectancyValues.map (roundTo 8)
    parameterStabilityScore := roundTo 8 score
    passed := activePfValues ≠ [] ∧ (∀ v ∈ activePfValues, 1 < v) ∧ 4 / 10 ≤ score }

/-! ### Minutes -/

theorem mem_minutesFrom {cursor stop m : ℤ} :
    m ∈ minutesFrom cursor stop ↔ cursor ≤ m ∧ m ≤ stop := by
  fun_induction minutesFrom cursor stop with
  | case1 cursor hle ih =>
    rw [List.mem_cons, ih]
    omega
  | case2 cursor hgt =>
    simp only [List.not_mem_nil, false_iff]
    omega

/-- Minutes up to one, and from the next one on. -/
theorem minutesFrom_append {cursor stop m : ℤ} (hlow : cursor ≤ m + 1) (hhigh : m ≤ stop) :
    minutesFrom cursor m ++ minutesFrom (m + 1) stop = minutesFrom cursor stop := by
  fun_induction minutesFrom cursor m with
  | case1 cursor hle ih =>
    rw [List.cons_append, ih (by omega), minutesFrom.eq_def cursor stop, if_pos (by omega)]
  | case2 cursor hgt =>
    have hcursor : cursor = m + 1 := by omega
    rw [hcursor, List.nil_append]

theorem divideAndRound_two (a : ℤ) :
    a ≤ 2 * divideAndRound a 2 + 1 ∧ 2 * divideAndRound a 2 ≤ a + 1 := by
  unfold divideAndRound
  dsimp only
  split
  · omega
  · omega

theorem passing_append (e : BacktestEngine) (threshold : ℚ) (before after : List ℤ) :
    e.passing threshold (before ++ after) = do
      let rows ← e.passing threshold before
      let rows' ← e.passing threshold after
      return rows ++ rows' := by
  unfold BacktestEngine.passing
  rw [List.mapM_append]
  cases before.mapM e.scoreRows with
  | error err => rfl
  | ok rows =>
    cases after.mapM e.scoreRows with
    | error err => rfl
    | ok rows' =>
      show Except.ok _ = Except.ok _
      rw [List.flatten_append, List.filter_append]

/-- Every tick finds its features, so that scoring raises only without a strategy version. -/
theorem score_isOk {engine : ScoringEngine} (hversion : engine.strategyVersion ≠ "")
    (ticks : List MarketTickInput) :
    ∃ rows, engine.score ticks (buildFeatures ticks) none = .ok rows := by
  have hfeature : ∀ tick ∈ ticks, ∃ row, ∃ feature,
      featureOf (buildFeatures ticks) tick.tokenId = some feature ∧
        row = engine.scoreRow (engine.resolve none) tick feature := by
    intro tick htick
    have hsome : (featureOf (buildFeatures ticks) tick.tokenId).isSome := by
      rw [featureOf, List.find?_isSome]
      have hmem : buildFeature tick ∈ (buildFeatures ticks).reverse :=
        List.mem_reverse.mpr (List.mem_map_of_mem htick)
      exact ⟨buildFeature tick, hmem, by simp [buildFeature]⟩
    obtain ⟨feature, hfeature⟩ := Option.isSome_iff_exists.mp hsome
    exact ⟨_, feature, hfeature, rfl⟩
  obtain ⟨rows, hrows⟩ := exists_forall₂.mpr hfeature
  exact ⟨rows, ScoringEngine.score_eq_ok.mpr ⟨hversion, hrows⟩⟩

/-- With a strategy version the loop returns, whatever the minutes. -/
theorem runMinutes_isOk {e : BacktestEngine} (hversion : e.scoringEngine.strategyVersion ≠ "")
    (config : BacktestConfig) (minutes : List ℤ) :
    ∃ result, e.runMinutes config minutes = .ok result := by
  have hrows : ∀ ts ∈ minutes, ∃ rows, e.scoreRows ts = .ok rows := by
    intro ts _
    unfold BacktestEngine.scoreRows
    dsimp only
    split
    · exact ⟨[], rfl⟩
    · exact score_isOk hversion _
  obtain ⟨rows, hall⟩ := exists_forall₂.mpr hrows
  rw [runMinutes_eq]
  unfold BacktestEngine.passing
  rw [mapM_eq_ok.mpr hall]
  exact ⟨_, rfl⟩

/-- The trades of minutes in a row are those of the first, followed by those of the others. -/
theorem runMinutes_append (e : BacktestEngine) (config : BacktestConfig) (before after : List ℤ) :
    Prod.fst <$> e.runMinutes config (before ++ after) = (do
      let first ← Prod.fst <$> e.runMinutes config before
      let second ← Prod.fst <$> e.runMinutes config after
      return first ++ second) := by
  rw [runMinutes_eq, runMinutes_eq, runMinutes_eq, passing_append]
  cases e.passing config.convictionThreshold before with
  | error err => rfl
  | ok rows =>
    cases e.passing config.convictionThreshold after with
    | error err => rfl
    | ok rows' =>
      show Except.ok _ = Except.ok _
      rw [BacktestEngine.report, List.map_append]
      rfl

end ChainMonitor.Backtest
