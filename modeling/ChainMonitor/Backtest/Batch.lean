import ChainMonitor.Backtest.WalkForward

/-! `BacktestBatchCenter.submit` of `backtest/batch.py`, the runners of `backtest/service.py` that a
batch goes through, and the Gate2 check of `backtest/validator.py`. -/

namespace ChainMonitor.Backtest

open ProofKit PipelineService Scoring Snapshots

/-! ### The Gate2 check -/

structure Gate2CheckResult where
  reproducibilityPassed : Bool
  costConsistencyPassed : Bool
  antiOverfittingPassed : Bool
  strategyThresholdPassed : Bool
  reproducibilityDiff : ℚ
  walkForward : WalkForwardReport
  metrics : BacktestMetrics
  passed : Bool
  deriving DecidableEq

/-- `Gate2Validator.check`. -/
def check (e : BacktestEngine) (config : BacktestConfig) : Except RunError Gate2CheckResult := do
  let (_, metricsA) ← e.run config
  let (_, metricsB) ← e.run config
  let reproducibilityDiff := |metricsA.netPnlUsd - metricsB.netPnlUsd|
  let reproducibilityPassed : Bool := reproducibilityDiff ≤ 1 / 10 ^ 9
  let cost := metricsA.costBreakdown
  let totalCost :=
    cost.totalFeeUsd + cost.totalSlippageUsd + cost.totalLatencyUsd + cost.totalGasUsd
  let costConsistencyPassed : Bool := metricsA.tradeCount = 0 ∨
    |totalCost - cost.totalCostUsd| ≤ 1 / 10 ^ 8 ∧ 0 < cost.totalCostUsd
  let walkForward ← walkForwardCheck e config
  let strategyThresholdPassed : Bool := 12 / 10 < metricsA.pf ∧ 0 < metricsA.expectancy
  return {
    reproducibilityPassed
    costConsistencyPassed
    antiOverfittingPassed := walkForward.passed
    strategyThresholdPassed
    reproducibilityDiff := roundTo 10 reproducibilityDiff
    walkForward
    metrics := metricsA
    passed := reproducibilityPassed && costConsistencyPassed && walkForward.passed &&
      strategyThresholdPassed }

/-! ### Runners -/

inductive RunStatus
  | success
  | failed
  deriving DecidableEq

structure BacktestRunReport where
  runId : String
  chainId : String
  strategyVersion : String
  periodStart : DateTime
  periodEnd : DateTime
  status : RunStatus
  metrics : BacktestMetrics
  gate2 : Option Gate2CheckResult
  deriving DecidableEq

/-- An `Exception` with its text. -/
structure RunnerException where
  text : String
  deriving DecidableEq

/-- A service, with what becomes of each of its calls. The calls of the `k`-th run of a batch may
end otherwise than those of another run of the same config. -/
structure BacktestService where
  chainId : String
  buildRunId : BacktestConfig → String
  engineRun :
    ℕ → BacktestConfig → Except RunnerException (List BacktestTradeResult × BacktestMetrics)
  validatorCheck : ℕ → BacktestConfig → Except RunnerException Gate2CheckResult
  saveBacktestRun :
    ℕ → String → BacktestConfig → RunStatus → BacktestMetrics → Except RunnerException Unit
  saveGate2CheckResult : ℕ → String → Gate2CheckResult → Except RunnerException Unit

namespace BacktestService

def runBacktest (s : BacktestService) (k : ℕ) (config : BacktestConfig) :
    Except RunnerException BacktestRunReport := do
  let (_, metrics) ← s.engineRun k config
  let runId := s.buildRunId config
  s.saveBacktestRun k runId config .success metrics
  return {
    runId
    chainId := config.chainId
    strategyVersion := config.strategyVersion
    periodStart := config.periodStart
    periodEnd := config.periodEnd
    status := .success
    metrics
    gate2 := none }

def runGate2Check (s : BacktestService) (k : ℕ) (config : BacktestConfig) :
    Except RunnerException BacktestRunReport := do
  let runId := s.buildRunId config
  let gate2 ← s.validatorCheck k config
  let status : RunStatus := if gate2.passed then .success else .failed
  s.saveBacktestRun k runId config status gate2.metrics
  s.saveGate2CheckResult k runId gate2
  return {
    runId
    chainId := config.chainId
    strategyVersion := config.strategyVersion
    periodStart := config.periodStart
    periodEnd := config.periodEnd
    status
    metrics := gate2.metrics
    gate2 := some gate2 }

end BacktestService

/-! ### Batches -/

inductive ItemStatus
  | success
  | failed
  deriving DecidableEq

structure BatchBacktestItem where
  itemId : String
  chainId : String
  status : ItemStatus
  result : Option BacktestRunReport
  error : Option String
  deriving DecidableEq

inductive JobStatus
  | running
  | success
  | partialFailed
  deriving DecidableEq

structure BatchBacktestJobReport where
  jobId : String
  chainId : String
  status : JobStatus
  total : ℕ
  succeeded : ℕ
  failed : ℕ
  items : List BatchBacktestItem
  deriving DecidableEq

/-- `_jobs`. -/
abbrev Jobs := Dict String BatchBacktestJobReport

abbrev Runner := ℕ → BacktestConfig → Except RunnerException BacktestRunReport

/-- The loop of `submit`. -/
structure Tally where
  items : List BatchBacktestItem
  succeeded : ℕ
  failed : ℕ

section Submit

variable (jobId chainId : String) (runner : Runner)

def Tally.step (t : Tally) (entry : BacktestConfig × ℕ) : Tally :=
  let itemId := jobId ++ "_" ++ toString (entry.2 + 1)
  match runner entry.2 entry.1 with
  | .ok result =>
    { t with
      succeeded := t.succeeded + 1
      items := t.items ++ [⟨itemId, chainId, .success, some result, none⟩] }
  | .error exc =>
    { t with
      failed := t.failed + 1
      items := t.items ++ [⟨itemId, chainId, .failed, none, some exc.text⟩] }

/-- The job, and the jobs after it. -/
def submit (jobs : Jobs) (configs : List BacktestConfig) : BatchBacktestJobReport × Jobs :=
  let job : BatchBacktestJobReport := ⟨jobId, chainId, .running, configs.length, 0, 0, []⟩
  let jobs := jobs.set jobId job
  let t := configs.zipIdx.foldl (Tally.step jobId chainId runner) ⟨[], 0, 0⟩
  let status := if t.failed = 0 then .success else .partialFailed
  let finalized := { job with
    status
    succeeded := t.succeeded
    failed := t.failed
    items := t.items }
  (finalized, jobs.set jobId finalized)

end Submit

namespace BacktestService

/-- A config of the batch, which takes the chain of the service. -/
def normalized (s : BacktestService) (config : BacktestConfig) : BacktestConfig :=
  { config with chainId := s.chainId }

def runBatchBacktest (s : BacktestService) (jobs : Jobs) (jobId : String)
    (configs : List BacktestConfig) (gate2Required : Bool) : BatchBacktestJobReport × Jobs :=
  let runner := if gate2Required then s.runGate2Check else s.runBacktest
  submit jobId s.chainId runner jobs (configs.map s.normalized)

end BacktestService

/-! ### Accounting -/

section Accounting

variable {jobId chainId : String} {runner : Runner}

/-- The item of the `k`-th config. -/
def itemOf (jobId chainId : String) (runner : Runner) (entry : BacktestConfig × ℕ) :
    BatchBacktestItem :=
  let itemId := jobId ++ "_" ++ toString (entry.2 + 1)
  match runner entry.2 entry.1 with
  | .ok result => ⟨itemId, chainId, .success, some result, none⟩
  | .error exc => ⟨itemId, chainId, .failed, none, some exc.text⟩

theorem Tally.step_eq (t : Tally) (entry : BacktestConfig × ℕ) :
    t.step jobId chainId runner entry =
      let item := itemOf jobId chainId runner entry
      ⟨t.items ++ [item], t.succeeded + if item.status = .success then 1 else 0,
        t.failed + if item.status = .failed then 1 else 0⟩ := by
  unfold Tally.step itemOf
  cases runner entry.2 entry.1 <;> rfl

/-- What the loop has counted is what its items say. -/
theorem foldl_step (t : Tally) (entries : List (BacktestConfig × ℕ)) :
    entries.foldl (Tally.step jobId chainId runner) t =
      let items := entries.map (itemOf jobId chainId runner)
      ⟨t.items ++ items, t.succeeded + items.countP (·.status = .success),
        t.failed + items.countP (·.status = .failed)⟩ := by
  induction entries generalizing t with
  | nil => simp
  | cons entry entries ih =>
    rw [List.foldl_cons, ih, Tally.step_eq]
    simp only [List.map_cons, List.countP_cons, decide_eq_true_eq, List.append_assoc,
      List.singleton_append, Tally.mk.injEq, true_and]
    omega

/-- A finished job of the configs: its counts add up to its items, one for each config and in the
order of the configs, and it is a success when none has failed. -/
structure Accounted (runner : Runner) (configs : List BacktestConfig)
    (job : BatchBacktestJobReport) : Prop where
  total : job.total = configs.length
  items : job.items = configs.zipIdx.map (itemOf job.jobId job.chainId runner)
  length : job.items.length = job.total
  succeeded : job.succeeded = job.items.countP (·.status = .success)
  failed : job.failed = job.items.countP (·.status = .failed)
  sum : job.succeeded + job.failed = job.total
  status : job.status = if job.failed = 0 then .success else .partialFailed

theorem countP_status (items : List BatchBacktestItem) :
    items.countP (·.status = .success) + items.countP (·.status = .failed) = items.length := by
  induction items with
  | nil => rfl
  | cons item items ih =>
    cases hstatus : item.status with
    | success => simp [hstatus, ← ih]; omega
    | failed => simp [hstatus, ← ih]; omega

theorem submit_accounted (jobs : Jobs) (configs : List BacktestConfig) :
    Accounted runner configs (submit jobId chainId runner jobs configs).1 := by
  unfold submit
  rw [foldl_step]
  have hsum := countP_status (configs.zipIdx.map (itemOf jobId chainId runner))
  rw [List.length_map, List.length_zipIdx] at hsum
  exact {
    total := rfl
    items := List.nil_append _
    length := by simp
    succeeded := Nat.zero_add _
    failed := Nat.zero_add _
    sum := by simpa using hsum
    status := rfl }

theorem getElem?_submit (jobs : Jobs) (configs : List BacktestConfig) (k : ℕ) :
    (submit jobId chainId runner jobs configs).1.items[k]? =
      configs[k]?.map fun config => itemOf jobId chainId runner (config, k) := by
  have hitems : (submit jobId chainId runner jobs configs).1.items =
      configs.zipIdx.map (itemOf jobId chainId runner) := (submit_accounted jobs configs).items
  rw [hitems, List.getElem?_map, List.getElem?_zipIdx, Option.map_map, Nat.zero_add]
  rfl

/-- The item of a config that its runner returns for is a success, and no other is. -/
theorem itemOf_status (entry : BacktestConfig × ℕ) :
    (itemOf jobId chainId runner entry).status = .success ↔
      ∃ report, runner entry.2 entry.1 = .ok report := by
  unfold itemOf
  cases runner entry.2 entry.1 with
  | ok report => simp
  | error exc => simp

end Accounting

/-! ### The gate -/

variable {s : BacktestService} {jobs : Jobs} {jobId : String} {configs : List BacktestConfig}

/-- The `k`-th Gate2 check and the saves after it return, the check with the result `gate2`. -/
def GateReturns (s : BacktestService) (k : ℕ) (config : BacktestConfig) (gate2 : Gate2CheckResult) :
    Prop :=
  let runId := s.buildRunId config
  s.validatorCheck k config = .ok gate2 ∧
    s.saveBacktestRun k runId config (if gate2.passed then .success else .failed) gate2.metrics =
      .ok () ∧
    s.saveGate2CheckResult k runId gate2 = .ok ()

/-- The runner of a gated batch returns whether or not the check has passed. -/
theorem runGate2Check_returns {k : ℕ} {config : BacktestConfig} :
    (∃ report, s.runGate2Check k config = .ok report) ↔ ∃ gate2, GateReturns s k config gate2 := by
  unfold BacktestService.runGate2Check GateReturns
  simp only [bind_eq_ok]
  constructor
  · rintro ⟨report, gate2, hcheck, _, hrun, _, hgate2, -⟩
    exact ⟨gate2, hcheck, hrun, hgate2⟩
  · rintro ⟨gate2, hcheck, hrun, hgate2⟩
    exact ⟨_, gate2, hcheck, (), hrun, (), hgate2, rfl⟩

/-- Every item of a gated batch that is counted as succeeded has passed its Gate2 check. -/
def GateReflected (s : BacktestService) (configs : List BacktestConfig)
    (job : BatchBacktestJobReport) : Prop :=
  ∀ (k : ℕ) config item, configs[k]? = some config → job.items[k]? = some item →
    item.status = .success → ∃ gate2, s.validatorCheck k config = .ok gate2 ∧ gate2.passed = true

/-- A gated batch reflects the gate exactly when no run returns from a check that has not passed. -/
theorem gateReflected_iff :
    GateReflected s (configs.map s.normalized) (s.runBatchBacktest jobs jobId configs true).1 ↔
      ∀ (k : ℕ) config gate2, configs[k]? = some config →
        GateReturns s k (s.normalized config) gate2 → gate2.passed = true := by
  have hitem : ∀ k : ℕ, (s.runBatchBacktest jobs jobId configs true).1.items[k]? =
      (configs.map s.normalized)[k]?.map fun config =>
        itemOf jobId s.chainId s.runGate2Check (config, k) := getElem?_submit jobs _
  constructor
  · intro hreflected k config gate2 hconfig hreturns
    have hnormalized : (configs.map s.normalized)[k]? = some (s.normalized config) := by
      rw [List.getElem?_map, hconfig, Option.map_some]
    have hsuccess : (itemOf jobId s.chainId s.runGate2Check (s.normalized config, k)).status =
        .success := (itemOf_status _).mpr (runGate2Check_returns.mpr ⟨gate2, hreturns⟩)
    have hk := hitem k
    rw [hnormalized, Option.map_some] at hk
    obtain ⟨gate2', hcheck, hpassed⟩ := hreflected k _ _ hnormalized hk hsuccess
    cases hcheck.symm.trans hreturns.1
    exact hpassed
  · intro hgate k config item hconfig hk hsuccess
    rw [hitem k, hconfig, Option.map_some] at hk
    cases hk
    obtain ⟨gate2, hreturns⟩ := runGate2Check_returns.mp ((itemOf_status _).mp hsuccess)
    rw [List.getElem?_map] at hconfig
    obtain ⟨original, horiginal, rfl⟩ := Option.map_eq_some_iff.mp hconfig
    exact ⟨gate2, hreturns.1, hgate k original gate2 horiginal hreturns⟩

/-- The accounts of a batch are right whatever becomes of its runs, and those of a gated batch
reflect the gate exactly when no run returns from a check that has not passed. -/
theorem batch_gate_iff (s : BacktestService) (jobs : Jobs) (jobId : String)
    (configs : List BacktestConfig) :
    (∀ gate2Required, Accounted (if gate2Required then s.runGate2Check else s.runBacktest)
      (configs.map s.normalized) (s.runBatchBacktest jobs jobId configs gate2Required).1) ∧
    (GateReflected s (configs.map s.normalized) (s.runBatchBacktest jobs jobId configs true).1 ↔
      ∀ (k : ℕ) config gate2, configs[k]? = some config →
        GateReturns s k (s.normalized config) gate2 → gate2.passed = true) :=
  ⟨fun _ => submit_accounted jobs _, gateReflected_iff⟩

/-! ### A batch of one minute -/

def RunError.text : RunError → String
  | .valueError message => message
  | .scoring (.valueError message) => message
  | .scoring (.keyError key) => "'" ++ key ++ "'"

/-- The service of an engine whose saves all return. -/
def serviceOf (e : BacktestEngine) : BacktestService where
  chainId := e.chainId
  buildRunId _ := "bt_8ed32a1916b62f363909f90b"
  engineRun _ config := (e.run config).mapError fun err => ⟨err.text⟩
  validatorCheck _ config := (check e config).mapError fun err => ⟨err.text⟩
  saveBacktestRun _ _ _ _ _ := .ok ()
  saveGate2CheckResult _ _ _ := .ok ()

/-- A period of one minute is too short for the walk-forward check, and fails the gate. -/
theorem check_oneMinute (tradeSizeUsd feeBps : ℚ) :
    ∃ gate2, check oneSymbol (oneMinuteConfig tradeSizeUsd feeBps) = .ok gate2 ∧
      gate2.passed = false := by
  have hwalk : walkForwardCheck oneSymbol (oneMinuteConfig tradeSizeUsd feeBps) =
      .ok ⟨0, [], [], 0, false⟩ := if_pos (by show (0 : ℤ) ≤ 120000000; omega)
  unfold check
  rw [run_oneMinute, hwalk]
  refine ⟨_, rfl, ?_⟩
  rw [Bool.and_false, Bool.false_and]

/-- A batch of one config counts the failed gate as a success. -/
theorem failed_gate_counts :
    ¬∀ (s : BacktestService) (jobs : Jobs) (jobId : String) (configs : List BacktestConfig),
      GateReflected s (configs.map s.normalized)
        (s.runBatchBacktest jobs jobId configs true).1 := by
  intro hall
  have hreflected := hall (serviceOf oneSymbol) Dict.empty "btjob_1" [oneMinuteConfig 1000 20]
  have hgate := gateReflected_iff.mp hreflected
  obtain ⟨gate2, hcheck, hfailed⟩ := check_oneMinute 1000 20
  have hreturns : GateReturns (serviceOf oneSymbol) 0 (oneMinuteConfig 1000 20) gate2 := by
    refine ⟨?_, rfl, rfl⟩
    show (check oneSymbol (oneMinuteConfig 1000 20)).mapError _ = _
    rw [hcheck]
    rfl
  have hpassed := hgate 0 _ gate2 rfl hreturns
  rw [hfailed] at hpassed
  cases hpassed

end ChainMonitor.Backtest
