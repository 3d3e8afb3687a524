import ChainMonitor.App.PipelineService
import ChainMonitor.App.Scheduler
import ChainMonitor.ProofKit.Pool
import ChainMonitor.ProofKit.PyFloat

/-! How `app/main.py` hands out its services: the lookups of the endpoints, and the startup of the
schedulers in `lifespan`, with the settings of `shared/config` that these read. -/

namespace ChainMonitor.Wiring

open ProofKit

/-! ### Settings -/

structure ChainSettings where
  bscChainId : String := "bsc"
  baseChainId : String := "base"
  ethChainId : String := "eth"
  solChainId : String := "sol"

def ChainSettings.supportedChains (s : ChainSettings) : List String :=
  [s.bscChainId, s.baseChainId, s.ethChainId, s.solChainId]

structure PipelineSettings where
  runTimeoutSeconds : Float := 30.0
  fetchTimeoutSeconds : Float := 20.0
  featureTimeoutSeconds : Float := 10.0
  scoreTimeoutSeconds : Float := 10.0
  persistTimeoutSeconds : Float := 20.0
  candidateQueryCacheTtlSeconds : Float := 3.0
  replayRequireApiKey : Bool := true
  replayRateLimitPerMinute : ℤ := 6
  replayRateLimitBurst : ℤ := 2
  replayMaxInFlightPerChain : ℤ := 1
  replayMaxLookbackMinutes : ℤ := 1440
  replayMaxFutureSkewSeconds : ℤ := 60
  replayChainAllowlist : String := ""
  schedulerEnabled : Bool := false
  schedulerIntervalSeconds : ℤ := 60
  schedulerInitialDelaySeconds : ℤ := 5
  schedulerChains : String := "bsc,base,eth,sol"
  schedulerStartupJitterSeconds : ℤ := 7
  schedulerCatchupWindows : ℤ := 3
  minLiquidityUsd : Float := 150000.0
  minVolume5mUsd : Float := 12000.0
  minTx1m : ℤ := 15
  tierAThreshold : Float := 85.0
  tierBThreshold : Float := 70.0
  tierCThreshold : Float := 55.0

structure Settings where
  chains : ChainSettings
  pipeline : PipelineSettings

/-- The items of a list that is separated by commas, each one once. -/
def items (raw : String) : List String :=
  let requested := ((raw.toList.splitOn ',').map PipelineService.strip).filter (· ≠ [])
  (Dict.ofPairs (requested.map fun item => (String.ofList item, ()))).keys

/-- `enabled_scheduler_chains`. -/
def Settings.enabledSchedulerChains (s : Settings) : List String :=
  (items s.pipeline.schedulerChains).filter (· ∈ s.chains.supportedChains)

/-- `replay_allowed_chains`. -/
def Settings.replayAllowedChains (s : Settings) : List String :=
  if PipelineService.strip s.pipeline.replayChainAllowlist.toList = [] then s.chains.supportedChains
  else (items s.pipeline.replayChainAllowlist).filter (· ∈ s.chains.supportedChains)

/-- The value of a setting. -/
inductive Setting
  | float (x : Float)
  | bool (b : Bool)
  | int (n : ℤ)
  | str (s : String)
  | chains (ids : List String)

/-- `getattr(settings, name)` of a `PipelineSettings`. It defines no other settings. -/
def Settings.attribute (s : Settings) : String → Except PyError Setting
  | "run_timeout_seconds" => .ok (.float s.pipeline.runTimeoutSeconds)
  | "fetch_timeout_seconds" => .ok (.float s.pipeline.fetchTimeoutSeconds)
  | "feature_timeout_seconds" => .ok (.float s.pipeline.featureTimeoutSeconds)
  | "score_timeout_seconds" => .ok (.float s.pipeline.scoreTimeoutSeconds)
  | "persist_timeout_seconds" => .ok (.float s.pipeline.persistTimeoutSeconds)
  | "candidate_query_cache_ttl_seconds" => .ok (.float s.pipeline.candidateQueryCacheTtlSeconds)
  | "replay_require_api_key" => .ok (.bool s.pipeline.replayRequireApiKey)
  | "replay_rate_limit_per_minute" => .ok (.int s.pipeline.replayRateLimitPerMinute)
  | "replay_rate_limit_burst" => .ok (.int s.pipeline.replayRateLimitBurst)
  | "replay_max_in_flight_per_chain" => .ok (.int s.pipeline.replayMaxInFlightPerChain)
  | "replay_max_lookback_minutes" => .ok (.int s.pipeline.replayMaxLookbackMinutes)
  | "replay_max_future_skew_seconds" => .ok (.int s.pipeline.replayMaxFutureSkewSeconds)
  | "replay_chain_allowlist" => .ok (.str s.pipeline.replayChainAllowlist)
  | "scheduler_enabled" => .ok (.bool s.pipeline.schedulerEnabled)
  | "scheduler_interval_seconds" => .ok (.int s.pipeline.schedulerIntervalSeconds)
  | "scheduler_initial_delay_seconds" => .ok (.int s.pipeline.schedulerInitialDelaySeconds)
  | "scheduler_chains" => .ok (.str s.pipeline.schedulerChains)
  | "scheduler_startup_jitter_seconds" => .ok (.int s.pipeline.schedulerStartupJitterSeconds)
  | "scheduler_catchup_windows" => .ok (.int s.pipeline.schedulerCatchupWindows)
  | "min_liquidity_usd" => .ok (.float s.pipeline.minLiquidityUsd)
  | "min_volume_5m_usd" => .ok (.float s.pipeline.minVolume5mUsd)
  | "min_tx_1m" => .ok (.int s.pipeline.minTx1m)
  | "tier_a_threshold" => .ok (.float s.pipeline.tierAThreshold)
  | "tier_b_threshold" => .ok (.float s.pipeline.tierBThreshold)
  | "tier_c_threshold" => .ok (.float s.pipeline.tierCThreshold)
  | "replay_allowed_chains" => .ok (.chains s.replayAllowedChains)
  | "enabled_scheduler_chains" => .ok (.chains s.enabledSchedulerChains)
  | _ => .error .attributeError

/-- A setting that is used as a number of windows. -/
def Setting.toInt : Setting → Except PyError ℤ
  | .int n => .ok n
  | .bool b => .ok b.toNat
  | .float _ | .str _ | .chains _ => .error .typeError

/-! ### Lookups -/

structure HttpException where
  statusCode : ℕ
  detail : String
  deriving DecidableEq

/-- What both lookups raise for a chain that is not supported. The text is that of a tuple of ids
without quotes. -/
def unsupported (s : Settings) (chainId : String) : HttpException where
  statusCode := 400
  detail := "unsupported chain_id '" ++ chainId ++ "', supported=('" ++
    "', '".intercalate s.chains.supportedChains ++ "')"

/-- `_get_pipeline_service`. What looks the service up stands behind the `raise`, in the branch of
the chains that are not supported. -/
def getPipelineService (s : Settings) (services : Pool String) (chainId : String) :
    Except HttpException (Option ℕ) × Pool String :=
  if chainId ∉ s.chains.supportedChains then (.error (unsupported s chainId), services)
  else (.ok none, services)

/-- `_get_backtest_service`. -/
def getBacktestService (s : Settings) (services : Pool String) (chainId : String) :
    Except HttpException (Option ℕ) × Pool String :=
  if chainId ∉ s.chains.supportedChains then (.error (unsupported s chainId), services)
  else
    let (service, services) := services.getOrCreate chainId
    (.ok (some service), services)

/-! ### Startup -/

structure ChainPipelineScheduler where
  chainId : String
  pipeline : ℕ
  initialDelaySeconds : ℤ
  startupJitterSeconds : ℤ
  config : Scheduler.Config

/-- `ChainPipelineScheduler.__init__`. The settings are those of the pipeline. -/
def ChainPipelineScheduler.init (s : Settings) (chainId : String) (pipeline : Option ℕ)
    (intervalSeconds initialDelaySeconds startupJitterSeconds : ℤ) :
    Except PyError ChainPipelineScheduler := do
  -- `None` has no `settings`
  let some service := pipeline | throw .attributeError
  let catchup ← (← s.attribute "catchup_windows").toInt
  return {
    chainId
    pipeline := service
    initialDelaySeconds := max 0 initialDelaySeconds
    startupJitterSeconds := max 0 startupJitterSeconds
    config := .init intervalSeconds catchup }

/-- A lookup: what it replied, and the registry before and after it. -/
structure Lookup where
  chainId : String
  reply : Except HttpException (Option ℕ)
  before : Pool String
  after : Pool String

/-- The registries of the module, and the lookups so far. Each startup has left its schedulers. -/
structure App where
  pipelineServices : Pool String
  backtestServices : Pool String
  schedulers : Dict String ChainPipelineScheduler
  pipelineLookups : List Lookup
  backtestLookups : List Lookup
  startups : List (Dict String ChainPipelineScheduler)

def App.start : App := ⟨.empty, .empty, Dict.empty, [], [], []⟩

def App.lookupPipeline (s : Settings) (app : App) (chainId : String) : App :=
  let (reply, services) := getPipelineService s app.pipelineServices chainId
  { app with
    pipelineServices := services
    pipelineLookups := app.pipelineLookups ++ [⟨chainId, reply, app.pipelineServices, services⟩] }

def App.lookupBacktest (s : Settings) (app : App) (chainId : String) : App :=
  let (reply, services) := getBacktestService s app.backtestServices chainId
  { app with
    backtestServices := services
    backtestLookups := app.backtestLookups ++ [⟨chainId, reply, app.backtestServices, services⟩] }

/-- One round of the loop of `lifespan`. An exception is logged. -/
def App.startScheduler (s : Settings) (app : App) (chainId : String) : App :=
  let scheduler := do
    let pipeline ← (getPipelineService s app.pipelineServices chainId).1.toOption
    (ChainPipelineScheduler.init s chainId pipeline s.pipeline.schedulerIntervalSeconds
      s.pipeline.schedulerInitialDelaySeconds s.pipeline.schedulerStartupJitterSeconds).toOption
  let app := app.lookupPipeline s chainId
  { app with schedulers := app.schedulers.setSome chainId scheduler }

/-- The startup in `lifespan`. -/
def App.startup (s : Settings) (app : App) : App :=
  let app := if s.pipeline.schedulerEnabled then
      s.enabledSchedulerChains.foldl (App.startScheduler s) app
    else app
  { app with startups := app.startups ++ [app.schedulers] }

/-- What looks services up: an endpoint, for the chain of its path, or the startup. -/
inductive Act
  | pipelineEndpoint (chainId : String)
  | backtestEndpoint (chainId : String)
  | startup

def App.step (s : Settings) (app : App) : Act → App
  | .pipelineEndpoint chainId => app.lookupPipeline s chainId
  | .backtestEndpoint chainId => app.lookupBacktest s chainId
  | .startup => app.startup s

def run (s : Settings) (acts : List Act) : App := acts.foldl (App.step s) .start

/-! ### When the services are wired -/

/-- The lookups reply with one service for each supported chain, and refuse the other chains, which
leaves the registry. -/
structure Served (s : Settings) (lookups : List Lookup) : Prop where
  supported : ∀ l ∈ lookups, l.chainId ∈ s.chains.supportedChains → ∃ n, l.reply = .ok (some n)
  same : ∀ l ∈ lookups, ∀ l' ∈ lookups, ∀ n n', l.reply = .ok (some n) → l'.reply = .ok (some n') →
    (n = n' ↔ l.chainId = l'.chainId)
  refused : ∀ l ∈ lookups, l.chainId ∉ s.chains.supportedChains →
    l.reply = .error (unsupported s l.chainId) ∧ l.after = l.before

/-- Both kinds of lookups serve the chains, and each startup with schedulers enabled leaves one for
each enabled chain. -/
structure Wired (s : Settings) (app : App) : Prop where
  pipeline : Served s app.pipelineLookups
  backtest : Served s app.backtestLookups
  schedulers : s.pipeline.schedulerEnabled = true → ∀ started ∈ app.startups, ∀ chainId,
    (started.get? chainId).isSome = true ↔ chainId ∈ s.enabledSchedulerChains

/-- The act looks up the pipeline service of a supported chain. -/
def Act.needsPipeline (s : Settings) : Act → Prop
  | .pipelineEndpoint chainId => chainId ∈ s.chains.supportedChains
  | .backtestEndpoint _ => False
  | .startup => s.pipeline.schedulerEnabled = true ∧ s.enabledSchedulerChains ≠ []

variable {s : Settings} {app : App} {chainId : String}

theorem getPipelineService_of_supported (services : Pool String)
    (h : chainId ∈ s.chains.supportedChains) :
    getPipelineService s services chainId = (.ok none, services) := if_neg (not_not.mpr h)

theorem getPipelineService_of_unsupported (services : Pool String)
    (h : chainId ∉ s.chains.supportedChains) :
    getPipelineService s services chainId = (.error (unsupported s chainId), services) := if_pos h

theorem getBacktestService_of_supported (services : Pool String)
    (h : chainId ∈ s.chains.supportedChains) :
    getBacktestService s services chainId =
      (.ok (some (services.getOrCreate chainId).1), (services.getOrCreate chainId).2) :=
  if_neg (not_not.mpr h)

theorem getBacktestService_of_unsupported (services : Pool String)
    (h : chainId ∉ s.chains.supportedChains) :
    getBacktestService s services chainId = (.error (unsupported s chainId), services) := if_pos h

/-- A scheduler reads a setting that `PipelineSettings` does not define. -/
theorem init_raises (s : Settings) (chainId : String) (pipeline : Option ℕ)
    (intervalSeconds initialDelaySeconds startupJitterSeconds : ℤ) :
    ChainPipelineScheduler.init s chainId pipeline intervalSeconds initialDelaySeconds
      startupJitterSeconds = .error .attributeError := by
  cases pipeline with
  | none => rfl
  | some service => rfl

/-! ### The backtest lookups -/

/-- The replies so far are those of the registry. -/
def Kept (s : Settings) (services : Pool String) (lookups : List Lookup) : Prop :=
  ∀ l ∈ lookups,
    (l.chainId ∈ s.chains.supportedChains ∧
      ∃ n, l.reply = .ok (some n) ∧ services.entries.get? l.chainId = some n) ∨
    (l.chainId ∉ s.chains.supportedChains ∧ l.reply = .error (unsupported s l.chainId) ∧
      l.after = l.before)

theorem Kept.served {services : Pool String} {lookups : List Lookup}
    (h : Kept s services lookups) : Served s lookups := by
  refine ⟨?_, ?_, ?_⟩
  · intro l hl hsupported
    rcases h l hl with ⟨-, n, hn, -⟩ | ⟨hnot, -⟩
    · exact ⟨n, hn⟩
    · exact absurd hsupported hnot
  · intro l hl l' hl' n n' hn hn'
    rcases h l hl with ⟨-, m, hm, hget⟩ | ⟨-, herr, -⟩
    · rcases h l' hl' with ⟨-, m', hm', hget'⟩ | ⟨-, herr, -⟩
      · cases hn.symm.trans hm
        cases hn'.symm.trans hm'
        exact Pool.eq_iff hget hget'
      · cases hn'.symm.trans herr
    · cases hn.symm.trans herr
  · intro l hl hnot
    rcases h l hl with ⟨hsupported, -⟩ | ⟨-, herr, hafter⟩
    · exact absurd hsupported hnot
    · exact ⟨herr, hafter⟩

theorem kept_lookupBacktest (h : Kept s app.backtestServices app.backtestLookups)
    (chainId : String) :
    Kept s (app.lookupBacktest s chainId).backtestServices
      (app.lookupBacktest s chainId).backtestLookups := by
  unfold App.lookupBacktest
  by_cases hs : chainId ∈ s.chains.supportedChains
  · rw [getBacktestService_of_supported _ hs]
    intro l hl
    rcases List.mem_append.mp hl with hl | hl
    · rcases h l hl with ⟨hsupported, n, hn, hget⟩ | hrefused
      · exact .inl ⟨hsupported, n, hn, Pool.get?_getOrCreate_of_some hget chainId⟩
      · exact .inr hrefused
    · rw [List.mem_singleton.mp hl]
      exact .inl ⟨hs, _, rfl, Pool.get?_getOrCreate_self _ _⟩
  · rw [getBacktestService_of_unsupported _ hs]
    intro l hl
    rcases List.mem_append.mp hl with hl | hl
    · exact h l hl
    · rw [List.mem_singleton.mp hl]
      exact .inr ⟨hs, rfl, rfl⟩

/-! ### The pipeline lookups -/

/-- A lookup as `_get_pipeline_service` makes it. -/
def Lookup.IsPipeline (s : Settings) (l : Lookup) : Prop :=
  l.after = l.before ∧ l.reply = (getPipelineService s l.before l.chainId).1

theorem served_iff_of_isPipeline {lookups : List Lookup} (h : ∀ l ∈ lookups, l.IsPipeline s) :
    Served s lookups ↔ ∀ l ∈ lookups, l.chainId ∉ s.chains.supportedChains := by
  have hreply : ∀ l ∈ lookups, l.chainId ∈ s.chains.supportedChains → l.reply = .ok none := by
    intro l hl hs
    rw [(h l hl).2, getPipelineService_of_supported _ hs]
  have herror : ∀ l ∈ lookups, l.chainId ∉ s.chains.supportedChains →
      l.reply = .error (unsupported s l.chainId) := by
    intro l hl hs
    rw [(h l hl).2, getPipelineService_of_unsupported _ hs]
  constructor
  · intro hserved l hl hs
    obtain ⟨n, hn⟩ := hserved.supported l hl hs
    cases hn.symm.trans (hreply l hl hs)
  · intro hnone
    refine ⟨fun l hl hs => absurd hs (hnone l hl), ?_, fun l hl hs => ⟨herror l hl hs, (h l hl).1⟩⟩
    intro l hl l' _ n n' hn
    cases hn.symm.trans (herror l hl (hnone l hl))

theorem getPipelineService_snd (s : Settings) (services : Pool String) (chainId : String) :
    (getPipelineService s services chainId).2 = services := by
  unfold getPipelineService
  split
  · rfl
  · rfl

/-- The pipeline services of `chains` have been looked up, and no scheduler has started. -/
structure LookedUp (s : Settings) (chains : List String) (app app' : App) : Prop where
  backtestServices : app'.backtestServices = app.backtestServices
  backtestLookups : app'.backtestLookups = app.backtestLookups
  startups : app'.startups = app.startups
  schedulers : app'.schedulers = app.schedulers
  pipelineLookups : ∃ more, app'.pipelineLookups = app.pipelineLookups ++ more ∧
    more.map Lookup.chainId = chains ∧ ∀ l ∈ more, l.IsPipeline s

theorem LookedUp.refl (s : Settings) (app : App) : LookedUp s [] app app :=
  ⟨rfl, rfl, rfl, rfl, [], by simp, rfl, by simp⟩

theorem LookedUp.trans {chains chains' : List String} {app₁ app₂ app₃ : App}
    (h : LookedUp s chains app₁ app₂) (h' : LookedUp s chains' app₂ app₃) :
    LookedUp s (chains ++ chains') app₁ app₃ := by
  obtain ⟨more, hmore, hchains, hall⟩ := h.pipelineLookups
  obtain ⟨more', hmore', hchains', hall'⟩ := h'.pipelineLookups
  refine ⟨h'.backtestServices.trans h.backtestServices, h'.backtestLookups.trans h.backtestLookups,
    h'.startups.trans h.startups, h'.schedulers.trans h.schedulers, more ++ more', ?_, ?_, ?_⟩
  · rw [hmore', hmore, List.append_assoc]
  · rw [List.map_append, hchains, hchains']
  · intro l hl
    rcases List.mem_append.mp hl with hl | hl
    · exact hall l hl
    · exact hall' l hl

theorem lookedUp_lookupPipeline (s : Settings) (app : App) (chainId : String) :
    LookedUp s [chainId] app (app.lookupPipeline s chainId) := by
  refine ⟨rfl, rfl, rfl, rfl, _, rfl, rfl, ?_⟩
  intro l hl
  rw [List.mem_singleton.mp hl]
  exact ⟨getPipelineService_snd s _ _, rfl⟩

theorem lookedUp_startScheduler (s : Settings) (app : App) (chainId : String) :
    LookedUp s [chainId] app (app.startScheduler s chainId) := by
  have h := lookedUp_lookupPipeline s app chainId
  refine ⟨h.backtestServices, h.backtestLookups, h.startups, ?_, h.pipelineLookups⟩
  unfold App.startScheduler
  cases (getPipelineService s app.pipelineServices chainId).1 with
  | error e => rfl
  | ok pipeline =>
    simp only [init_raises, Except.toOption]
    rfl

theorem lookedUp_startSchedulers (s : Settings) (chains : List String) (app : App) :
    LookedUp s chains app (chains.foldl (App.startScheduler s) app) := by
  induction chains generalizing app with
  | nil => exact LookedUp.refl s app
  | cons chainId chains ih =>
    exact (lookedUp_startScheduler s app chainId).trans (ih (app.startScheduler s chainId))

/-! ### Runs -/

theorem supported_of_enabled (h : chainId ∈ s.enabledSchedulerChains) :
    chainId ∈ s.chains.supportedChains := of_decide_eq_true (List.mem_filter.mp h).2

/-- The chains whose pipeline service an act looks up. -/
def Act.pipelineChains (s : Settings) : Act → List String
  | .pipelineEndpoint chainId => [chainId]
  | .backtestEndpoint _ => []
  | .startup => if s.pipeline.schedulerEnabled then s.enabledSchedulerChains else []

theorem needsPipeline_iff (act : Act) :
    act.needsPipeline s ↔ ∃ chainId ∈ act.pipelineChains s, chainId ∈ s.chains.supportedChains := by
  cases act with
  | pipelineEndpoint chainId => simp [Act.needsPipeline, Act.pipelineChains]
  | backtestEndpoint chainId => simp [Act.needsPipeline, Act.pipelineChains]
  | startup =>
    cases hs : s.pipeline.schedulerEnabled with
    | false => simp [Act.needsPipeline, Act.pipelineChains, hs]
    | true =>
      simp only [Act.needsPipeline, Act.pipelineChains, hs, if_true, true_and]
      constructor
      · intro hne
        obtain ⟨chainId, hmem⟩ := List.exists_mem_of_ne_nil _ hne
        exact ⟨chainId, hmem, supported_of_enabled hmem⟩
      · rintro ⟨chainId, hmem, -⟩
        exact List.ne_nil_of_mem hmem

/-- What is known after the acts. No scheduler ever starts. -/
structure After (s : Settings) (acts : List Act) (app : App) : Prop where
  kept : Kept s app.backtestServices app.backtestLookups
  isPipeline : ∀ l ∈ app.pipelineLookups, l.IsPipeline s
  chains : app.pipelineLookups.map Lookup.chainId = acts.flatMap (Act.pipelineChains s)
  schedulers : app.schedulers = Dict.empty
  startups : ∀ started ∈ app.startups, .startup ∈ acts ∧ started = Dict.empty

theorem After.lookedUp {acts : List Act} {app' : App} (h : After s acts app) {act : Act}
    (hact : LookedUp s (act.pipelineChains s) app app') : After s (acts ++ [act]) app' := by
  obtain ⟨more, hmore, hchains, hall⟩ := hact.pipelineLookups
  refine ⟨?_, ?_, ?_, hact.schedulers.trans h.schedulers, ?_⟩
  · rw [hact.backtestServices, hact.backtestLookups]
    exact h.kept
  · intro l hl
    rw [hmore] at hl
    rcases List.mem_append.mp hl with hl | hl
    · exact h.isPipeline l hl
    · exact hall l hl
  · rw [hmore, List.map_append, h.chains, hchains, List.flatMap_append, List.flatMap_singleton]
  · intro started hstarted
    rw [hact.startups] at hstarted
    obtain ⟨hmem, hempty⟩ := h.startups started hstarted
    exact ⟨List.mem_append_left _ hmem, hempty⟩

theorem After.step {acts : List Act} (h : After s acts app) (act : Act) :
    After s (acts ++ [act]) (app.step s act) := by
  cases act with
  | pipelineEndpoint chainId => exact h.lookedUp (lookedUp_lookupPipeline s app chainId)
  | backtestEndpoint chainId =>
    refine ⟨kept_lookupBacktest h.kept chainId, h.isPipeline, ?_, h.schedulers, ?_⟩
    · rw [List.flatMap_append, List.flatMap_singleton]
      exact h.chains.trans (List.append_nil _).symm
    · intro started hstarted
      obtain ⟨hmem, hempty⟩ := h.startups started hstarted
      exact ⟨List.mem_append_left _ hmem, hempty⟩
  | startup =>
    have hloop : LookedUp s (Act.pipelineChains s .startup) app
        (if s.pipeline.schedulerEnabled then
          s.enabledSchedulerChains.foldl (App.startScheduler s) app else app) := by
      unfold Act.pipelineChains
      cases s.pipeline.schedulerEnabled with
      | true => exact lookedUp_startSchedulers s _ app
      | false => exact LookedUp.refl s app
    have hafter := h.lookedUp hloop
    refine ⟨hafter.kept, hafter.isPipeline, hafter.chains, hafter.schedulers, ?_⟩
    intro started hstarted
    rcases List.mem_append.mp hstarted with hstarted | hstarted
    · exact hafter.startups started hstarted
    · rw [List.mem_singleton.mp hstarted]
      exact ⟨by simp, hafter.schedulers⟩

theorem after_run (s : Settings) (acts : List Act) : After s acts (run s acts) := by
  induction acts using List.reverseRecOn with
  | nil => exact ⟨fun l hl => absurd hl List.not_mem_nil, fun l hl => absurd hl List.not_mem_nil,
      rfl, rfl, fun l hl => absurd hl List.not_mem_nil⟩
  | append_singleton acts act ih =>
    rw [run, List.foldl_append]
    exact ih.step act

/-- In every run of endpoint calls and startups the services are wired exactly when none of them
needs the pipeline service of a supported chain. No scheduler can be constructed, on any service. -/
theorem wired_iff (s : Settings) (acts : List Act) :
    (Wired s (run s acts) ↔ ∀ act ∈ acts, ¬act.needsPipeline s) ∧
      ∀ chainId pipeline intervalSeconds initialDelaySeconds startupJitterSeconds,
        ChainPipelineScheduler.init s chainId pipeline intervalSeconds initialDelaySeconds
          startupJitterSeconds = .error .attributeError := by
  refine ⟨?_, init_raises s⟩
  have hafter := after_run s acts
  have hserved : Served s (run s acts).pipelineLookups ↔ ∀ act ∈ acts, ¬act.needsPipeline s := by
    have hchains : (∀ l ∈ (run s acts).pipelineLookups, l.chainId ∉ s.chains.supportedChains) ↔
        ∀ chainId ∈ acts.flatMap (Act.pipelineChains s), chainId ∉ s.chains.supportedChains := by
      rw [← hafter.chains]
      simp only [List.forall_mem_map]
    rw [served_iff_of_isPipeline hafter.isPipeline, hchains]
    simp only [List.forall_mem_flatMap, needsPipeline_iff, not_exists, not_and]
  constructor
  · intro hwired
    exact hserved.mp hwired.pipeline
  · intro hacts
    refine ⟨hserved.mpr hacts, hafter.kept.served, ?_⟩
    intro henabled started hstarted chainId
    obtain ⟨hstartup, rfl⟩ := hafter.startups started hstarted
    have hnone : s.enabledSchedulerChains = [] := by
      by_contra hne
      exact hacts .startup hstartup ⟨henabled, hne⟩
    simp [hnone]

/-- The first request for the candidates of a supported chain gets no service. -/
theorem lookup_gives_none : ¬Wired ⟨{}, {}⟩ (run ⟨{}, {}⟩ [.pipelineEndpoint "bsc"]) := by
  intro hwired
  obtain ⟨n, hn⟩ := hwired.pipeline.supported _ List.mem_cons_self (by decide)
  cases hn

end ChainMonitor.Wiring
