import ChainMonitor.ProofKit.Json
import ChainMonitor.ProofKit.Registry
import ChainMonitor.Resilience.BackoffSchedule
import ChainMonitor.Resilience.CircuitBreakerRuns
import ChainMonitor.Resilience.RateLimiter
import Mathlib.Algebra.Order.Group.Abs

/-! The three registries of `shared/resilience`, which every executor and every HTTP client of the
process takes its guards from, by name. -/

namespace ChainMonitor.Registries

open ProofKit

/-- `name.strip().lower()`. -/
def registryKey (T : Text) (name : String) : String :=
  T.lower (.ofList ((name.toList.dropWhile T.isSpace).reverse.dropWhile T.isSpace).reverse)

/-! ### `CircuitBreakerRegistry` -/

/-- The arguments of `get_breaker` after `name`. -/
structure BreakerArgs where
  failureThreshold : ℤ
  recoverySeconds : ℚ
  halfOpenMaxCalls : ℤ

def BreakerArgs.normalized (args : BreakerArgs) : CircuitBreaker.Config :=
  .init args.failureThreshold args.recoverySeconds args.halfOpenMaxCalls

/-- `get_breaker` keeps a breaker with parameters `cfg` when it is asked for `want`. -/
def breakerFits (cfg want : CircuitBreaker.Config) : Bool :=
  cfg.failureThreshold = want.failureThreshold ∧
    |cfg.recoverySeconds - want.recoverySeconds| ≤ 1 / 10 ^ 9 ∧
    cfg.halfOpenMaxCalls = want.halfOpenMaxCalls

def CircuitBreakerRegistry (T : Text) :
    Wares ℚ String String BreakerArgs CircuitBreaker.Config CircuitBreaker.AsyncCircuitBreaker
      CircuitBreaker.Call where
  key := registryKey T
  normalize := BreakerArgs.normalized
  fits := breakerFits
  fresh _ _ := CircuitBreaker.init
  step cfg b now c := some (CircuitBreaker.after cfg b now c)

/-! ### `RateLimiterRegistry` -/

/-- The arguments of `get_bucket` after `name`. -/
structure BucketArgs where
  ratePerSecond : ℚ
  capacity : ℤ

def BucketArgs.normalized (args : BucketArgs) : RateLimiter.Config :=
  .init args.ratePerSecond args.capacity

/-- `get_bucket` keeps a bucket with parameters `cfg` when it is asked for `want`. -/
def bucketFits (cfg want : RateLimiter.Config) : Bool :=
  |cfg.ratePerSecond - want.ratePerSecond| ≤ 1 / 10 ^ 9 ∧
    |cfg.capacity - want.capacity| ≤ 1 / 10 ^ 9

theorem bucketFits_self (cfg : RateLimiter.Config) : bucketFits cfg cfg = true := by
  simp [bucketFits]

/-- The buckets, each with the `acquire` calls that wait for a token of it. -/
def RateLimiterRegistry (T : Text) :
    Wares ℚ String String BucketArgs RateLimiter.Config RateLimiter.Acquirers RateLimiter.Act where
  key := registryKey T
  normalize := BucketArgs.normalized
  fits := bucketFits
  fresh cfg now := ⟨RateLimiter.init cfg now, [], 0⟩
  step cfg q now a := RateLimiter.step cfg q now a

/-! ### `BackoffRegistry` -/

/-- The bounds that a caller passes to `record_failure`, which the guard does not keep. -/
structure BackoffUse where
  baseSeconds : ℚ
  maxSeconds : ℚ
  op : Backoff.Op

def BackoffRegistry (T : Text) :
    Wares ℚ String String Unit Unit Backoff.BackoffGuard BackoffUse where
  key := registryKey T
  normalize := id
  fits _ _ := true
  fresh _ _ := Backoff.init
  step _ g now u := some (Backoff.after u.baseSeconds u.maxSeconds g now u.op)

/-! ### The rate under one name -/

/-- The `acquire` calls granted at a time in `[t₁, t₂]` by the buckets that were made under the key
of `name`, in the run along `acts` that begins at `t₀` without a bucket. -/
def grantsBetween (T : Text) (name : String) (t₁ t₂ t₀ : ℚ)
    (acts : List (Stamped ℚ (RegistryAct String BucketArgs RateLimiter.Act))) : ℕ :=
  total (clocked (Registry.step (RateLimiterRegistry T)))
    (Registry.grantsUnder
      (fun cfg q a => grantsIn (RateLimiter.granted cfg) t₁ t₂ ⟨a.now, q⟩ a)
      (registryKey T name)) ⟨t₀, .empty⟩ acts

/-- What a bucket may grant in a window of `seconds`. -/
def allowance (seconds : ℚ) (cfg : RateLimiter.Config) : ℚ :=
  cfg.capacity + cfg.ratePerSecond * seconds

theorem allowance_nonneg {seconds : ℚ} (h : 0 ≤ seconds) (cfg : RateLimiter.Config) :
    0 ≤ allowance seconds cfg := by
  have hcapacity : 0 ≤ cfg.capacity := zero_le_one.trans cfg.one_le_capacity
  have hrefill : 0 ≤ cfg.ratePerSecond * seconds := mul_nonneg cfg.rate_pos.le h
  exact add_nonneg hcapacity hrefill

theorem allowance_bounds (T : Text) {t₁ t₂ : ℚ} (ht : t₁ ≤ t₂) :
    Registry.Bounds (RateLimiterRegistry T)
      (fun cfg q a => grantsIn (RateLimiter.granted cfg) t₁ t₂ ⟨a.now, q⟩ a)
      (allowance (t₂ - t₁)) := by
  intro cfg t uses c hrun
  exact (RateLimiter.budget cfg).window_le cfg.rate_pos.le ht (RateLimiter.valid_created cfg t) hrun

/-- However many clients get the bucket of a name, and however their calls interleave: a window
`[t₁, t₂]` sees no more calls granted than the buckets made under the name allow together, and with
the same settings in every `get_bucket` no more than one bucket allows. -/
theorem name_rate {T : Text} {t₀ t₁ t₂ : ℚ} (ht : t₁ ≤ t₂) (name : String)
    {acts : List (Stamped ℚ (RegistryAct String BucketArgs RateLimiter.Act))}
    {s : Clocked ℚ (Registry ℚ String RateLimiter.Config RateLimiter.Acquirers)}
    (h : exec (clocked (Registry.step (RateLimiterRegistry T))) ⟨t₀, .empty⟩ acts = some s) :
    (grantsBetween T name t₁ t₂ t₀ acts : ℚ) ≤
      ((s.inner.madeUnder (registryKey T name)).map fun e => allowance (t₂ - t₁) e.settings).sum ∧
    ∀ cfg, (∀ want ∈ Registry.wants (RateLimiterRegistry T) (registryKey T name) acts, want = cfg) →
      (grantsBetween T name t₁ t₂ t₀ acts : ℚ) ≤ allowance (t₂ - t₁) cfg := by
  have hbounds := allowance_bounds T ht
  refine ⟨Registry.total_grantsUnder_le hbounds h, fun cfg hall => ?_⟩
  have hnonneg := allowance_nonneg (sub_nonneg.mpr ht) cfg
  exact Registry.total_grantsUnder_le_of_constant (bucketFits_self cfg) hbounds hnonneg h hall

/-- Two clients that write the name of a bucket of one token differently, and three calls. -/
def twoClients : List (Stamped ℚ (RegistryAct String BucketArgs RateLimiter.Act)) :=
  [⟨0, .get "eth" ⟨1, 1⟩⟩, ⟨0, .get " Eth" ⟨1, 1⟩⟩, ⟨0, .use 0 .acquire⟩, ⟨0, .use 0 .acquire⟩,
    ⟨1, .use 0 (.wake 1)⟩]

theorem name_rate_twoClients :
    (grantsBetween .plain "eth" 0 1 0 twoClients : ℚ) ≤ allowance (1 - 0) (.init 1 1) := by
  have hrun : (exec (clocked (Registry.step (RateLimiterRegistry .plain)))
      ⟨0, .empty⟩ twoClients).isSome = true := by decide +kernel
  have hkey : registryKey .plain "eth" = "eth" ∧ registryKey .plain " Eth" = "eth" := by
    decide +kernel
  have hwants : ∀ want ∈ Registry.wants (RateLimiterRegistry .plain)
      (registryKey .plain "eth") twoClients, want = RateLimiter.Config.init 1 1 := by
    simp [twoClients, Registry.wants, Registry.wanted, RateLimiterRegistry, hkey,
      BucketArgs.normalized]
  exact (name_rate zero_le_one "eth" (Option.some_get hrun).symm).2 (.init 1 1) hwants

/-! ### Executors that share their guards -/

/-- The registries of the process. -/
structure Process where
  breakers : Registry ℚ String CircuitBreaker.Config CircuitBreaker.AsyncCircuitBreaker
  buckets : Registry ℚ String RateLimiter.Config RateLimiter.Acquirers
  guards : Registry ℚ String Unit Backoff.BackoffGuard

/-- What is done with an object of a registry or with the registry itself, by whomever. -/
inductive Act
  | breaker (act : RegistryAct String BreakerArgs CircuitBreaker.Call)
  | bucket (act : RegistryAct String BucketArgs RateLimiter.Act)
  | guard (act : RegistryAct String Unit BackoffUse)

def Process.empty : Process := ⟨.empty, .empty, .empty⟩

def Process.step (T : Text) (s : Process) (a : Stamped ℚ Act) : Option Process :=
  match a.act with
  | .breaker act => (s.breakers.step (CircuitBreakerRegistry T) a.now act).map fun breakers =>
      { s with breakers }
  | .bucket act => (s.buckets.step (RateLimiterRegistry T) a.now act).map fun buckets =>
      { s with buckets }
  | .guard act => (s.guards.step (BackoffRegistry T) a.now act).map fun guards =>
      { s with guards }

def breaker? :
    Stamped ℚ Act → Option (Stamped ℚ (RegistryAct String BreakerArgs CircuitBreaker.Call))
  | ⟨now, .breaker act⟩ => some ⟨now, act⟩
  | _ => none

def bucket? : Stamped ℚ Act → Option (Stamped ℚ (RegistryAct String BucketArgs RateLimiter.Act))
  | ⟨now, .bucket act⟩ => some ⟨now, act⟩
  | _ => none

def guard? : Stamped ℚ Act → Option (Stamped ℚ (RegistryAct String Unit BackoffUse))
  | ⟨now, .guard act⟩ => some ⟨now, act⟩
  | _ => none

/-- The arguments that an executor asks for its guards with. -/
structure ResilienceConfig where
  breaker : BreakerArgs
  bucket : BucketArgs

/-- The guards that an executor keeps, each by its place among those made. -/
structure ResilientExecutor where
  breaker : ℕ
  limiter : ℕ
  backoff : ℕ

/-- `ResilientExecutor.__init__`. -/
def Process.executor (T : Text) (now : ℚ) (name : String) (config : ResilienceConfig)
    (s : Process) : ResilientExecutor × Process :=
  let name := registryKey T name
  let breaker := s.breakers.get (CircuitBreakerRegistry T) now name config.breaker
  let limiter := s.buckets.get (RateLimiterRegistry T) now name config.bucket
  let backoff := s.guards.get (BackoffRegistry T) now name ()
  (⟨breaker.1, limiter.1, backoff.1⟩, ⟨breaker.2, limiter.2, backoff.2⟩)

section Sharing

variable {T : Text} {s s' : Process} {acts : List (Stamped ℚ Act)}

theorem run_breakers (h : exec (Process.step T) s acts = some s') :
    exec (Registry.stepAt (CircuitBreakerRegistry T)) s.breakers (acts.filterMap breaker?) =
      some s'.breakers := by
  refine exec_part (·.breakers) breaker? ?_ ?_ h
  · rintro s ⟨now, act⟩ s' b hs hb
    cases act with
    | breaker act =>
      cases hb
      obtain ⟨r, hr, rfl⟩ := Option.map_eq_some_iff.mp hs
      exact hr
    | bucket | guard => cases hb
  · rintro s ⟨now, act⟩ s' hs hb
    cases act with
    | breaker act => cases hb
    | bucket | guard =>
      obtain ⟨r, -, rfl⟩ := Option.map_eq_some_iff.mp hs
      rfl

theorem run_buckets (h : exec (Process.step T) s acts = some s') :
    exec (Registry.stepAt (RateLimiterRegistry T)) s.buckets (acts.filterMap bucket?) =
      some s'.buckets := by
  refine exec_part (·.buckets) bucket? ?_ ?_ h
  · rintro s ⟨now, act⟩ s' b hs hb
    cases act with
    | bucket act =>
      cases hb
      obtain ⟨r, hr, rfl⟩ := Option.map_eq_some_iff.mp hs
      exact hr
    | breaker | guard => cases hb
  · rintro s ⟨now, act⟩ s' hs hb
    cases act with
    | bucket act => cases hb
    | breaker | guard =>
      obtain ⟨r, -, rfl⟩ := Option.map_eq_some_iff.mp hs
      rfl

theorem run_guards (h : exec (Process.step T) s acts = some s') :
    exec (Registry.stepAt (BackoffRegistry T)) s.guards (acts.filterMap guard?) =
      some s'.guards := by
  refine exec_part (·.guards) guard? ?_ ?_ h
  · rintro s ⟨now, act⟩ s' b hs hb
    cases act with
    | guard act =>
      cases hb
      obtain ⟨r, hr, rfl⟩ := Option.map_eq_some_iff.mp hs
      exact hr
    | breaker | bucket => cases hb
  · rintro s ⟨now, act⟩ s' hs hb
    cases act with
    | guard act => cases hb
    | breaker | bucket =>
      obtain ⟨r, -, rfl⟩ := Option.map_eq_some_iff.mp hs
      rfl

/-- The registered objects of all three registries are the newest ones. -/
structure Process.Sound (s : Process) : Prop where
  breakers : s.breakers.Sound
  buckets : s.buckets.Sound
  guards : s.guards.Sound

theorem reachable_sound (h : exec (Process.step T) .empty acts = some s) : s.Sound := by
  have run {ν ρ γ σ α : Type} {W : Wares ℚ ν String ρ γ σ α}
      {acts : List (Stamped ℚ (RegistryAct ν ρ α))} {r : Registry ℚ String γ σ}
      (hr : exec (Registry.stepAt W) .empty acts = some r) : r.Sound :=
    exec_invariant Registry.Sound Registry.sound_empty (fun _ _ _ hs hstep => hs.step hstep) hr
  exact ⟨run (run_breakers h), run (run_buckets h), run (run_guards h)⟩

/-- When an executor is made, whatever happens then in the process, and a second executor is made:
the two share the breaker exactly when their names have the same key and every breaker asked for
under it since fits the first one's parameters; the same goes for the bucket, in its own parameters;
and they share the backoff guard exactly when their names have the same key. -/
theorem executors_share {before later : List (Stamped ℚ Act)} {t t' : ℚ} {name name' : String}
    {config config' : ResilienceConfig}
    {first second : ResilientExecutor} {s₁ s₃ : Process}
    (hbefore : exec (Process.step T) .empty before = some s)
    (hfirst : s.executor T t name config = (first, s₁))
    (hlater : exec (Process.step T) s₁ later = some s')
    (hsecond : s'.executor T t' name' config' = (second, s₃)) :
    let key := registryKey T (registryKey T name)
    let same := registryKey T (registryKey T name') = key
    (∃ e, s₁.breakers.made[first.breaker]? = some e ∧
      (second.breaker = first.breaker ↔ same ∧
        ∀ want ∈ Registry.wants (CircuitBreakerRegistry T) key (later.filterMap breaker?) ++
          [config'.breaker.normalized], breakerFits e.settings want)) ∧
    (∃ e, s₁.buckets.made[first.limiter]? = some e ∧
      (second.limiter = first.limiter ↔ same ∧
        ∀ want ∈ Registry.wants (RateLimiterRegistry T) key (later.filterMap bucket?) ++
          [config'.bucket.normalized], bucketFits e.settings want)) ∧
    (second.backoff = first.backoff ↔ same) := by
  obtain ⟨hbreakers, hbuckets, hguards⟩ := reachable_sound hbefore
  cases hfirst
  cases hsecond
  obtain ⟨b, hb, -⟩ :=
    Registry.holds_get hbreakers (CircuitBreakerRegistry T) t (registryKey T name) config.breaker
  obtain ⟨q, hq, -⟩ :=
    Registry.holds_get hbuckets (RateLimiterRegistry T) t (registryKey T name) config.bucket
  obtain ⟨g, hg, -⟩ :=
    Registry.holds_get hguards (BackoffRegistry T) t (registryKey T name) ()
  refine ⟨⟨b, hb, Registry.get_same_iff hbreakers hb (run_breakers hlater)⟩,
    ⟨q, hq, Registry.get_same_iff hbuckets hq (run_buckets hlater)⟩, ?_⟩
  have hsame : (s'.guards.get (BackoffRegistry T) t' (registryKey T name') ()).1 = _ ↔ _ :=
    Registry.get_same_iff hguards hg (run_guards hlater)
  exact hsame.trans (and_iff_left fun _ _ => rfl)

end Sharing

/-- Two executors whose breakers differ in the recovery time. -/
theorem executors_share_backoff : ∃ first s₁ second s₃,
    Process.empty.executor .plain 0 "eth" ⟨⟨5, 30, 2⟩, ⟨2, 5⟩⟩ = (first, s₁) ∧
      s₁.executor .plain 1 " Eth" ⟨⟨5, 60, 2⟩, ⟨2, 5⟩⟩ = (second, s₃) ∧
      second.backoff = first.backoff := by
  have hkey : registryKey .plain (registryKey .plain " Eth") =
      registryKey .plain (registryKey .plain "eth") := by decide +kernel
  have hempty : exec (Process.step .plain) .empty [] = some Process.empty := rfl
  have hnone (s : Process) : exec (Process.step .plain) s [] = some s := rfl
  refine ⟨_, _, _, _, rfl, rfl, ?_⟩
  exact (executors_share hempty rfl (hnone _) rfl).2.2.mpr hkey

end ChainMonitor.Registries
