import ChainMonitor.ProofKit.Run
import ChainMonitor.Resilience.Admissions
import ChainMonitor.Resilience.Backoff
import ChainMonitor.Resilience.RateLimiter

/-! `ResilientHttpClient._request_json_uncached` of `ingestion/resilience/resilient_http_client.py`,
for all the requests to one provider of one chain. They share the token bucket and the backoff
guard, and each endpoint has a breaker of its own. A step is what a request does between two of its
awaits. At every await the request may be interrupted. -/

namespace ChainMonitor.HttpClient

open ProofKit

/-- The exceptions that the attempt loop catches: `httpx.TimeoutException`, `httpx.HTTPStatusError`,
any other `httpx.HTTPError`, and `ValueError`. -/
inductive HttpException
  | timeout
  | status (code : ℕ)
  | transport
  | value
  deriving DecidableEq

def retryableStatuses : List ℕ := [429, 500, 502, 503, 504]

/-- `RetryPolicy.is_retryable_exception`. -/
def isRetryableException : HttpException → Bool
  | .timeout => true
  | .status code => code ∈ retryableStatuses
  | .transport => true
  | .value => false

/-- What `response.json()` finds in the body. -/
inductive Body (P : Type*)
  | dict (payload : P)
  | nonDict
  | invalid
  deriving DecidableEq

/-- How `client.get` ends, when it raises nothing that the loop lets through. -/
inductive Reply (P : Type*)
  | response (status : ℕ) (body : Body P)
  | raised (exc : HttpException)
  deriving DecidableEq

variable {P : Type*}

/-- The payload of a reply, or the exception that ends the attempt. -/
def payload : Reply P → Except HttpException P
  | .raised exc => .error exc
  | .response status body =>
    if status ∈ retryableStatuses then .error (.status status)
    -- `raise_for_status`
    else if ¬ (200 ≤ status ∧ status ≤ 299) then .error (.status status)
    else match body with
      | .dict p => .ok p
      | .nonDict | .invalid => .error .value

/-- The settings of one provider and chain. -/
structure Config where
  breaker : CircuitBreaker.Config
  limiter : RateLimiter.Config
  maxAttempts : ℕ
  backoffBaseSeconds : ℚ
  backoffMaxSeconds : ℚ
  one_le_maxAttempts : 1 ≤ maxAttempts

/-- The bounds that `get_retry_attempts` and `__init__` put on the settings. -/
def Config.init (breaker : CircuitBreaker.Config) (limiter : RateLimiter.Config)
    (retryAttempts : ℤ) (retryBaseSeconds retryMaxSleepSeconds : ℚ) : Config where
  breaker := breaker
  limiter := limiter
  maxAttempts := (max 1 retryAttempts).toNat
  backoffBaseSeconds := max (1 / 10) retryBaseSeconds
  backoffMaxSeconds := max (1 / 2) retryMaxSleepSeconds
  one_le_maxAttempts := one_le_toNat_max retryAttempts

/-- Where an admitted request waits, in its attempt number `attempt`: for the lock of
`_clear_circuit_blocked`, for a token, for the client, for the reply, to try again, or for the cache
to take its payload. A `settled` request has recorded a failure and returns in the same step. -/
inductive Phase (P : Type*)
  | clearing
  | acquiring (attempt : ℕ)
  | connecting (attempt : ℕ)
  | sending (attempt : ℕ)
  | sleeping (attempt : ℕ)
  | caching (payload : P)
  | settled
  deriving DecidableEq

/-- How an admitted request ends. It is interrupted by a `CancelledError`, or by an exception that
is neither an `httpx.HTTPError` nor a `ValueError`. -/
inductive Exit (P : Type*)
  | returned (result : Option P)
  | interrupted (phase : Phase P)
  deriving DecidableEq

/-- What wakes request `i` of an endpoint. -/
inductive Wake (P : Type*)
  | cleared
  | pass
  | connected
  | reply (r : Reply P)
  | slept
  | stored
  | interrupt

inductive Act (P : Type*)
  | request
  | resume (i : ℕ) (w : Wake P)

/-- A step of an endpoint's requests and the two readings of the clock that it may make. -/
structure Event (P : Type*) where
  now : ℚ
  later : ℚ
  endpoint : String
  act : Act P

structure System (P : Type*) where
  clock : ℚ
  backoff : Backoff.BackoffGuard
  bucket : RateLimiter.AsyncTokenBucket
  endpoints : String → Admissions (Phase P) (Exit P)

def created (cfg : Config) (t : ℚ) : System P :=
  ⟨t, Backoff.init, RateLimiter.init cfg.limiter t, fun _ => Admissions.init⟩

/-- The system in which the requests of `endpoint` are `a`. -/
def System.put (s : System P) (endpoint : String) (a : Admissions (Phase P) (Exit P)) : System P :=
  { s with endpoints := Function.update s.endpoints endpoint a }

/-- The request up to its first await after both gates. A blocked request returns `None`. -/
def request (cfg : Config) (now later : ℚ) (endpoint : String) (s : System P) : System P :=
  if Backoff.allowRequest now s.backoff then
    s.put endpoint ((s.endpoints endpoint).enter cfg.breaker later .clearing).2
  else s

/-- Both `record_failure` calls of a handler, and its `return None`. -/
def fail (cfg : Config) (now later : ℚ) (endpoint : String) (i : ℕ) (t : Ticket (Phase P))
    (s : System P) : System P :=
  { s.put endpoint (((s.endpoints endpoint).recordFailure cfg.breaker now i t .settled).leave i
      (.returned none)) with
    backoff := Backoff.recordFailure later cfg.backoffBaseSeconds cfg.backoffMaxSeconds s.backoff }

/-- The attempt loop after `client.get` ends in attempt `k` of request `i`. -/
def reply (cfg : Config) (now later : ℚ) (endpoint : String) (i : ℕ) (t : Ticket (Phase P)) (k : ℕ)
    (r : Reply P) (s : System P) : System P :=
  match payload r with
  | .ok p =>
    { s.put endpoint ((s.endpoints endpoint).recordSuccess i t (.caching p)) with
      backoff := Backoff.recordSuccess s.backoff }
  | .error exc =>
    if !isRetryableException exc then fail cfg now later endpoint i t s
    else if cfg.maxAttempts ≤ k then fail cfg now later endpoint i t s
    else s.put endpoint ((s.endpoints endpoint).move i t (.sleeping k))

/-- What request `i`, in phase `t.phase`, does when it wakes. -/
def resume (cfg : Config) (now later : ℚ) (endpoint : String) (i : ℕ) (t : Ticket (Phase P))
    (s : System P) : Phase P → Wake P → Option (System P)
  | .clearing, .cleared => some (s.put endpoint ((s.endpoints endpoint).move i t (.acquiring 1)))
  | .acquiring k, .pass =>
    match RateLimiter.pass cfg.limiter now s.bucket with
    | (.granted, b) =>
      some { s.put endpoint ((s.endpoints endpoint).move i t (.connecting k)) with bucket := b }
    | (.sleep _, b) => some { s with bucket := b }
  | .connecting k, .connected =>
    some (s.put endpoint ((s.endpoints endpoint).move i t (.sending k)))
  | .sending k, .reply r => some (reply cfg now later endpoint i t k r s)
  | .sleeping k, .slept =>
    some (s.put endpoint ((s.endpoints endpoint).move i t (.acquiring (k + 1))))
  | .caching p, .stored =>
    some (s.put endpoint ((s.endpoints endpoint).leave i (.returned (some p))))
  | .settled, .interrupt => none
  | p, .interrupt => some (s.put endpoint ((s.endpoints endpoint).leave i (.interrupted p)))
  | _, _ => none

def act (cfg : Config) (now later : ℚ) (endpoint : String) (s : System P) :
    Act P → Option (System P)
  | .request => some (request cfg now later endpoint s)
  | .resume i w =>
    match (s.endpoints endpoint).inflight[i]? with
    | some t => resume cfg now later endpoint i t s t.phase w
    | none => none

def step (cfg : Config) (s : System P) (e : Event P) : Option (System P) :=
  if s.clock ≤ e.now ∧ e.now ≤ e.later then
    (act cfg e.now e.later e.endpoint s e.act).map fun s' => { s' with clock := e.later }
  else none

/-- Whether a new request to `endpoint` gets past the backoff guard and the breaker. -/
def admits (cfg : Config) (s : System P) (now later : ℚ) (endpoint : String) : Bool :=
  Backoff.allowRequest now s.backoff &&
    ((s.endpoints endpoint).enter cfg.breaker later .clearing).1

/-! ### The outcomes that a request records -/

/-- The outcomes recorded by a request that is in this phase. -/
def due : Phase P → ℕ
  | .caching _ | .settled => 1
  | _ => 0

/-- The outcomes recorded by a request that ends so. -/
def paid : Exit P → ℕ
  | .returned _ => 1
  | .interrupted p => due p

section Steps

variable {cfg : Config} {now later : ℚ} {endpoint : String} {i : ℕ} {t : Ticket (Phase P)}
  {s s' : System P}

/-- A step that concerns one request of `endpoint`, and no other endpoint. -/
def Changes (cfg : Config) (endpoint : String) (s s' : System P) : Prop :=
  ∃ a, s'.endpoints = Function.update s.endpoints endpoint a ∧
    Admissions.Change cfg.breaker due paid (s.endpoints endpoint) a

theorem changes_of_eq (h : s'.endpoints = s.endpoints) : Changes cfg endpoint s s' :=
  ⟨s.endpoints endpoint, by rw [Function.update_eq_self, h], .none⟩

theorem request_changes : Changes cfg endpoint s (request cfg now later endpoint s) := by
  unfold request
  split
  · exact ⟨_, rfl, .enter later _ rfl⟩
  · exact changes_of_eq rfl

theorem fail_changes (ht : (s.endpoints endpoint).inflight[i]? = some t) (hdue : due t.phase = 0) :
    Changes cfg endpoint s (fail cfg now later endpoint i t s) :=
  ⟨_, rfl, .settleLeave ht (by rw [hdue]; rfl) CircuitBreaker.recordFailure_state_ne rfl⟩

theorem reply_changes (ht : (s.endpoints endpoint).inflight[i]? = some t) (hdue : due t.phase = 0)
    (k : ℕ) (r : Reply P) : Changes cfg endpoint s (reply cfg now later endpoint i t k r s) := by
  unfold reply
  split
  · have hclosed : (CircuitBreaker.recordSuccess (s.endpoints endpoint).breaker).state ≠
        .halfOpen := by simp [CircuitBreaker.recordSuccess_state]
    exact ⟨_, rfl, .settle ht (by rw [hdue]; rfl) hclosed⟩
  · split
    · exact fail_changes ht hdue
    · split
      · exact fail_changes ht hdue
      · exact ⟨_, rfl, .move ht (by rw [hdue]; rfl)⟩

theorem resume_changes {w : Wake P} (ht : (s.endpoints endpoint).inflight[i]? = some t)
    (h : resume cfg now later endpoint i t s t.phase w = some s') :
    Changes cfg endpoint s s' := by
  unfold resume at h
  split at h
  · rename_i hp
    cases h
    exact ⟨_, rfl, .move ht (by rw [hp]; rfl)⟩
  · rename_i k hp
    split at h <;> cases h
    · exact ⟨_, rfl, .move ht (by rw [hp]; rfl)⟩
    · exact changes_of_eq rfl
  · rename_i k hp
    cases h
    exact ⟨_, rfl, .move ht (by rw [hp]; rfl)⟩
  · rename_i k r hp
    cases h
    exact reply_changes ht (by rw [hp]; rfl) k r
  · rename_i k hp
    cases h
    exact ⟨_, rfl, .move ht (by rw [hp]; rfl)⟩
  · rename_i p hp
    cases h
    exact ⟨_, rfl, .leave ht (by rw [hp]; rfl)⟩
  · cases h
  · cases h
    exact ⟨_, rfl, .leave ht rfl⟩
  · cases h

theorem act_changes {a : Act P} (h : act cfg now later endpoint s a = some s') :
    Changes cfg endpoint s s' := by
  cases a with
  | request =>
    cases h
    exact request_changes
  | resume i w =>
    simp only [act] at h
    split at h
    · rename_i t ht
      exact resume_changes ht h
    · cases h

/-! ### The invariant of every endpoint -/

structure Valid (s : System P) : Prop where
  sound : ∀ endpoint, (s.endpoints endpoint).Sound
  accounted : ∀ endpoint, (s.endpoints endpoint).Accounted due paid

theorem valid_created (cfg : Config) (t : ℚ) : Valid (created cfg t : System P) :=
  ⟨fun _ => Admissions.sound_init, fun _ => Admissions.accounted_init⟩

theorem Valid.changes (hv : Valid s) (h : Changes cfg endpoint s s') : Valid s' := by
  obtain ⟨a, he, hc⟩ := h
  refine ⟨fun other => ?_, fun other => ?_⟩ <;> rw [he] <;> by_cases ho : other = endpoint
  · rw [ho, Function.update_self]
    exact (hv.sound endpoint).change hc
  · rw [Function.update_of_ne ho]
    exact hv.sound other
  · rw [ho, Function.update_self]
    exact (hv.accounted endpoint).change hc
  · rw [Function.update_of_ne ho]
    exact hv.accounted other

theorem Valid.step {e : Event P} (hv : Valid s) (h : HttpClient.step cfg s e = some s') :
    Valid s' := by
  unfold HttpClient.step at h
  split at h
  · obtain ⟨u, hu, rfl⟩ := Option.map_eq_some_iff.mp h
    obtain ⟨hsound, hacc⟩ := hv.changes (act_changes hu)
    exact ⟨hsound, hacc⟩
  · cases h

theorem reachable_valid {t₀ : ℚ} {es : List (Event P)}
    (h : exec (HttpClient.step cfg) (created cfg t₀) es = some s) : Valid s :=
  exec_invariant Valid (valid_created cfg t₀) (fun _ _ _ hv hs => hv.step hs) h

/-- In every run, a request that has ended recorded one outcome with its breaker, unless it was
interrupted before the outcome, and then none; and once an endpoint has no request in flight, and
its recovery time and the backoff are over, its next request is admitted exactly when fewer slots
than `half_open_max_calls` were lost in the present half-open phase. -/
theorem admission_paired_iff {t₀ : ℚ} {es : List (Event P)}
    (h : exec (HttpClient.step cfg) (created cfg t₀) es = some s) (endpoint : String) :
    (∀ d ∈ (s.endpoints endpoint).departed,
      d.recorded ≤ 1 ∧ (d.recorded = 1 ↔ ∀ p, d.exit = .interrupted p → due p = 1)) ∧
    ∀ now later, (s.endpoints endpoint).inflight = [] → s.backoff.openedUntil ≤ now →
      (s.endpoints endpoint).breaker.openedAt + cfg.breaker.recoverySeconds ≤ later →
      (admits cfg s now later endpoint = true ↔
        (s.endpoints endpoint).lost < cfg.breaker.halfOpenMaxCalls) := by
  obtain ⟨hsound, hacc⟩ := reachable_valid h
  refine ⟨fun d hd => ?_, fun now later hidle hback hpast => ?_⟩
  · have hrec := (hacc endpoint).departed d hd
    cases he : d.exit with
    | returned r => simp [hrec, he, paid]
    | interrupted p =>
      have hle : due p ≤ 1 := by cases p <;> simp [due]
      simp [hrec, he, paid, hle]
  · simp only [admits, Backoff.allowRequest_eq_true.mpr hback, Bool.true_and]
    exact (hsound endpoint).enter_iff _ hidle hpast

end Steps

/-! ### A probe that is cancelled -/

/-- One attempt a request, one failure to open, one probe after 30 seconds. -/
def sample : Config := .init (.init 1 30 1) (.init 2 5) 1 (1 / 2) 5

/-- A timeout opens the breaker, and the probe is cancelled while it waits for its reply. -/
def cancelledProbe : List (Event ℕ) :=
  [⟨0, 0, "search", .request⟩, ⟨0, 0, "search", .resume 0 .cleared⟩,
    ⟨0, 0, "search", .resume 0 .pass⟩, ⟨0, 0, "search", .resume 0 .connected⟩,
    ⟨5, 5, "search", .resume 0 (.reply (.raised .timeout))⟩,
    ⟨40, 40, "search", .request⟩, ⟨40, 40, "search", .resume 0 .cleared⟩,
    ⟨40, 40, "search", .resume 0 .pass⟩, ⟨40, 40, "search", .resume 0 .connected⟩,
    ⟨45, 45, "search", .resume 0 .interrupt⟩]

def afterCancelledProbe : Admissions (Phase ℕ) (Exit ℕ) :=
  ⟨⟨.halfOpen, 0, 5, 1⟩, [], 1, [⟨1, .returned none⟩, ⟨0, .interrupted (.sending 1)⟩]⟩

theorem exec_cancelledProbe : ∃ s, exec (step sample) (created sample 0) cancelledProbe = some s ∧
    s.backoff = ⟨1, 11 / 2⟩ ∧ s.endpoints "search" = afterCancelledProbe := by
  have h : (exec (step sample) (created sample 0) cancelledProbe).map
      (fun s => (s.backoff, s.endpoints "search")) =
      some (⟨1, 11 / 2⟩, afterCancelledProbe) := by
    decide +kernel
  obtain ⟨s, hs, he⟩ := Option.map_eq_some_iff.mp h
  exact ⟨s, hs, congrArg Prod.fst he, congrArg Prod.snd he⟩

theorem admission_paired_cancelledProbe : ∃ s,
    exec (step sample) (created sample 0) cancelledProbe = some s ∧
    (admits sample s 100 100 "search" = true ↔
      (s.endpoints "search").lost < sample.breaker.halfOpenMaxCalls) := by
  obtain ⟨s, hs, hback, hsearch⟩ := exec_cancelledProbe
  refine ⟨s, hs, (admission_paired_iff hs "search").2 100 100 ?_ ?_ ?_⟩
  · rw [hsearch]
    rfl
  · rw [hback]
    decide +kernel
  · rw [hsearch]
    decide +kernel

/-- The lost probe blocks the endpoint: idle, and past both times, it admits no request. -/
theorem endpoint_blocked :
    ¬ ∀ (cfg : Config) (t₀ : ℚ) (es : List (Event ℕ)) (s : System ℕ) (endpoint : String),
      exec (step cfg) (created cfg t₀) es = some s →
      (∀ d ∈ (s.endpoints endpoint).departed, d.recorded = 1) ∧
      ∀ now later, (s.endpoints endpoint).inflight = [] → s.backoff.openedUntil ≤ now →
        (s.endpoints endpoint).breaker.openedAt + cfg.breaker.recoverySeconds ≤ later →
        admits cfg s now later endpoint = true := by
  intro h
  obtain ⟨s, hs, hback, hsearch⟩ := exec_cancelledProbe
  have hnext := (h sample 0 cancelledProbe s "search" hs).2 100 100
    (by rw [hsearch]; rfl) (by rw [hback]; decide +kernel) (by rw [hsearch]; decide +kernel)
  rw [admits, hback, hsearch] at hnext
  exact absurd hnext (by decide +kernel)

end ChainMonitor.HttpClient
