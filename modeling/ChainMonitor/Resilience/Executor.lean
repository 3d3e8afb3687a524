import ChainMonitor.ProofKit.Run
import ChainMonitor.Resilience.Admissions
import ChainMonitor.Resilience.Backoff
import ChainMonitor.Resilience.RateLimiter
import ChainMonitor.Resilience.Retry

/-! `ResilientExecutor.execute` of `shared/resilience/executor.py`, with any number of calls in
flight. A step is what a call does between two of its awaits, and reads the clock at most twice. The
retry sleep of a call may end at any time. -/

namespace ChainMonitor.Executor

open ProofKit

/-- The parameters of an executor, for `retry_attempts` of at least 1. -/
structure Config (ε : Type*) where
  breaker : CircuitBreaker.Config
  limiter : RateLimiter.Config
  retryAttempts : ℕ
  backoffBaseSeconds : ℚ
  backoffMaxSeconds : ℚ
  isRetryable : ε → Bool
  one_le_retryAttempts : 1 ≤ retryAttempts

/-- Where a call waits, in its attempt number `attempt`: for a token, for `fn`, or to try again. A
`settled` call has recorded its outcome and returns in the same step. -/
inductive Phase
  | acquiring (attempt : ℕ)
  | calling (attempt : ℕ)
  | sleeping (attempt : ℕ)
  | settled
  deriving DecidableEq

/-- What `execute` raises: an exception of `fn`, or one of the arithmetic of the sleep. -/
inductive Raised (ε : Type*)
  | fn (e : ε)
  | sleep (e : PyError)
  deriving DecidableEq

/-- How an admitted call ends. -/
inductive Exit (T ε : Type*)
  | returned (value : T)
  | exhausted
  | raised (e : Raised ε)
  deriving DecidableEq

/-- What `fn` does. -/
inductive Outcome (T ε : Type*)
  | value (v : T)
  | exception (e : ε)
  deriving DecidableEq

inductive Act (T ε : Type*)
  | execute
  | pass (i : ℕ)
  | finish (i : ℕ) (o : Outcome T ε)
  | wake (i : ℕ)

/-- A step and the two readings of the clock that it may make. -/
structure Event (T ε : Type*) where
  now : ℚ
  later : ℚ
  act : Act T ε

structure System (T ε : Type*) where
  clock : ℚ
  backoff : Backoff.BackoffGuard
  bucket : RateLimiter.AsyncTokenBucket
  admissions : Admissions Phase (Exit T ε)
  deriving DecidableEq

variable {T ε : Type*}

def created (cfg : Config ε) (t : ℚ) : System T ε :=
  ⟨t, Backoff.init, RateLimiter.init cfg.limiter t, Admissions.init⟩

/-- `execute` up to its first await: both gates, and then the first attempt. -/
def execute (cfg : Config ε) (now later : ℚ) (s : System T ε) : System T ε :=
  if Backoff.allowRequest now s.backoff then
    { s with admissions := (s.admissions.enter cfg.breaker later (.acquiring 1)).2 }
  else s

/-- The retry loop after `fn` ends in attempt `k` of call `i`. -/
def finish (cfg : Config ε) (now later : ℚ) (i : ℕ) (t : Ticket Phase) (k : ℕ) (s : System T ε) :
    Outcome T ε → System T ε
  | .value v => { s with
      admissions := (s.admissions.recordSuccess i t .settled).leave i (.returned v)
      backoff := Backoff.recordSuccess s.backoff }
  | .exception e =>
    if !cfg.isRetryable e then
      -- `raise` leaves the loop past both `record_failure` calls
      { s with admissions := s.admissions.leave i (.raised (.fn e)) }
    else if k < cfg.retryAttempts then
      -- and so does what `retry_sleep_seconds` raises
      if Retry.Overflows k then
        { s with admissions := s.admissions.leave i (.raised (.sleep .overflowError)) }
      else { s with admissions := s.admissions.move i t (.sleeping k) }
    else { s with
      admissions := (s.admissions.recordFailure cfg.breaker now i t .settled).leave i .exhausted
      backoff :=
        Backoff.recordFailure later cfg.backoffBaseSeconds cfg.backoffMaxSeconds s.backoff }

def act (cfg : Config ε) (now later : ℚ) (s : System T ε) : Act T ε → Option (System T ε)
  | .execute => some (execute cfg now later s)
  | .pass i =>
    match s.admissions.inflight[i]? with
    | some t =>
      match t.phase, RateLimiter.pass cfg.limiter now s.bucket with
      | .acquiring k, (.granted, b) =>
        some { s with bucket := b, admissions := s.admissions.move i t (.calling k) }
      | .acquiring _, (.sleep _, b) => some { s with bucket := b }
      | _, _ => none
    | none => none
  | .finish i o =>
    match s.admissions.inflight[i]? with
    | some t =>
      match t.phase with
      | .calling k => some (finish cfg now later i t k s o)
      | _ => none
    | none => none
  | .wake i =>
    match s.admissions.inflight[i]? with
    | some t =>
      match t.phase with
      | .sleeping k => some { s with admissions := s.admissions.move i t (.acquiring (k + 1)) }
      | _ => none
    | none => none

def step (cfg : Config ε) (s : System T ε) (e : Event T ε) : Option (System T ε) :=
  if s.clock ≤ e.now ∧ e.now ≤ e.later then
    (act cfg e.now e.later s e.act).map fun s' => { s' with clock := e.later }
  else none

/-- A new `execute` call at `now`, whose reading of the clock in the breaker is `later`, calls `fn`
once it has passed the limiter at time `t`. -/
def invokes (cfg : Config ε) (s : System T ε) (now later t : ℚ) : Bool :=
  match exec (step cfg) s [⟨now, later, .execute⟩, ⟨t, t, .pass s.admissions.inflight.length⟩] with
  | some s' => (s'.admissions.inflight[s.admissions.inflight.length]?).any (·.phase = .calling 1)
  | none => false

/-! ### What a step does to the admitted calls -/

section Steps

variable {cfg : Config ε} {now later : ℚ} {s s' : System T ε}

/-- The outcomes recorded by a call that is in phase `p`. -/
def due (p : Phase) : ℕ := if p = .settled then 1 else 0

/-- The outcomes recorded by a call that ends in `x`. -/
def paid : Exit T ε → ℕ
  | .returned _ | .exhausted => 1
  | .raised _ => 0

theorem finish_change {i k : ℕ} {t : Ticket Phase} (ht : s.admissions.inflight[i]? = some t)
    (hk : t.phase = .calling k) (o : Outcome T ε) :
    Admissions.Change cfg.breaker due paid s.admissions
      (finish cfg now later i t k s o).admissions := by
  have hdue : due t.phase = 0 := by simp [hk, due]
  cases o with
  | value v =>
    have hclosed : (CircuitBreaker.recordSuccess s.admissions.breaker).state ≠ .halfOpen := by
      simp [CircuitBreaker.recordSuccess_state]
    exact .settleLeave ht (by simp [hk, due]) hclosed rfl
  | exception e =>
    simp only [finish]
    split
    · exact .leave ht hdue
    · split
      · split
        · exact .leave ht hdue
        · exact .move ht (by simp [hk, due])
      · exact .settleLeave ht (by simp [hk, due]) CircuitBreaker.recordFailure_state_ne rfl

theorem finish_bucket {i k : ℕ} {t : Ticket Phase} (o : Outcome T ε) :
    (finish cfg now later i t k s o).bucket = s.bucket := by
  cases o with
  | value v => rfl
  | exception e =>
    simp only [finish]
    split
    · rfl
    · split
      · split <;> rfl
      · rfl

/-- A pass of the limiter is one of call `i` that waits for a token. -/
theorem act_pass_eq_some {i : ℕ} (h : act cfg now later s (.pass i) = some s') :
    ∃ t k, s.admissions.inflight[i]? = some t ∧ t.phase = .acquiring k ∧
      s'.bucket = (RateLimiter.pass cfg.limiter now s.bucket).2 ∧
      (s'.admissions = s.admissions.move i t (.calling k) ∨ s'.admissions = s.admissions) := by
  simp only [act] at h
  split at h
  · rename_i t ht
    split at h <;> rename_i hp hq <;> cases h
    · exact ⟨t, _, ht, hp, by rw [hq], .inl rfl⟩
    · exact ⟨t, _, ht, hp, by rw [hq], .inr rfl⟩
  · cases h

theorem act_finish_eq_some {i : ℕ} {o : Outcome T ε}
    (h : act cfg now later s (.finish i o) = some s') :
    ∃ t k, s.admissions.inflight[i]? = some t ∧ t.phase = .calling k ∧
      s' = finish cfg now later i t k s o := by
  simp only [act] at h
  split at h
  · rename_i t ht
    split at h
    · rename_i k hk
      exact ⟨t, k, ht, hk, (Option.some.inj h).symm⟩
    · cases h
  · cases h

theorem act_wake_eq_some {i : ℕ} (h : act cfg now later s (.wake i) = some s') :
    ∃ t k, s.admissions.inflight[i]? = some t ∧ t.phase = .sleeping k ∧
      s' = { s with admissions := s.admissions.move i t (.acquiring (k + 1)) } := by
  simp only [act] at h
  split at h
  · rename_i t ht
    split at h
    · rename_i k hk
      exact ⟨t, k, ht, hk, (Option.some.inj h).symm⟩
    · cases h
  · cases h

/-- A step changes the admissions by one step of one call, and the bucket by at most one pass. -/
theorem act_effect {a : Act T ε} (h : act cfg now later s a = some s') :
    Admissions.Change cfg.breaker due paid s.admissions s'.admissions ∧
      (s'.bucket = s.bucket ∨ s'.bucket = (RateLimiter.pass cfg.limiter now s.bucket).2) := by
  cases a with
  | execute =>
    simp only [act, execute, Option.some_inj] at h
    subst h
    split
    · exact ⟨.enter _ _ (by simp [due]), .inl rfl⟩
    · exact ⟨.none, .inl rfl⟩
  | pass i =>
    obtain ⟨t, k, ht, hp, hbucket, hmove | hstay⟩ := act_pass_eq_some h
    · rw [hmove]
      exact ⟨.move ht (by simp [hp, due]), .inr hbucket⟩
    · rw [hstay]
      exact ⟨.none, .inr hbucket⟩
  | finish i o =>
    obtain ⟨t, k, ht, hk, rfl⟩ := act_finish_eq_some h
    exact ⟨finish_change ht hk o, .inl (finish_bucket o)⟩
  | wake i =>
    obtain ⟨t, k, ht, hk, rfl⟩ := act_wake_eq_some h
    exact ⟨.move ht (by simp [hk, due]), .inl rfl⟩

theorem step_eq_some {e : Event T ε} : step cfg s e = some s' ↔
    (s.clock ≤ e.now ∧ e.now ≤ e.later) ∧
      ∃ u, act cfg e.now e.later s e.act = some u ∧ s' = { u with clock := e.later } := by
  unfold step
  split
  · rename_i h
    simp [h, eq_comm]
  · rename_i h
    simp [h]

structure Valid (s : System T ε) : Prop where
  sound : s.admissions.Sound
  accounted : s.admissions.Accounted due paid
  tokens_nonneg : 0 ≤ s.bucket.tokens
  refill_le : s.bucket.lastRefill ≤ s.clock

theorem valid_created (cfg : Config ε) (t : ℚ) : Valid (created cfg t : System T ε) :=
  ⟨Admissions.sound_init, Admissions.accounted_init,
    zero_le_one.trans cfg.limiter.one_le_capacity, le_rfl⟩

theorem Valid.step {e : Event T ε} (hv : Valid s) (h : Executor.step cfg s e = some s') :
    Valid s' := by
  obtain ⟨⟨hle, hlater⟩, u, hu, rfl⟩ := step_eq_some.mp h
  obtain ⟨hchange, hbucket⟩ := act_effect hu
  have hsound := hv.sound.change hchange
  have hacc := hv.accounted.change hchange
  have hrefill := hv.refill_le
  rcases hbucket with hb | hb
  · refine ⟨hsound, hacc, by simpa [hb] using hv.tokens_nonneg, ?_⟩
    simp only [hb]
    linarith
  · refine ⟨hsound, hacc, ?_, ?_⟩ <;> simp only [hb]
    · exact (RateLimiter.pass_tokens hv.tokens_nonneg).1
    · rw [RateLimiter.pass_lastRefill]
      exact hlater

theorem reachable_valid {t₀ : ℚ} {es : List (Event T ε)}
    (h : exec (Executor.step cfg) (created cfg t₀) es = some s) : Valid s :=
  exec_invariant Valid (valid_created cfg t₀) (fun _ _ _ hv hs => hv.step hs) h

/-! ### When the next call runs -/

/-- An admitted call, in an idle executor, calls `fn` on its first pass of the limiter that comes at
least the time of one token later. -/
theorem invokes_eq_enter (hv : Valid s) (hidle : s.admissions.inflight = []) {t : ℚ}
    (hclock : s.clock ≤ now) (hlater : now ≤ later)
    (hback : Backoff.allowRequest now s.backoff = true)
    (ht : later + 1 / cfg.limiter.ratePerSecond ≤ t) :
    invokes cfg s now later t =
      (s.admissions.enter cfg.breaker later (.acquiring 1)).1 := by
  have hpos : 0 < 1 / cfg.limiter.ratePerSecond := by
    have := cfg.limiter.rate_pos
    positivity
  have hgranted : (RateLimiter.pass cfg.limiter t s.bucket).1 = .granted := by
    have := hv.refill_le
    exact RateLimiter.pass_granted hv.tokens_nonneg (by linarith)
  obtain ⟨b, hb⟩ : ∃ b, RateLimiter.pass cfg.limiter t s.bucket = (.granted, b) :=
    ⟨_, Prod.ext hgranted rfl⟩
  have ht' : later ≤ t := by linarith
  simp only [invokes, exec_cons, exec_nil, step, hclock, hlater, and_self, ↓reduceIte, act, execute,
    hback, Option.map_some, Option.bind_some, le_refl, ht', and_true]
  obtain ⟨r, b', hr⟩ : ∃ r b', CircuitBreaker.allowRequest cfg.breaker later s.admissions.breaker =
    (r, b') := ⟨_, _, rfl⟩
  cases r <;> simp [Admissions.enter, Admissions.move, hidle, hr, hb]

/-- When a run leaves no call in flight, and both the recovery time and the backoff are over, the
next `execute` call invokes `fn` exactly when fewer slots than `half_open_max_calls` were lost in
the present half-open phase; and a call that has ended recorded exactly one outcome unless it
raised, a non-retryable exception or the overflow of a sleep. -/
theorem execute_unblocked_iff {t₀ : ℚ} {es : List (Event T ε)}
    (h : exec (Executor.step cfg) (created cfg t₀) es = some s) :
    (∀ d ∈ s.admissions.departed, d.recorded = 1 ↔ ∀ e, d.exit ≠ .raised e) ∧
    ∀ now later t, s.admissions.inflight = [] → s.clock ≤ now → now ≤ later →
      s.backoff.openedUntil ≤ now →
      s.admissions.breaker.openedAt + cfg.breaker.recoverySeconds ≤ later →
      later + 1 / cfg.limiter.ratePerSecond ≤ t →
      (invokes cfg s now later t = true ↔
        s.admissions.lost < cfg.breaker.halfOpenMaxCalls) := by
  have hv := reachable_valid h
  refine ⟨fun d hd => ?_, fun now later t hidle hclock hlater hback hpast ht => ?_⟩
  · rw [hv.accounted.departed d hd]
    cases d.exit <;> simp [paid]
  · rw [invokes_eq_enter hv hidle hclock hlater (by simpa using hback) ht]
    exact hv.sound.enter_iff _ hidle hpast

end Steps

/-! ### What a call is given -/

/-- What a call that has been admitted gives its caller. -/
def Exit.result : Exit T ε → Except (Raised ε) (Option T)
  | .returned value => .ok (some value)
  | .exhausted => .ok none
  | .raised e => .error e

/-- What the call that ends with a step gives its caller: `None` where a gate does not let it in,
and otherwise by how it leaves. -/
def delivers (cfg : Config ε) (s : System T ε) (e : Event T ε) :
    Option (Except (Raised ε) (Option T)) :=
  (step cfg s e).bind fun s' =>
    match e.act with
    | .execute =>
      if Backoff.allowRequest e.now s.backoff ∧
          (CircuitBreaker.allowRequest cfg.breaker e.later s.admissions.breaker).1 then none
      else some (.ok none)
    | _ => (s'.admissions.departed.drop s.admissions.departed.length).head?.map (·.exit.result)

section Delivers

variable {cfg : Config ε} {now later : ℚ} {s s' : System T ε}

theorem leave_departed {a : Admissions Phase (Exit T ε)} {i : ℕ} {t : Ticket Phase}
    (h : a.inflight[i]? = some t) (e : Exit T ε) :
    (a.leave i e).departed = a.departed ++ [⟨t.recorded, e⟩] := by
  unfold Admissions.leave
  rw [h]

theorem settle_departed {a : Admissions Phase (Exit T ε)} {i : ℕ} {t : Ticket Phase}
    (h : a.inflight[i]? = some t) (p : Phase) (b : CircuitBreaker.AsyncCircuitBreaker)
    (e : Exit T ε) :
    ((a.settle i t p b).leave i e).departed = a.departed ++ [⟨t.recorded + 1, e⟩] := by
  have hset : (a.settle i t p b).inflight[i]? = some ⟨p, false, t.recorded + 1⟩ := by
    obtain ⟨hi, -⟩ := List.getElem?_eq_some_iff.mp h
    simp [Admissions.settle, hi]
  rw [leave_departed hset]
  rfl

theorem enter_departed (cfg : CircuitBreaker.Config) (now : ℚ) (p : Phase)
    (a : Admissions Phase (Exit T ε)) : (a.enter cfg now p).2.departed = a.departed := by
  unfold Admissions.enter
  split
  · rfl
  · rfl

/-- An attempt that ends ends its call with a value, or not with one. -/
theorem finish_departed {i k : ℕ} {t : Ticket Phase} (ht : s.admissions.inflight[i]? = some t)
    (o : Outcome T ε) :
    (finish cfg now later i t k s o).admissions.departed = s.admissions.departed ∨
      ∃ d : Departure (Exit T ε),
        (finish cfg now later i t k s o).admissions.departed = s.admissions.departed ++ [d] ∧
        ∀ v, d.exit = .returned v ↔ o = .value v := by
  cases o with
  | value v =>
    refine .inr ⟨_, settle_departed ht _ _ _, fun w => ?_⟩
    simp
  | exception e =>
    unfold finish
    dsimp only
    split
    · exact .inr ⟨_, leave_departed ht _, by simp⟩
    · split
      · split
        · exact .inr ⟨_, leave_departed ht _, by simp⟩
        · exact .inl rfl
      · exact .inr ⟨_, settle_departed ht _ _ _, by simp⟩

/-- Only an attempt that ends can end a call that both gates have let in. -/
theorem departed_of_ne_finish {a : Act T ε} (ha : ∀ i o, a ≠ .finish i o)
    (h : act cfg now later s a = some s') :
    s'.admissions.departed = s.admissions.departed := by
  cases a with
  | execute =>
    simp only [act, execute, Option.some_inj] at h
    subst h
    split
    · exact enter_departed _ _ _ _
    · rfl
  | pass i =>
    obtain ⟨t, k, -, -, -, hmove | hstay⟩ := act_pass_eq_some h
    · rw [hmove]
      rfl
    · rw [hstay]
  | finish i o => exact absurd rfl (ha i o)
  | wake i =>
    obtain ⟨t, k, -, -, rfl⟩ := act_wake_eq_some h
    rfl

theorem Exit.ne_none_iff {x : Exit T ε} {r : Option T} (h : x.result = .ok r) :
    r ≠ none ↔ ∃ v, x = .returned v := by
  cases x with
  | returned v =>
    cases h
    simp
  | exhausted =>
    cases h
    simp
  | raised e => cases h

/-- A call that does not raise gives its caller a value if one of its attempts does. -/
theorem delivers_value_iff {e : Event T ε} {r : Option T}
    (h : delivers cfg s e = some (.ok r)) : r ≠ none ↔ ∃ i v, e.act = .finish i (.value v) := by
  obtain ⟨now, later, a⟩ := e
  obtain ⟨s', hstep, hs'⟩ := Option.bind_eq_some_iff.mp h
  obtain ⟨-, u, hu, rfl⟩ := step_eq_some.mp hstep
  -- A call that is still in flight is given nothing.
  have hquiet : u.admissions.departed = s.admissions.departed →
      (u.admissions.departed.drop s.admissions.departed.length).head?.map (·.exit.result) ≠
        some (.ok r) := by
    intro hd
    simp [hd]
  cases a with
  | execute =>
    simp only at hs'
    split at hs'
    · cases hs'
    · cases hs'
      simp
  | pass i => exact absurd hs' (hquiet (departed_of_ne_finish (by simp) hu))
  | wake i => exact absurd hs' (hquiet (departed_of_ne_finish (by simp) hu))
  | finish i o =>
    obtain ⟨t, k, ht, -, rfl⟩ := act_finish_eq_some hu
    rcases finish_departed ht o with hd | ⟨d, hd, hvalue⟩
    · exact absurd hs' (hquiet hd)
    · simp only [hd, List.drop_left, List.head?_cons, Option.map_some, Option.some_inj] at hs'
      rw [Exit.ne_none_iff hs']
      simp [hvalue]

end Delivers

/-! ### The executors of `scanner/gmgn_client.py` -/

/-- The exceptions that `_do_fetch_token_security` passes on. -/
inductive GmgnError
  | timeoutError
  | osError
  | jsonDecodeError
  | valueError
  deriving DecidableEq

def GmgnError.isRetryable : GmgnError → Bool
  | .timeoutError | .osError => true
  | .jsonDecodeError | .valueError => false

/-- One attempt a call, one failure to open, one probe after 30 seconds. -/
def gmgn : Config GmgnError where
  breaker := CircuitBreaker.Config.init 1 30 1
  limiter := RateLimiter.Config.init 2 5
  retryAttempts := 1
  backoffBaseSeconds := 1
  backoffMaxSeconds := 30
  isRetryable := GmgnError.isRetryable
  one_le_retryAttempts := le_rfl

/-- A timeout opens the breaker, and the answer to the probe does not parse. -/
def unparsedProbe : List (Event ℕ GmgnError) :=
  [⟨0, 0, .execute⟩, ⟨0, 0, .pass 0⟩, ⟨5, 5, .finish 0 (.exception .timeoutError)⟩,
    ⟨40, 40, .execute⟩, ⟨40, 40, .pass 0⟩, ⟨41, 41, .finish 0 (.exception .jsonDecodeError)⟩]

def afterUnparsedProbe : System ℕ GmgnError where
  clock := 41
  backoff := ⟨1, 6⟩
  bucket := ⟨4, 40⟩
  admissions :=
    ⟨⟨.halfOpen, 0, 5, 1⟩, [], 1, [⟨1, .exhausted⟩, ⟨0, .raised (.fn .jsonDecodeError)⟩]⟩

theorem exec_unparsedProbe :
    exec (step gmgn) (created gmgn 0) unparsedProbe = some afterUnparsedProbe := by
  decide +kernel

theorem execute_unblocked_unparsedProbe :
    invokes gmgn afterUnparsedProbe 100 100 200 = true ↔
      afterUnparsedProbe.admissions.lost < gmgn.breaker.halfOpenMaxCalls :=
  (execute_unblocked_iff exec_unparsedProbe).2 100 100 200 rfl (by decide +kernel)
    (by decide +kernel) (by decide +kernel) (by decide +kernel) (by decide +kernel)

/-- The lost probe blocks the executor: idle, and past both times, it does not call `fn`. -/
theorem execute_blocked :
    ¬ ∀ (cfg : Config GmgnError) (t₀ : ℚ) (es : List (Event ℕ GmgnError)) s,
      exec (step cfg) (created cfg t₀) es = some s →
      (∀ d ∈ s.admissions.departed, d.recorded = 1) ∧
      ∀ now later t, s.admissions.inflight = [] → s.clock ≤ now → now ≤ later →
        s.backoff.openedUntil ≤ now →
        s.admissions.breaker.openedAt + cfg.breaker.recoverySeconds ≤ later →
        later + 1 / cfg.limiter.ratePerSecond ≤ t → invokes cfg s now later t = true := by
  intro h
  have hnext := (h gmgn 0 unparsedProbe _ exec_unparsedProbe).2 100 100 200 rfl
    (by decide +kernel) (by decide +kernel) (by decide +kernel) (by decide +kernel)
    (by decide +kernel)
  exact absurd hnext (by decide +kernel)

end ChainMonitor.Executor
