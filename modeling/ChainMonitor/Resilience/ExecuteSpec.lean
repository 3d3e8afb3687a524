import ChainMonitor.Resilience.Executor

/-! One `execute` call of `shared/resilience/executor.py` from its first line to its end, with no
other call in between: what it returns, and what it does to the guards and to `fn`, against a
specification by the outcomes of `fn`. -/

namespace ChainMonitor.ExecuteSpec

open ProofKit Executor

variable {T ε : Type*}

/-- The parameters of the retry sleeps. -/
structure Sleeps where
  retryBaseSeconds : ℚ
  retryMaxSeconds : ℚ

/-- What a call meets: the outcome of `fn` and the draw of the jitter in each attempt, and the time
that passes, in which a sleep may last longer than asked but not shorter. -/
structure World (T ε : Type*) where
  outcome : ℕ → Outcome T ε
  jitter : ℕ → ℚ
  gateSeconds : ℚ
  fnSeconds : ℕ → ℚ
  limiterLate : ℕ → ℕ → ℚ
  retryLate : ℕ → ℚ
  recordSeconds : ℚ
  limiterLate_nonneg : ∀ attempt n, 0 ≤ limiterLate attempt n

/-- What a call does, in order. -/
inductive Effect
  | token
  | invoke
  | sleep
  | breakerSuccess
  | backoffSuccess
  | breakerFailure
  | backoffFailure
  deriving DecidableEq

/-- The clock and the shared objects, as a call finds them and leaves them. -/
structure Guards where
  clock : ℚ
  backoff : Backoff.BackoffGuard
  breaker : CircuitBreaker.AsyncCircuitBreaker
  bucket : RateLimiter.AsyncTokenBucket

/-- What a call gives its caller, what it leaves behind, and what it has done. -/
structure Report (T ε : Type*) where
  result : Except (Raised ε) (Option T)
  guards : Guards
  effects : List Effect

def Report.after (effects : List Effect) (r : Report T ε) : Report T ε :=
  { r with effects := effects ++ r.effects }

/-- The loop of `acquire`, at most `fuel` times round. -/
def acquire (cfg : RateLimiter.Config) (late : ℕ → ℚ) : ℕ → Guards → Option Guards
  | 0, _ => none
  | fuel + 1, g =>
    match RateLimiter.pass cfg g.clock g.bucket with
    | (.granted, bucket) => some { g with bucket := bucket }
    | (.sleep seconds, bucket) =>
      acquire cfg late fuel { g with bucket := bucket, clock := g.clock + seconds + late fuel }

/-- The `for` loop from attempt number `attempt` on, of which `left` are left, and what comes after
it. -/
def attempts (cfg : Config ε) (sleeps : Sleeps) (world : World T ε) (fuel : ℕ) :
    ℕ → ℕ → Guards → Option (Report T ε)
  | 0, _, g =>
    let breaker := CircuitBreaker.recordFailure cfg.breaker g.clock g.breaker
    let later := g.clock + world.recordSeconds
    let backoff :=
      Backoff.recordFailure later cfg.backoffBaseSeconds cfg.backoffMaxSeconds g.backoff
    some ⟨.ok none, { g with clock := later, breaker := breaker, backoff := backoff },
      [.breakerFailure, .backoffFailure]⟩
  | left + 1, attempt, g =>
    (acquire cfg.limiter (world.limiterLate attempt) fuel g).bind fun acquired =>
      let g : Guards := { acquired with clock := acquired.clock + world.fnSeconds attempt }
      match world.outcome attempt with
      | .value v =>
        let breaker := CircuitBreaker.recordSuccess g.breaker
        let backoff := Backoff.recordSuccess g.backoff
        some ⟨.ok (some v), { g with breaker := breaker, backoff := backoff },
          [.token, .invoke, .breakerSuccess, .backoffSuccess]⟩
      | .exception e =>
        if !cfg.isRetryable e then some ⟨.error (.fn e), g, [.token, .invoke]⟩
        else if attempt < cfg.retryAttempts then
          match Retry.retrySleepSeconds attempt sleeps.retryBaseSeconds sleeps.retryMaxSeconds
              (world.jitter attempt) with
          | .error e => some ⟨.error (.sleep e), g, [.token, .invoke]⟩
          | .ok seconds =>
            (attempts cfg sleeps world fuel left (attempt + 1)
              { g with clock := g.clock + seconds + world.retryLate attempt }).map
              (Report.after [.token, .invoke, .sleep])
        else
          (attempts cfg sleeps world fuel left (attempt + 1) g).map (Report.after [.token, .invoke])

def execute (cfg : Config ε) (sleeps : Sleeps) (world : World T ε) (fuel : ℕ) (g : Guards) :
    Option (Report T ε) :=
  if !Backoff.allowRequest g.clock g.backoff then some ⟨.ok none, g, []⟩
  else
    let g : Guards := { g with clock := g.clock + world.gateSeconds }
    match CircuitBreaker.allowRequest cfg.breaker g.clock g.breaker with
    | (false, breaker) => some ⟨.ok none, { g with breaker := breaker }, []⟩
    | (true, breaker) =>
      attempts cfg sleeps world fuel cfg.retryAttempts 1 { g with breaker := breaker }

/-! ### The specification -/

/-- Both gates let the call in. -/
def Admits (cfg : Config ε) (world : World T ε) (g : Guards) : Prop :=
  Backoff.allowRequest g.clock g.backoff = true ∧
    (CircuitBreaker.allowRequest cfg.breaker (g.clock + world.gateSeconds) g.breaker).1 = true

/-- The breaker as the gate leaves it. -/
def gated (cfg : Config ε) (world : World T ε) (g : Guards) : CircuitBreaker.AsyncCircuitBreaker :=
  (CircuitBreaker.allowRequest cfg.breaker (g.clock + world.gateSeconds) g.breaker).2

/-- `fn` raises a retryable exception in the attempt. -/
def Retried (cfg : Config ε) (world : World T ε) (attempt : ℕ) : Prop :=
  ∃ e, world.outcome attempt = .exception e ∧ cfg.isRetryable e = true

/-- `n` attempts, each with a sleep after it. -/
def retries (n : ℕ) : List Effect := (List.replicate n [.token, .invoke, .sleep]).flatten

/-- `n` attempts, with a sleep between two of them. -/
def tries (n : ℕ) : List Effect := retries (n - 1) ++ [.token, .invoke]

/-- The first `k - 1` attempts are retried. -/
def RetriedBefore (cfg : Config ε) (world : World T ε) (k : ℕ) : Prop :=
  1 ≤ k ∧ k ≤ cfg.retryAttempts ∧ ∀ j, 1 ≤ j → j < k → Retried cfg world j

/-- What a report must say of the call. -/
structure Refines (cfg : Config ε) (world : World T ε) (g : Guards) (r : Report T ε) : Prop where
  invokes : .invoke ∈ r.effects ↔ Admits cfg world g
  tokens : r.effects.count .token = r.effects.count .invoke
  sleeps : Admits cfg world g → r.effects.count .sleep + 1 = r.effects.count .invoke
  refused : ¬Admits cfg world g → r.result = .ok none ∧ r.effects = [] ∧
    r.guards.backoff = g.backoff ∧ r.guards.bucket = g.bucket ∧ r.guards.breaker = g.breaker
  returned : ∀ k v, Admits cfg world g → RetriedBefore cfg world k → world.outcome k = .value v →
    r.result = .ok (some v) ∧ r.effects = tries k ++ [.breakerSuccess, .backoffSuccess] ∧
    r.guards.breaker = CircuitBreaker.recordSuccess (gated cfg world g) ∧
    r.guards.backoff = Backoff.recordSuccess g.backoff
  raised : ∀ k e, Admits cfg world g → RetriedBefore cfg world k →
    world.outcome k = .exception e → cfg.isRetryable e = false →
    r.result = .error (.fn e) ∧ r.effects = tries k ∧
    r.guards.breaker = gated cfg world g ∧ r.guards.backoff = g.backoff
  exhausted : Admits cfg world g → (∀ j, 1 ≤ j → j ≤ cfg.retryAttempts → Retried cfg world j) →
    r.result = .ok none ∧
    r.effects = tries cfg.retryAttempts ++ [.breakerFailure, .backoffFailure] ∧
    ∃ now, r.guards.clock = now + world.recordSeconds ∧
      r.guards.breaker = CircuitBreaker.recordFailure cfg.breaker now (gated cfg world g) ∧
      r.guards.backoff = Backoff.recordFailure r.guards.clock cfg.backoffBaseSeconds
        cfg.backoffMaxSeconds g.backoff

/-! ### The limiter -/

/-- Breaker and backoff are as before. -/
structure Untouched (g g' : Guards) : Prop where
  breaker : g'.breaker = g.breaker
  backoff : g'.backoff = g.backoff

theorem Untouched.trans {g g' g'' : Guards} (h : Untouched g g') (h' : Untouched g' g'') :
    Untouched g g'' :=
  ⟨h'.breaker.trans h.breaker, h'.backoff.trans h.backoff⟩

section Limiter

variable {cfg : RateLimiter.Config} {late : ℕ → ℚ}

/-- The sleep that a pass asks for is long enough for the next one. -/
theorem pass_after_sleep {now seconds t : ℚ} {b b' : RateLimiter.AsyncTokenBucket}
    (h : RateLimiter.pass cfg now b = (.sleep seconds, b')) (ht : now + seconds ≤ t) :
    (RateLimiter.pass cfg t b').1 = .granted := by
  have hrate := cfg.rate_pos
  rcases RateLimiter.pass_cases cfg now b with ⟨-, he⟩ | ⟨hlt, he⟩
  · rw [he] at h
    cases h
  · rw [he] at h
    cases h
    have hseconds : (1 - RateLimiter.refilled cfg now b) / cfg.ratePerSecond ≤ t - now := by
      have := le_max_right (1 / 1000) ((1 - RateLimiter.refilled cfg now b) / cfg.ratePerSecond)
      linarith
    rw [div_le_iff₀ hrate] at hseconds
    have hpos : 0 ≤ t - now := by
      have := le_max_left (1 / 1000) ((1 - RateLimiter.refilled cfg now b) / cfg.ratePerSecond)
      linarith
    have hfull : 1 ≤ RateLimiter.refilled cfg t ⟨RateLimiter.refilled cfg now b, now⟩ := by
      apply le_min cfg.one_le_capacity
      dsimp only
      rw [max_eq_right hpos]
      linarith
    rcases RateLimiter.pass_cases cfg t ⟨RateLimiter.refilled cfg now b, now⟩ with
      ⟨-, hgranted⟩ | ⟨hless, -⟩
    · rw [hgranted]
    · exact absurd hfull (not_le.mpr hless)

theorem acquire_succ (n : ℕ) (g : Guards) : acquire cfg late (n + 1) g =
    match RateLimiter.pass cfg g.clock g.bucket with
    | (.granted, bucket) => some { g with bucket := bucket }
    | (.sleep seconds, bucket) =>
      acquire cfg late n { g with bucket := bucket, clock := g.clock + seconds + late n } := by
  rfl

theorem acquire_of_granted {n : ℕ} {g : Guards} {b : RateLimiter.AsyncTokenBucket}
    (h : RateLimiter.pass cfg g.clock g.bucket = (.granted, b)) :
    acquire cfg late (n + 1) g = some { g with bucket := b } := by
  rw [acquire_succ, h]

theorem acquire_of_sleep {n : ℕ} {g : Guards} {seconds : ℚ} {b : RateLimiter.AsyncTokenBucket}
    (h : RateLimiter.pass cfg g.clock g.bucket = (.sleep seconds, b)) :
    acquire cfg late (n + 1) g =
      acquire cfg late n { g with bucket := b, clock := g.clock + seconds + late n } := by
  rw [acquire_succ, h]

/-- `acquire` takes its token in the second pass at the latest. -/
theorem acquire_eq_some (hlate : ∀ n, 0 ≤ late n) {fuel : ℕ} (hfuel : 2 ≤ fuel) (g : Guards) :
    ∃ g', acquire cfg late fuel g = some g' ∧ Untouched g g' := by
  obtain ⟨n, rfl⟩ := Nat.exists_eq_add_of_le' hfuel
  cases hpass : RateLimiter.pass cfg g.clock g.bucket with
  | mk p b =>
    cases p with
    | granted => exact ⟨_, acquire_of_granted hpass, rfl, rfl⟩
    | sleep seconds =>
      have hlate := hlate (n + 1)
      have hgranted := pass_after_sleep hpass
        (show g.clock + seconds ≤ g.clock + seconds + late (n + 1) by linarith)
      rw [acquire_of_sleep hpass]
      cases hnext : RateLimiter.pass cfg (g.clock + seconds + late (n + 1)) b with
      | mk p' b' =>
        rw [hnext] at hgranted
        obtain rfl : p' = .granted := hgranted
        exact ⟨_, acquire_of_granted hnext, rfl, rfl⟩

end Limiter

/-! ### The attempts -/

section Attempts

variable {cfg : Config ε} {world : World T ε} {fuel k : ℕ} (sleeps : Sleeps) (left : ℕ) (g : Guards)

theorem not_retried_iff : ¬Retried cfg world k ↔ (∃ v, world.outcome k = .value v) ∨
    ∃ e, world.outcome k = .exception e ∧ cfg.isRetryable e = false := by
  unfold Retried
  cases world.outcome k with
  | value v => simp
  | exception e => simp

/-- An attempt that is retried, up to the next one. -/
theorem attempts_retried (hfuel : 2 ≤ fuel) (h : Retried cfg world k) (hk : k < cfg.retryAttempts)
    (hsmall : k ≤ 1024) : ∃ g', Untouched g g' ∧
      attempts cfg sleeps world fuel (left + 1) k g =
        (attempts cfg sleeps world fuel left (k + 1) g').map
          (Report.after [.token, .invoke, .sleep]) := by
  obtain ⟨g', hacquired, hsame⟩ := acquire_eq_some (world.limiterLate_nonneg k) hfuel g
  obtain ⟨e, he, hretryable⟩ := h
  rw [attempts, hacquired, Option.bind_some]
  dsimp only
  simp only [he, hretryable, Bool.not_true, Bool.false_eq_true, ↓reduceIte, hk,
    Retry.retrySleepSeconds_of_le hsmall]
  refine ⟨_, ?_, rfl⟩
  exact hsame.trans ⟨rfl, rfl⟩

/-- The attempts before the one that settles the call. -/
theorem attempts_prefix (hfuel : 2 ≤ fuel) (n : ℕ)
    (h : ∀ j, k ≤ j → j < k + n → Retried cfg world j) (hn : k + n ≤ cfg.retryAttempts)
    (hsmall : k + n ≤ 1025) : ∃ g', Untouched g g' ∧
      attempts cfg sleeps world fuel (left + n) k g =
        (attempts cfg sleeps world fuel left (k + n) g').map (Report.after (retries n)) := by
  induction n generalizing k g with
  | zero =>
    refine ⟨g, ⟨rfl, rfl⟩, ?_⟩
    have hid : (Report.after (retries 0) : Report T ε → Report T ε) = id := rfl
    rw [hid, Option.map_id]
    rfl
  | succ n ih =>
    obtain ⟨g₁, hsame, hfirst⟩ := attempts_retried sleeps (left + n) g hfuel
      (h k le_rfl (by omega)) (by omega) (by omega)
    obtain ⟨g₂, hsame', hrest⟩ :=
      ih (k := k + 1) g₁ (fun j hj hlt => h j (by omega) (by omega)) (by omega) (by omega)
    refine ⟨g₂, hsame.trans hsame', ?_⟩
    rw [← Nat.add_assoc, hfirst, hrest, Option.map_map, Nat.add_right_comm k 1 n, Nat.add_assoc k n]
    congr 1

theorem attempts_returned (hfuel : 2 ≤ fuel) {v : T} (h : world.outcome k = .value v) :
    ∃ g', Untouched g g' ∧ attempts cfg sleeps world fuel (left + 1) k g =
      some ⟨.ok (some v), { g' with
        breaker := CircuitBreaker.recordSuccess g'.breaker
        backoff := Backoff.recordSuccess g'.backoff },
        [.token, .invoke, .breakerSuccess, .backoffSuccess]⟩ := by
  obtain ⟨g', hacquired, hsame⟩ := acquire_eq_some (world.limiterLate_nonneg k) hfuel g
  rw [attempts, hacquired, Option.bind_some]
  dsimp only
  rw [h]
  exact ⟨{ g' with clock := g'.clock + world.fnSeconds k }, hsame.trans ⟨rfl, rfl⟩, rfl⟩

theorem attempts_raised (hfuel : 2 ≤ fuel) {e : ε} (h : world.outcome k = .exception e)
    (hretryable : cfg.isRetryable e = false) :
    ∃ g', Untouched g g' ∧ attempts cfg sleeps world fuel (left + 1) k g =
      some ⟨.error (.fn e), g', [.token, .invoke]⟩ := by
  obtain ⟨g', hacquired, hsame⟩ := acquire_eq_some (world.limiterLate_nonneg k) hfuel g
  rw [attempts, hacquired, Option.bind_some]
  dsimp only
  simp only [h, hretryable, Bool.not_false, ↓reduceIte]
  refine ⟨_, ?_, rfl⟩
  exact hsame.trans ⟨rfl, rfl⟩

/-- The sleep after attempt 1025 is not computed. -/
theorem attempts_overflow (hfuel : 2 ≤ fuel) (h : Retried cfg world k) (hk : k < cfg.retryAttempts)
    (hlarge : 1024 < k) : ∃ g', attempts cfg sleeps world fuel (left + 1) k g =
      some ⟨.error (.sleep .overflowError), g', [.token, .invoke]⟩ := by
  obtain ⟨g', hacquired, hsame⟩ := acquire_eq_some (world.limiterLate_nonneg k) hfuel g
  obtain ⟨e, he, hretryable⟩ := h
  rw [attempts, hacquired, Option.bind_some]
  dsimp only
  simp only [he, hretryable, Bool.not_true, Bool.false_eq_true, ↓reduceIte, hk,
    Retry.retrySleepSeconds_of_gt hlarge]
  exact ⟨_, rfl⟩

/-- The last attempt, and the records after the loop. -/
theorem attempts_exhausted (hfuel : 2 ≤ fuel) (h : Retried cfg world cfg.retryAttempts) :
    ∃ g', Untouched g g' ∧ attempts cfg sleeps world fuel 1 cfg.retryAttempts g =
      some ⟨.ok none, { g' with
        clock := g'.clock + world.recordSeconds
        breaker := CircuitBreaker.recordFailure cfg.breaker g'.clock g'.breaker
        backoff := Backoff.recordFailure (g'.clock + world.recordSeconds) cfg.backoffBaseSeconds
          cfg.backoffMaxSeconds g'.backoff },
        [.token, .invoke, .breakerFailure, .backoffFailure]⟩ := by
  obtain ⟨g', hacquired, hsame⟩ :=
    acquire_eq_some (world.limiterLate_nonneg cfg.retryAttempts) hfuel g
  obtain ⟨e, he, hretryable⟩ := h
  rw [attempts, hacquired, Option.bind_some]
  dsimp only
  simp only [he, hretryable, Bool.not_true, Bool.false_eq_true, ↓reduceIte, lt_self_iff_false]
  exact ⟨{ g' with clock := g'.clock + world.fnSeconds cfg.retryAttempts },
    hsame.trans ⟨rfl, rfl⟩, rfl⟩

end Attempts

/-! ### The report -/

section Reports

variable {cfg : Config ε} {world : World T ε} {k k' : ℕ} {g g' : Guards} {r : Report T ε}

theorem count_retries (n : ℕ) : (retries n).count .token = n ∧ (retries n).count .invoke = n ∧
    (retries n).count .sleep = n := by
  induction n with
  | zero => exact ⟨rfl, rfl, rfl⟩
  | succ n ih =>
    obtain ⟨htoken, hinvoke, hsleep⟩ := ih
    have hsucc : retries (n + 1) = [.token, .invoke, .sleep] ++ retries n := rfl
    simp [hsucc, htoken, hinvoke, hsleep]

/-- The counts that the specification asks for, with records of any kind at the end. -/
theorem count_tries (k : ℕ) {records : List Effect}
    (h : ∀ x ∈ records, x ≠ .token ∧ x ≠ .invoke ∧ x ≠ .sleep) :
    .invoke ∈ tries k ++ records ∧
      (tries k ++ records).count .token = (tries k ++ records).count .invoke ∧
      (tries k ++ records).count .sleep + 1 = (tries k ++ records).count .invoke := by
  obtain ⟨htoken, hinvoke, hsleep⟩ := count_retries (k - 1)
  have hnone : ∀ x, (x = .token ∨ x = .invoke ∨ x = .sleep) → records.count x = 0 := by
    intro x hx
    rw [List.count_eq_zero]
    intro hmem
    obtain ⟨h₁, h₂, h₃⟩ := h x hmem
    rcases hx with hx | hx | hx
    · exact h₁ hx
    · exact h₂ hx
    · exact h₃ hx
  simp [tries, List.count_append, htoken, hinvoke, hsleep, hnone]

/-- Only one attempt settles a call. -/
theorem settled_unique (h : RetriedBefore cfg world k) (h' : RetriedBefore cfg world k')
    (hk : ¬Retried cfg world k) (hk' : ¬Retried cfg world k') : k = k' := by
  rcases lt_trichotomy k k' with hlt | rfl | hlt
  · exact absurd (h'.2.2 k h.1 hlt) hk
  · rfl
  · exact absurd (h.2.2 k' h'.1 hlt) hk'

theorem settled_or (cfg : Config ε) (world : World T ε) :
    (∃ k, RetriedBefore cfg world k ∧ ¬Retried cfg world k) ∨
      ∀ j, 1 ≤ j → j ≤ cfg.retryAttempts → Retried cfg world j := by
  by_contra hneither
  rw [not_or] at hneither
  obtain ⟨hnone, hsome⟩ := hneither
  apply hsome
  intro j
  induction j using Nat.strong_induction_on with
  | _ j ih =>
    intro hj hle
    by_contra hnot
    exact hnone ⟨j, ⟨hj, hle, fun i hi hlt => ih i hlt hi (by omega)⟩, hnot⟩

theorem refines_of_refused (h : ¬Admits cfg world g) (hresult : r.result = .ok none)
    (heffects : r.effects = []) (hbackoff : r.guards.backoff = g.backoff)
    (hbucket : r.guards.bucket = g.bucket) (hbreaker : r.guards.breaker = g.breaker) :
    Refines cfg world g r where
  invokes := by simp [heffects, h]
  tokens := by simp [heffects]
  sleeps hadmits := absurd hadmits h
  refused _ := ⟨hresult, heffects, hbackoff, hbucket, hbreaker⟩
  returned _ _ hadmits := absurd hadmits h
  raised _ _ hadmits := absurd hadmits h
  exhausted hadmits := absurd hadmits h

/-- A call that is let in and settled by attempt `k`. -/
theorem refines_of_settled (records : List Effect) (hadmits : Admits cfg world g)
    (hk : RetriedBefore cfg world k) (hnot : ¬Retried cfg world k)
    (hrecords : ∀ x ∈ records, x ≠ .token ∧ x ≠ .invoke ∧ x ≠ .sleep)
    (heffects : r.effects = tries k ++ records)
    (hvalue : ∀ v, world.outcome k = .value v → r.result = .ok (some v) ∧
      records = [.breakerSuccess, .backoffSuccess] ∧
      r.guards.breaker = CircuitBreaker.recordSuccess (gated cfg world g) ∧
      r.guards.backoff = Backoff.recordSuccess g.backoff)
    (hraised : ∀ e, world.outcome k = .exception e → r.result = .error (.fn e) ∧ records = [] ∧
      r.guards.breaker = gated cfg world g ∧ r.guards.backoff = g.backoff) :
    Refines cfg world g r := by
  obtain ⟨hinvoke, htoken, hsleep⟩ := count_tries k hrecords
  rw [← heffects] at hinvoke htoken hsleep
  have hsame : ∀ {k'}, RetriedBefore cfg world k' → ¬Retried cfg world k' → k' = k :=
    fun h h' => settled_unique h hk h' hnot
  refine ⟨iff_of_true hinvoke hadmits, htoken, fun _ => hsleep, fun h => absurd hadmits h, ?_, ?_,
    ?_⟩
  · intro k' v _ hk' hv
    obtain rfl := hsame hk' (not_retried_iff.mpr (.inl ⟨v, hv⟩))
    obtain ⟨hresult, rfl, hbreaker, hbackoff⟩ := hvalue v hv
    exact ⟨hresult, heffects, hbreaker, hbackoff⟩
  · intro k' e _ hk' he hretryable
    obtain rfl := hsame hk' (not_retried_iff.mpr (.inr ⟨e, he, hretryable⟩))
    obtain ⟨hresult, rfl, hbreaker, hbackoff⟩ := hraised e he
    rw [List.append_nil] at heffects
    exact ⟨hresult, heffects, hbreaker, hbackoff⟩
  · intro _ hall
    exact absurd (hall k hk.1 hk.2.1) hnot

theorem refines_of_exhausted (now : ℚ) (hadmits : Admits cfg world g)
    (hall : ∀ j, 1 ≤ j → j ≤ cfg.retryAttempts → Retried cfg world j)
    (hresult : r.result = .ok none)
    (heffects : r.effects = tries cfg.retryAttempts ++ [.breakerFailure, .backoffFailure])
    (hclock : r.guards.clock = now + world.recordSeconds)
    (hbreaker : r.guards.breaker =
      CircuitBreaker.recordFailure cfg.breaker now (gated cfg world g))
    (hbackoff : r.guards.backoff = Backoff.recordFailure r.guards.clock cfg.backoffBaseSeconds
      cfg.backoffMaxSeconds g.backoff) : Refines cfg world g r := by
  have hrecords : ∀ x ∈ [Effect.breakerFailure, .backoffFailure],
      x ≠ .token ∧ x ≠ .invoke ∧ x ≠ .sleep := by simp
  obtain ⟨hinvoke, htoken, hsleep⟩ := count_tries cfg.retryAttempts hrecords
  rw [← heffects] at hinvoke htoken hsleep
  have hretried : ∀ {k}, RetriedBefore cfg world k → Retried cfg world k :=
    fun hk => hall _ hk.1 hk.2.1
  refine ⟨iff_of_true hinvoke hadmits, htoken, fun _ => hsleep, fun h => absurd hadmits h, ?_, ?_,
    fun _ _ => ⟨hresult, heffects, now, hclock, hbreaker, hbackoff⟩⟩
  · intro k v _ hk hv
    exact absurd (hretried hk) (not_retried_iff.mpr (.inl ⟨v, hv⟩))
  · intro k e _ hk he hretryable
    exact absurd (hretried hk) (not_retried_iff.mpr (.inr ⟨e, he, hretryable⟩))

/-- A call that is let in does not end in an exception of the sleep. -/
theorem Refines.result_ne_sleep (h : Refines cfg world g r) (hadmits : Admits cfg world g)
    (e : PyError) : r.result ≠ .error (.sleep e) := by
  rcases settled_or cfg world with ⟨k, hk, hnot⟩ | hall
  · rcases not_retried_iff.mp hnot with ⟨v, hv⟩ | ⟨x, hx, hretryable⟩
    · rw [(h.returned k v hadmits hk hv).1]
      exact nofun
    · rw [(h.raised k x hadmits hk hx hretryable).1]
      simp
  · rw [(h.exhausted hadmits hall).1]
    exact nofun

end Reports

section Execute

variable {cfg : Config ε} {world : World T ε} {fuel : ℕ} (sleeps : Sleeps) (g : Guards)

/-- The state in which the loop over the attempts starts. -/
def entered (cfg : Config ε) (world : World T ε) (g : Guards) : Guards :=
  { g with clock := g.clock + world.gateSeconds, breaker := gated cfg world g }

theorem execute_of_admits (h : Admits cfg world g) : execute cfg sleeps world fuel g =
    attempts cfg sleeps world fuel cfg.retryAttempts 1 (entered cfg world g) := by
  obtain ⟨hbackoff, hbreaker⟩ := h
  unfold execute entered gated
  rw [hbackoff]
  dsimp only
  cases hgate : CircuitBreaker.allowRequest cfg.breaker (g.clock + world.gateSeconds) g.breaker with
  | mk allowed breaker =>
    rw [hgate] at hbreaker
    obtain rfl : allowed = true := hbreaker
    rfl

/-- A call that is not let in leaves everything but the clock as it is. -/
theorem execute_of_refused (h : ¬Admits cfg world g) :
    ∃ r, execute cfg sleeps world fuel g = some r ∧ Refines cfg world g r := by
  unfold execute
  cases hbackoff : Backoff.allowRequest g.clock g.backoff with
  | false => exact ⟨_, rfl, refines_of_refused h rfl rfl rfl rfl rfl⟩
  | true =>
    rw [if_neg (by decide)]
    dsimp only
    rcases CircuitBreaker.allowRequest_cases cfg.breaker (g.clock + world.gateSeconds)
      g.breaker with ⟨-, he⟩ | ⟨-, he⟩ | ⟨-, -, he⟩ | ⟨-, -, he⟩
    · exact absurd ⟨hbackoff, by rw [he]⟩ h
    · rw [he]
      exact ⟨_, rfl, refines_of_refused h rfl rfl rfl rfl rfl⟩
    · exact absurd ⟨hbackoff, by rw [he]⟩ h
    · exact absurd ⟨hbackoff, by rw [he]⟩ h

/-- The first 1025 attempts of a call that is let in are retried, and there are more. -/
def Overflows (cfg : Config ε) (world : World T ε) (g : Guards) : Prop :=
  Admits cfg world g ∧ 1025 < cfg.retryAttempts ∧ ∀ j, 1 ≤ j → j ≤ 1025 → Retried cfg world j

/-- The attempts before attempt `k`, for a call that is let in. -/
theorem execute_prefix (hfuel : 2 ≤ fuel) (h : Admits cfg world g) {k : ℕ}
    (hk : RetriedBefore cfg world k) (hsmall : k ≤ 1025) :
    ∃ g', Untouched (entered cfg world g) g' ∧ execute cfg sleeps world fuel g =
      (attempts cfg sleeps world fuel (cfg.retryAttempts - k + 1) k g').map
        (Report.after (retries (k - 1))) := by
  obtain ⟨hpos, hle, hretried⟩ := hk
  obtain ⟨g', hsame, hprefix⟩ := attempts_prefix (k := 1) sleeps (cfg.retryAttempts - k + 1)
    (entered cfg world g) hfuel (k - 1) (fun j hj hlt => hretried j hj (by omega)) (by omega)
    (by omega)
  have hleft : cfg.retryAttempts - k + 1 + (k - 1) = cfg.retryAttempts := by omega
  have hnext : 1 + (k - 1) = k := by omega
  rw [hleft, hnext] at hprefix
  exact ⟨g', hsame, (execute_of_admits sleeps g h).trans hprefix⟩

theorem execute_of_overflows (hfuel : 2 ≤ fuel) (h : Overflows cfg world g) :
    ∃ r, execute cfg sleeps world fuel g = some r ∧
      r.result = .error (.sleep .overflowError) := by
  obtain ⟨hadmits, hmany, hall⟩ := h
  obtain ⟨g', -, hexecute⟩ := execute_prefix sleeps g hfuel hadmits
    (show RetriedBefore cfg world 1025 from ⟨by omega, by omega, fun j hj hlt => hall j hj hlt.le⟩)
    le_rfl
  obtain ⟨g'', hattempts⟩ := attempts_overflow sleeps (cfg.retryAttempts - 1025) g' hfuel
    (hall 1025 (by omega) le_rfl) hmany (by omega)
  rw [hattempts] at hexecute
  exact ⟨_, hexecute, rfl⟩

theorem execute_of_settled (hfuel : 2 ≤ fuel) (hadmits : Admits cfg world g) {k : ℕ}
    (hk : RetriedBefore cfg world k) (hnot : ¬Retried cfg world k) (hsmall : k ≤ 1025) :
    ∃ r, execute cfg sleeps world fuel g = some r ∧ Refines cfg world g r := by
  obtain ⟨g', hsame, hexecute⟩ := execute_prefix sleeps g hfuel hadmits hk hsmall
  rcases not_retried_iff.mp hnot with ⟨v, hv⟩ | ⟨e, he, hretryable⟩
  · obtain ⟨g'', hsame', hattempts⟩ :=
      attempts_returned sleeps (cfg.retryAttempts - k) g' hfuel hv
    obtain ⟨hbreaker, hbackoff⟩ := hsame.trans hsame'
    rw [hattempts] at hexecute
    refine ⟨_, hexecute, refines_of_settled [.breakerSuccess, .backoffSuccess] hadmits hk
      hnot (by simp) ?_ ?_ ?_⟩
    · simp [Report.after, tries]
    · intro w hw
      obtain rfl : v = w := Outcome.value.inj (hv.symm.trans hw)
      exact ⟨rfl, rfl, congrArg CircuitBreaker.recordSuccess hbreaker, rfl⟩
    · intro e he
      rw [hv] at he
      cases he
  · obtain ⟨g'', hsame', hattempts⟩ :=
      attempts_raised sleeps (cfg.retryAttempts - k) g' hfuel he hretryable
    obtain ⟨hbreaker, hbackoff⟩ := hsame.trans hsame'
    rw [hattempts] at hexecute
    refine ⟨_, hexecute, refines_of_settled [] hadmits hk hnot (by simp) ?_ ?_ ?_⟩
    · simp [Report.after, tries]
    · intro v hv
      rw [he] at hv
      cases hv
    · intro x hx
      obtain rfl : e = x := Outcome.exception.inj (he.symm.trans hx)
      exact ⟨rfl, rfl, hbreaker, hbackoff⟩

theorem execute_of_exhausted (hfuel : 2 ≤ fuel) (hadmits : Admits cfg world g)
    (hall : ∀ j, 1 ≤ j → j ≤ cfg.retryAttempts → Retried cfg world j)
    (hsmall : cfg.retryAttempts ≤ 1025) :
    ∃ r, execute cfg sleeps world fuel g = some r ∧ Refines cfg world g r := by
  have hpos := cfg.one_le_retryAttempts
  obtain ⟨g', hsame, hexecute⟩ := execute_prefix sleeps g hfuel hadmits
    (show RetriedBefore cfg world cfg.retryAttempts from
      ⟨hpos, le_rfl, fun j hj hlt => hall j hj hlt.le⟩) hsmall
  obtain ⟨g'', hsame', hattempts⟩ :=
    attempts_exhausted sleeps g' hfuel (hall _ hpos le_rfl)
  obtain ⟨hbreaker, hbackoff⟩ := hsame.trans hsame'
  rw [Nat.sub_self, Nat.zero_add, hattempts] at hexecute
  refine ⟨_, hexecute, refines_of_exhausted g''.clock hadmits hall rfl ?_ rfl ?_ ?_⟩
  · simp [Report.after, tries]
  · show CircuitBreaker.recordFailure cfg.breaker g''.clock g''.breaker = _
    rw [hbreaker]
    rfl
  · show Backoff.recordFailure _ _ _ g''.backoff = _
    rw [hbackoff]
    rfl

/-- A call ends, and in the way that is specified unless it has to sleep after attempt 1025. -/
theorem execute_refines_iff (hfuel : 2 ≤ fuel) :
    ∃ r, execute cfg sleeps world fuel g = some r ∧
      (Refines cfg world g r ↔ ¬Overflows cfg world g) := by
  by_cases hover : Overflows cfg world g
  · obtain ⟨r, hexecute, hresult⟩ := execute_of_overflows sleeps g hfuel hover
    refine ⟨r, hexecute, iff_of_false ?_ (not_not.mpr hover)⟩
    exact fun hrefines => hrefines.result_ne_sleep hover.1 _ hresult
  · have hrefines : ∃ r, execute cfg sleeps world fuel g = some r ∧ Refines cfg world g r := by
      by_cases hadmits : Admits cfg world g
      · have hfew : ¬(1025 < cfg.retryAttempts ∧ ∀ j, 1 ≤ j → j ≤ 1025 → Retried cfg world j) :=
          fun h => hover ⟨hadmits, h⟩
        rcases settled_or cfg world with ⟨k, hk, hnot⟩ | hall
        · refine execute_of_settled sleeps g hfuel hadmits hk hnot ?_
          by_contra hlarge
          obtain ⟨-, hle, hretried⟩ := hk
          exact hfew ⟨by omega, fun j hj hsmall => hretried j hj (by omega)⟩
        · refine execute_of_exhausted sleeps g hfuel hadmits hall ?_
          by_contra hlarge
          exact hfew ⟨by omega, fun j hj hsmall => hall j hj (by omega)⟩
      · exact execute_of_refused sleeps g hadmits
    obtain ⟨r, hexecute, hrefines⟩ := hrefines
    exact ⟨r, hexecute, iff_of_true hrefines hover⟩

end Execute

/-- A world in which every attempt has the same outcome, and no time passes. -/
def constant (o : Outcome T ε) : World T ε where
  outcome _ := o
  jitter _ := 0
  gateSeconds := 0
  fnSeconds _ := 0
  limiterLate _ _ := 0
  retryLate _ := 0
  recordSeconds := 0
  limiterLate_nonneg _ _ := le_rfl

def fresh (cfg : Config ε) : Guards :=
  ⟨0, Backoff.init, CircuitBreaker.init, RateLimiter.init cfg.limiter 0⟩

theorem execute_refines_answered :
    ∃ r, execute gmgn ⟨1, 30⟩ (constant (.value 7)) 2 (fresh gmgn) = some r ∧
      (Refines gmgn (constant (.value 7)) (fresh gmgn) r ↔
        ¬Overflows gmgn (constant (.value 7)) (fresh gmgn)) :=
  execute_refines_iff ⟨1, 30⟩ (fresh gmgn) le_rfl

/-- An executor that would try 1026 times. -/
def gmgnStubborn : Config GmgnError :=
  { gmgn with retryAttempts := 1026, one_le_retryAttempts := by decide }

/-- `fn` always times out: the call ends after attempt 1025, in an exception of its own. -/
theorem sleep_raises :
    ¬∀ (cfg : Config GmgnError) (sleeps : Sleeps) (world : World ℕ GmgnError) (fuel : ℕ)
      (g : Guards), 2 ≤ fuel →
      ∃ r, execute cfg sleeps world fuel g = some r ∧ Refines cfg world g r := by
  intro hall
  have hadmits : Admits gmgnStubborn (constant (.exception .timeoutError) : World ℕ GmgnError)
      (fresh gmgnStubborn) := by
    constructor <;> decide +kernel
  have hover : Overflows gmgnStubborn (constant (.exception .timeoutError) : World ℕ GmgnError)
      (fresh gmgnStubborn) :=
    ⟨hadmits, by decide, fun j _ _ => ⟨.timeoutError, rfl, rfl⟩⟩
  obtain ⟨r, hexecute, hresult⟩ := execute_of_overflows ⟨1, 30⟩ _ le_rfl hover
  obtain ⟨r', hexecute', hrefines⟩ := hall gmgnStubborn ⟨1, 30⟩ _ 2 _ le_rfl
  obtain rfl := Option.some.inj (hexecute.symm.trans hexecute')
  exact hrefines.result_ne_sleep hadmits _ hresult

end ChainMonitor.ExecuteSpec
