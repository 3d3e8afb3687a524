import ChainMonitor.Resilience.CircuitBreaker

/-! Runs of one circuit breaker under any number of callers: `allow_request`, `record_success` and
`record_failure` in any order, whether or not an outcome matches the state that the breaker was in
when its request was admitted. -/

namespace ChainMonitor.CircuitBreaker

open ProofKit

inductive Call
  | allowRequest
  | recordSuccess
  | recordFailure
  deriving DecidableEq, Repr

def after (cfg : Config) (b : AsyncCircuitBreaker) (now : ℚ) : Call → AsyncCircuitBreaker
  | .allowRequest => (allowRequest cfg now b).2
  | .recordSuccess => recordSuccess b
  | .recordFailure => recordFailure cfg now b

/-- A call on a breaker under a clock that does not go back. -/
def call (cfg : Config) :
    Clocked ℚ AsyncCircuitBreaker → Stamped ℚ Call → Option (Clocked ℚ AsyncCircuitBreaker) :=
  clocked fun b now c => some (after cfg b now c)

def created (t : ℚ) : Clocked ℚ AsyncCircuitBreaker := ⟨t, init⟩

/-- A count of failures that starts again at each success, after one more call. -/
def tally (n : ℕ) : Call → ℕ
  | .allowRequest => n
  | .recordSuccess => 0
  | .recordFailure => n + 1

/-- The failures among `calls` since the last success, or since the creation. -/
def failuresSinceSuccess (calls : List (Stamped ℚ Call)) : ℕ :=
  calls.foldl (fun n c => tally n c.act) 0

def admits (cfg : Config) (s : Clocked ℚ AsyncCircuitBreaker) (c : Stamped ℚ Call) : Bool :=
  c.act = .allowRequest && (allowRequest cfg c.now s.inner).1

def admitted (cfg : Config) : Clocked ℚ AsyncCircuitBreaker → List (Stamped ℚ Call) → ℕ :=
  total (call cfg) fun s c => if admits cfg s c then 1 else 0

variable {cfg : Config} {s s' : Clocked ℚ AsyncCircuitBreaker} {c : Stamped ℚ Call}

theorem call_eq_some : call cfg s c = some s' ↔
    s.clock ≤ c.now ∧ s'.clock = c.now ∧ s'.inner = after cfg s.inner c.now c.act := by
  rw [call, clocked_eq_some, Option.some_inj, eq_comm (a := after ..)]

theorem admitted_cons {calls : List (Stamped ℚ Call)} (h : call cfg s c = some s') :
    admitted cfg s (c :: calls) = (if admits cfg s c then 1 else 0) + admitted cfg s' calls :=
  total_cons h

theorem failuresSinceSuccess_concat (calls : List (Stamped ℚ Call)) (c : Stamped ℚ Call) :
    failuresSinceSuccess (calls ++ [c]) = tally (failuresSinceSuccess calls) c.act := by
  simp [failuresSinceSuccess]

/-! ### The counters -/

structure Valid (cfg : Config) (b : AsyncCircuitBreaker) : Prop where
  failureCount_lt : b.failureCount < cfg.failureThreshold
  halfOpenCalls_le : b.halfOpenCalls ≤ cfg.halfOpenMaxCalls

theorem valid_init (cfg : Config) : Valid cfg init :=
  ⟨cfg.one_le_threshold, Nat.zero_le _⟩

theorem Valid.after {b : AsyncCircuitBreaker} (h : Valid cfg b) (now : ℚ) (c : Call) :
    Valid cfg (CircuitBreaker.after cfg b now c) := by
  obtain ⟨hf, hc⟩ := h
  have ht := cfg.one_le_threshold
  have hm := cfg.one_le_maxCalls
  cases c with
  | allowRequest =>
    rcases allowRequest_cases cfg now b with ⟨-, h⟩ | ⟨-, h⟩ | ⟨-, hlt, h⟩ | ⟨-, -, h⟩ <;>
      simp only [CircuitBreaker.after, h]
    · exact ⟨hf, hc⟩
    · exact ⟨hf, hc⟩
    · exact ⟨hf, hlt⟩
    · exact ⟨hf, hm⟩
  | recordSuccess =>
    refine ⟨?_, recordSuccess_halfOpenCalls_le.trans hc⟩
    simp only [CircuitBreaker.after, recordSuccess_failureCount]
    omega
  | recordFailure =>
    rcases recordFailure_cases cfg now b with ⟨-, -, -, h0, hle⟩ | ⟨-, hlt, h⟩ <;>
      simp only [CircuitBreaker.after]
    · exact ⟨by omega, hle.trans hc⟩
    · rw [h]
      exact ⟨hlt, hc⟩

theorem Valid.call (h : Valid cfg s.inner) (hs : call cfg s c = some s') : Valid cfg s'.inner := by
  rw [(call_eq_some.mp hs).2.2]
  exact h.after c.now c.act

/-- A call that leaves the breaker closed keeps its count of the failures since the last success:
a breaker that was not closed is closed by a success only. -/
theorem after_closed {b : AsyncCircuitBreaker} {now : ℚ} {act : Call} {n : ℕ}
    (hb : b.state = .closed → b.failureCount = n)
    (h : (CircuitBreaker.after cfg b now act).state = .closed) :
    (CircuitBreaker.after cfg b now act).failureCount = tally n act := by
  cases act with
  | allowRequest =>
    simp only [CircuitBreaker.after] at h ⊢
    rcases allowRequest_cases cfg now b with ⟨hs, he⟩ | ⟨hs, he⟩ | ⟨hs, -, he⟩ | ⟨hs, -, he⟩ <;>
      rw [he] at h ⊢
    · exact hb hs
    · exact absurd h hs
    · exact absurd (hs.symm.trans h) (by decide)
    · exact absurd h (by simp)
  | recordSuccess => exact recordSuccess_failureCount
  | recordFailure =>
    simp only [CircuitBreaker.after] at h ⊢
    rcases recordFailure_cases cfg now b with ⟨-, ho, -⟩ | ⟨-, -, he⟩
    · exact absurd (ho.symm.trans h) (by decide)
    · rw [he] at h ⊢
      simp [hb h, tally]

theorem failureCount_eq {t₀ : ℚ} {calls : List (Stamped ℚ Call)}
    (h : exec (call cfg) (created t₀) calls = some s) (hs : s.inner.state = .closed) :
    s.inner.failureCount = failuresSinceSuccess calls := by
  refine exec_history (fun calls s => s.inner.state = .closed →
    s.inner.failureCount = failuresSinceSuccess calls) (fun _ => rfl) ?_ h hs
  intro calls u c v _ hu huv hv
  obtain ⟨-, -, hi⟩ := call_eq_some.mp huv
  rw [hi] at hv ⊢
  rw [after_closed hu hv, failuresSinceSuccess_concat]

theorem reachable_valid {t₀ : ℚ} {calls : List (Stamped ℚ Call)}
    (h : exec (call cfg) (created t₀) calls = some s) : Valid cfg s.inner :=
  exec_invariant (fun s => Valid cfg s.inner) (valid_init cfg) (fun _ _ _ hv hs => hv.call hs) h

theorem opens_iff {b : AsyncCircuitBreaker} {now : ℚ} {act : Call} (hv : Valid cfg b)
    (hs : b.state = .closed) : (CircuitBreaker.after cfg b now act).state = .opened ↔
      act = .recordFailure ∧ b.failureCount + 1 = cfg.failureThreshold := by
  cases act with
  | allowRequest => simp [CircuitBreaker.after, allowRequest, hs]
  | recordSuccess => simp [CircuitBreaker.after, recordSuccess_state]
  | recordFailure =>
    have hf := hv.failureCount_lt
    rcases recordFailure_cases cfg now b with ⟨h, ho, -⟩ | ⟨-, hlt, he⟩
    · simp only [CircuitBreaker.after, ho, true_and, true_iff]
      rw [hs] at h
      simp at h
      omega
    · simp only [CircuitBreaker.after, he, hs, true_and]
      constructor
      · rintro ⟨⟩
      · omega

/-! ### The half-open slots -/

theorem halfOpen_run {t : Clocked ℚ AsyncCircuitBreaker} {later : List (Stamped ℚ Call)}
    (hs : s.inner.state = .halfOpen) (hle : s.inner.halfOpenCalls ≤ cfg.halfOpenMaxCalls)
    (hl : ∀ d ∈ later, d.act = .allowRequest) (h : exec (call cfg) s later = some t) :
    s.inner.halfOpenCalls + admitted cfg s later ≤ cfg.halfOpenMaxCalls := by
  induction later generalizing s with
  | nil => simpa [admitted, total] using hle
  | cons d later ih =>
    obtain ⟨u, hu, ht⟩ := exec_cons_eq_some.mp h
    have hd : d.act = .allowRequest := hl d (by simp)
    have hl' : ∀ d ∈ later, d.act = .allowRequest := fun e he => hl e (by simp [he])
    have hi := (call_eq_some.mp hu).2.2
    simp only [hd, after] at hi
    rw [admitted_cons hu]
    simp only [admits, hd, decide_true, Bool.true_and]
    rcases allowRequest_cases cfg d.now s.inner with ⟨hc, -⟩ | ⟨-, he⟩ | ⟨-, hlt, he⟩ | ⟨ho, -⟩
    · exact absurd (hs.symm.trans hc) (by decide)
    · rw [he] at hi ⊢
      simpa [hi] using ih (by rw [hi, hs]) (by rw [hi]; exact hle) hl' ht
    · rw [he] at hi ⊢
      have := ih (by rw [hi]; exact hs) (by rw [hi]; exact hlt) hl' ht
      simp only [hi] at this
      simp only [↓reduceIte]
      omega
    · exact absurd (hs.symm.trans ho) (by decide)

/-- From the call that makes a breaker half-open up to the next recorded outcome, the breaker lets
through at most `half_open_max_calls` requests. -/
theorem admitted_from_entry {t : Clocked ℚ AsyncCircuitBreaker} {later : List (Stamped ℚ Call)}
    (hn : s.inner.state ≠ .halfOpen) (hc : call cfg s c = some s')
    (he : s'.inner.state = .halfOpen) (hl : ∀ d ∈ later, d.act = .allowRequest)
    (h : exec (call cfg) s' later = some t) :
    admitted cfg s (c :: later) ≤ cfg.halfOpenMaxCalls := by
  have hm := cfg.one_le_maxCalls
  have hi := (call_eq_some.mp hc).2.2
  have hone : s'.inner.halfOpenCalls = 1 := by
    cases ha : c.act with
    | allowRequest =>
      simp only [ha, after] at hi
      rcases allowRequest_cases cfg c.now s.inner with ⟨_, h⟩ | ⟨_, h⟩ | ⟨hs, _⟩ | ⟨_, _, h⟩
      · exact absurd (by rw [hi, h] at he; exact he) hn
      · exact absurd (by rw [hi, h] at he; exact he) hn
      · exact absurd hs hn
      · rw [hi, h]
    | recordSuccess =>
      simp only [ha, after] at hi
      exact absurd ((hi ▸ recordSuccess_state).symm.trans he) (by decide)
    | recordFailure =>
      simp only [ha, after] at hi
      exact absurd he (hi ▸ recordFailure_state_ne)
  have hrun := halfOpen_run he (by omega) hl h
  rw [admitted_cons hc]
  have : (if admits cfg s c then 1 else 0) ≤ 1 := by split <;> omega
  omega

/-! ### The recovery time -/

/-- A breaker that opened at time `T` and has not recorded a success since: it is open, and stamped
no earlier, or it is half-open, and the recovery time since `T` has passed. -/
def Recovering (cfg : Config) (T : ℚ) (s : Clocked ℚ AsyncCircuitBreaker) : Prop :=
  T ≤ s.clock ∧ ((s.inner.state = .opened ∧ T ≤ s.inner.openedAt) ∨
    (s.inner.state = .halfOpen ∧ T + cfg.recoverySeconds ≤ s.clock))

theorem Recovering.call {T : ℚ} (h : Recovering cfg T s) (hc : call cfg s c = some s')
    (hne : c.act ≠ .recordSuccess) : Recovering cfg T s' := by
  obtain ⟨hle, hnow, hi⟩ := call_eq_some.mp hc
  obtain ⟨hT, h⟩ := h
  refine ⟨by rw [hnow]; exact hT.trans hle, ?_⟩
  cases ha : c.act with
  | allowRequest =>
    simp only [ha, after] at hi
    rcases allowRequest_cases cfg c.now s.inner with ⟨hs, he⟩ | ⟨-, he⟩ | ⟨hs, -, he⟩ | ⟨hs, hr, he⟩
    · rcases h with ⟨h, -⟩ | ⟨h, -⟩ <;> exact absurd (hs.symm.trans h) (by decide)
    · rw [hi, he, hnow]
      exact h.imp_right fun ⟨h, hr⟩ => ⟨h, hr.trans hle⟩
    · rcases h with ⟨h, -⟩ | ⟨-, h⟩
      · exact absurd (hs.symm.trans h) (by decide)
      · rw [hi, he, hnow]
        exact .inr ⟨hs, h.trans hle⟩
    · rcases h with ⟨-, h⟩ | ⟨h, -⟩
      · rw [hi, he, hnow]
        exact .inr ⟨rfl, by linarith⟩
      · exact absurd (hs.symm.trans h) (by decide)
  | recordSuccess => exact absurd ha hne
  | recordFailure =>
    simp only [ha, after] at hi
    rcases recordFailure_cases cfg c.now s.inner with ⟨-, ho, hat, -⟩ | ⟨hs, -, he⟩
    · rw [hi]
      exact .inl ⟨ho, by rw [hat]; exact hT.trans hle⟩
    · rcases h with ⟨h, hT⟩ | ⟨h, -⟩
      · rw [hi, he]
        exact .inl ⟨h, hT⟩
      · exact absurd h hs

theorem Recovering.admits {T : ℚ} (h : Recovering cfg T s) (hle : s.clock ≤ c.now)
    (ha : admits cfg s c = true) : T + cfg.recoverySeconds ≤ c.now := by
  simp only [CircuitBreaker.admits, Bool.and_eq_true] at ha
  obtain ⟨-, h⟩ := h
  rcases allowRequest_cases cfg c.now s.inner with ⟨hs, -⟩ | ⟨-, he⟩ | ⟨hs, -⟩ | ⟨hs, hr, -⟩
  · rcases h with ⟨h, -⟩ | ⟨h, -⟩ <;> exact absurd (hs.symm.trans h) (by decide)
  · simp [he] at ha
  · rcases h with ⟨h, -⟩ | ⟨-, h⟩
    · exact absurd (hs.symm.trans h) (by decide)
    · exact h.trans hle
  · rcases h with ⟨-, h⟩ | ⟨h, -⟩
    · linarith
    · exact absurd (hs.symm.trans h) (by decide)

/-- The call opens the breaker, or finds it open and stamps `_opened_at` again. -/
def Opens (s : Clocked ℚ AsyncCircuitBreaker) (c : Stamped ℚ Call)
    (s' : Clocked ℚ AsyncCircuitBreaker) : Prop :=
  s'.inner.state = .opened ∧ (s.inner.state ≠ .opened ∨ s'.inner.openedAt = c.now)

theorem Opens.recovering (h : Opens s c s') (hc : call cfg s c = some s') :
    Recovering cfg c.now s' := by
  obtain ⟨-, hnow, hi⟩ := call_eq_some.mp hc
  obtain ⟨ho, h⟩ := h
  refine ⟨hnow.ge, .inl ⟨ho, ?_⟩⟩
  rcases h with hn | hat
  · cases ha : c.act with
    | allowRequest =>
      simp only [ha, after] at hi
      rw [hi] at ho
      rcases allowRequest_cases cfg c.now s.inner with ⟨-, h⟩ | ⟨-, h⟩ | ⟨hs, -, h⟩ | ⟨hs, -⟩
      · exact absurd (by rw [h] at ho; exact ho) hn
      · exact absurd (by rw [h] at ho; exact ho) hn
      · exact absurd (by rw [h] at ho; exact hs.symm.trans ho) (by decide)
      · exact absurd hs hn
    | recordSuccess =>
      simp only [ha, after] at hi
      exact absurd ((hi ▸ recordSuccess_state).symm.trans ho) (by decide)
    | recordFailure =>
      simp only [ha, after] at hi
      rcases recordFailure_cases cfg c.now s.inner with ⟨-, -, hat, -⟩ | ⟨-, -, he⟩
      · rw [hi, hat]
      · exact absurd (by rw [hi, he] at ho; exact ho) hn
  · exact hat.ge

theorem Recovering.exec {T : ℚ} {t : Clocked ℚ AsyncCircuitBreaker}
    {later : List (Stamped ℚ Call)} (h : Recovering cfg T s)
    (hl : ∀ d ∈ later, d.act ≠ .recordSuccess)
    (hrun : exec (CircuitBreaker.call cfg) s later = some t) :
    Recovering cfg T t := by
  induction later generalizing s with
  | nil =>
    cases hrun
    exact h
  | cons d later ih =>
    obtain ⟨u, hu, ht⟩ := exec_cons_eq_some.mp hrun
    exact ih (h.call hu (hl d (by simp))) (fun e he => hl e (by simp [he])) ht

/-- What every run of a breaker guarantees, whatever its callers do: the two counters stay below
their bounds, a closed breaker opens exactly at the threshold of consecutive failures, a half-open
breaker lets through no more than its slots before an outcome arrives, and an opened breaker lets
nothing through before its recovery time unless a success arrives first. -/
theorem breaker_safety {t₀ : ℚ} {calls : List (Stamped ℚ Call)}
    (h : exec (call cfg) (created t₀) calls = some s) :
    (s.inner.failureCount < cfg.failureThreshold ∧
      (s.inner.state = .closed → s.inner.failureCount = failuresSinceSuccess calls) ∧
      (∀ c s', call cfg s c = some s' → s.inner.state = .closed →
        (s'.inner.state = .opened ↔ c.act = .recordFailure ∧
          failuresSinceSuccess (calls ++ [c]) = cfg.failureThreshold))) ∧
    (s.inner.halfOpenCalls ≤ cfg.halfOpenMaxCalls ∧
      (∀ c s' later t, s.inner.state ≠ .halfOpen → call cfg s c = some s' →
        s'.inner.state = .halfOpen → (∀ d ∈ later, d.act = .allowRequest) →
        exec (call cfg) s' later = some t →
        admitted cfg s (c :: later) ≤ cfg.halfOpenMaxCalls)) ∧
    (∀ c s' later t d, call cfg s c = some s' → Opens s c s' →
      (∀ e ∈ later, e.act ≠ .recordSuccess) → exec (call cfg) s' later = some t →
      t.clock ≤ d.now → admits cfg t d = true → c.now + cfg.recoverySeconds ≤ d.now) := by
  have hv := reachable_valid h
  refine ⟨⟨hv.failureCount_lt, failureCount_eq h, fun c s' hc hs => ?_⟩,
    ⟨hv.halfOpenCalls_le, fun c s' later t => admitted_from_entry⟩,
    fun c s' later t d hc ho hl hrun hle => ((ho.recovering hc).exec hl hrun).admits hle⟩
  rw [(call_eq_some.mp hc).2.2, opens_iff hv hs, failuresSinceSuccess_concat, failureCount_eq h hs]
  constructor <;> rintro ⟨ha, hn⟩ <;> exact ⟨ha, by simpa [ha, tally] using hn⟩

/-- A breaker that opens on two failures, recovers after 30 seconds and probes once. -/
def sample : Config := Config.init 2 30 1

/-- An outage: two failures, a probe once the recovery time has passed, and its failure. -/
def outage : List (Stamped ℚ Call) :=
  [⟨1, .recordFailure⟩, ⟨2, .recordFailure⟩, ⟨32, .allowRequest⟩, ⟨33, .recordFailure⟩]

theorem breaker_safety_outage :
    exec (call sample) (created 0) outage = some ⟨33, ⟨.opened, 0, 33, 0⟩⟩ ∧
      0 < sample.failureThreshold := by
  have h : exec (call sample) (created 0) outage = some ⟨33, ⟨.opened, 0, 33, 0⟩⟩ := by
    decide +kernel
  exact ⟨h, (breaker_safety h).1.1⟩

end ChainMonitor.CircuitBreaker
