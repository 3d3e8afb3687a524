import ChainMonitor.ProofKit.Window
import Mathlib.Algebra.Order.Ring.Rat
import Mathlib.Tactic.Positivity

/-! The token bucket of `shared/resilience/rate_limiter.py`, and any number of `acquire` loops that
compete for it. A loop tries under the lock, and sleeps when the bucket has no token for it. -/

namespace ChainMonitor.RateLimiter

open ProofKit

structure Config where
  ratePerSecond : ℚ
  capacity : ℚ
  rate_pos : 0 < ratePerSecond
  one_le_capacity : 1 ≤ capacity

/-- The parameters that `__init__` keeps of its arguments. -/
def Config.init (ratePerSecond : ℚ) (capacity : ℤ) : Config where
  ratePerSecond := max (1 / 100) ratePerSecond
  capacity := max 1 capacity
  rate_pos := lt_of_lt_of_le (by norm_num) (le_max_left _ _)
  one_le_capacity := le_max_left _ _

structure AsyncTokenBucket where
  tokens : ℚ
  lastRefill : ℚ
  deriving DecidableEq

def init (cfg : Config) (now : ℚ) : AsyncTokenBucket := ⟨cfg.capacity, now⟩

/-- The outcome of one pass through the loop of `acquire`. -/
inductive Pass
  | granted
  | sleep (seconds : ℚ)
  deriving DecidableEq

/-- The tokens after the refill at time `now`. -/
def refilled (cfg : Config) (now : ℚ) (b : AsyncTokenBucket) : ℚ :=
  min cfg.capacity (b.tokens + max 0 (now - b.lastRefill) * cfg.ratePerSecond)

/-- The body of the loop of `acquire`. -/
def pass (cfg : Config) (now : ℚ) (b : AsyncTokenBucket) : Pass × AsyncTokenBucket :=
  let tokens := refilled cfg now b
  if 1 ≤ tokens then (.granted, ⟨tokens - 1, now⟩)
  else (.sleep (max (1 / 1000) ((1 - tokens) / cfg.ratePerSecond)), ⟨tokens, now⟩)

/-- A bucket and the `acquire` calls that have not been granted yet. -/
structure Acquirers where
  bucket : AsyncTokenBucket
  waiting : List ℕ
  next : ℕ
  deriving DecidableEq

/-- A step of an `acquire` call: its first pass, or a later one of the sleeping call `id`. Sleeping
calls wake in any order, and not only when their sleep is over. -/
inductive Act
  | acquire
  | wake (id : ℕ)
  deriving DecidableEq

def step (cfg : Config) (s : Acquirers) (now : ℚ) : Act → Option Acquirers
  | .acquire =>
    let (p, b) := pass cfg now s.bucket
    some ⟨b, if p = .granted then s.waiting else s.next :: s.waiting, s.next + 1⟩
  | .wake id =>
    let (p, b) := pass cfg now s.bucket
    if id ∈ s.waiting then
      some { s with bucket := b, waiting := if p = .granted then s.waiting.erase id else s.waiting }
    else none

/-- A bucket created at time `t`, before any call. -/
def created (cfg : Config) (t : ℚ) : Clocked ℚ Acquirers := ⟨t, init cfg t, [], 0⟩

/-- The calls that a step grants. -/
def granted (cfg : Config) (s : Clocked ℚ Acquirers) (a : Stamped ℚ Act) : ℕ :=
  if (pass cfg a.now s.inner.bucket).1 = .granted then 1 else 0

/-- The `acquire` calls granted at a time in `[t₁, t₂]` in the run along `acts`. -/
def grantsBetween (cfg : Config) (t₁ t₂ : ℚ) :
    Clocked ℚ Acquirers → List (Stamped ℚ Act) → ℕ :=
  total (clocked (step cfg)) (grantsIn (granted cfg) t₁ t₂)

variable {cfg : Config} {now : ℚ} {b : AsyncTokenBucket}

theorem pass_cases (cfg : Config) (now : ℚ) (b : AsyncTokenBucket) :
    (1 ≤ refilled cfg now b ∧ pass cfg now b = (.granted, ⟨refilled cfg now b - 1, now⟩)) ∨
    (refilled cfg now b < 1 ∧ pass cfg now b =
      (.sleep (max (1 / 1000) ((1 - refilled cfg now b) / cfg.ratePerSecond)),
        ⟨refilled cfg now b, now⟩)) := by
  unfold pass
  by_cases h : 1 ≤ refilled cfg now b
  · simp [h]
  · simp [h, not_le.mp h]

theorem refilled_nonneg (h0 : 0 ≤ b.tokens) : 0 ≤ refilled cfg now b := by
  have hcap := cfg.one_le_capacity
  have hadd : 0 ≤ max 0 (now - b.lastRefill) * cfg.ratePerSecond :=
    mul_nonneg (le_max_left _ _) cfg.rate_pos.le
  exact le_min (by linarith) (by linarith)

theorem pass_tokens (h0 : 0 ≤ b.tokens) :
    0 ≤ (pass cfg now b).2.tokens ∧ (pass cfg now b).2.tokens ≤ cfg.capacity := by
  have h : 0 ≤ refilled cfg now b := refilled_nonneg h0
  have hcap : refilled cfg now b ≤ cfg.capacity := min_le_left _ _
  rcases pass_cases cfg now b with ⟨h1, he⟩ | ⟨-, he⟩ <;> simp only [he]
  · exact ⟨by linarith, by linarith⟩
  · exact ⟨h, hcap⟩

theorem pass_lastRefill : (pass cfg now b).2.lastRefill = now := by
  rcases pass_cases cfg now b with ⟨-, he⟩ | ⟨-, he⟩ <;> rw [he]

/-- A pass that comes at least the time of one token after the last refill is granted. -/
theorem pass_granted (h0 : 0 ≤ b.tokens) (h : b.lastRefill + 1 / cfg.ratePerSecond ≤ now) :
    (pass cfg now b).1 = .granted := by
  have hr := cfg.rate_pos
  have hpos : 0 < 1 / cfg.ratePerSecond := by positivity
  have hone : 1 ≤ (now - b.lastRefill) * cfg.ratePerSecond := by
    have := mul_le_mul_of_nonneg_right (show 1 / cfg.ratePerSecond ≤ now - b.lastRefill by linarith)
      hr.le
    rwa [div_mul_cancel₀ _ hr.ne'] at this
  have hmax : max 0 (now - b.lastRefill) = now - b.lastRefill := max_eq_right (by linarith)
  rcases pass_cases cfg now b with ⟨-, he⟩ | ⟨hlt, -⟩
  · rw [he]
  · exfalso
    rw [refilled, hmax] at hlt
    rcases min_lt_iff.mp hlt with hlt | hlt
    · exact absurd cfg.one_le_capacity (not_le.mpr hlt)
    · linarith

/-- A step is one pass of the loop on the shared bucket, whichever call makes it. -/
theorem step_bucket {s s' : Acquirers} {a : Act} (h : step cfg s now a = some s') :
    s'.bucket = (pass cfg now s.bucket).2 := by
  cases a with
  | acquire =>
    cases h
    rfl
  | wake id =>
    simp only [step] at h
    split at h
    · cases h
      rfl
    · cases h

/-- The tokens stay in `[0, capacity]`, and the last refill is at the time of the last step. -/
structure Valid (cfg : Config) (s : Clocked ℚ Acquirers) : Prop where
  nonneg : 0 ≤ s.inner.bucket.tokens
  le_capacity : s.inner.bucket.tokens ≤ cfg.capacity
  refilled_at : s.inner.bucket.lastRefill = s.clock

theorem valid_created (cfg : Config) (t : ℚ) : Valid cfg (created cfg t) :=
  ⟨zero_le_one.trans cfg.one_le_capacity, le_rfl, rfl⟩

theorem refilled_eq {s : Clocked ℚ Acquirers} (hv : Valid cfg s) (hle : s.clock ≤ now) :
    refilled cfg now s.inner.bucket =
      min cfg.capacity (s.inner.bucket.tokens + cfg.ratePerSecond * (now - s.clock)) := by
  have hmax : max 0 (now - s.clock) = now - s.clock := max_eq_right (by linarith)
  rw [refilled, hv.refilled_at, hmax, mul_comm]

theorem Valid.step {s s' : Clocked ℚ Acquirers} {a : Stamped ℚ Act} (hv : Valid cfg s)
    (h : clocked (RateLimiter.step cfg) s a = some s') : Valid cfg s' := by
  obtain ⟨-, hnow, hs⟩ := clocked_eq_some.mp h
  have hb := step_bucket hs
  have ht : 0 ≤ (pass cfg a.now s.inner.bucket).2.tokens ∧
      (pass cfg a.now s.inner.bucket).2.tokens ≤ cfg.capacity := pass_tokens hv.nonneg
  exact ⟨hb ▸ ht.1, hb ▸ ht.2, by rw [hb, pass_lastRefill, hnow]⟩

/-- The tokens of the bucket pay for the grants. -/
def budget (cfg : Config) : Budget (step cfg) (granted cfg) cfg.capacity cfg.ratePerSecond where
  Inv := Valid cfg
  potential s := s.inner.bucket.tokens
  nonneg _ hv := hv.nonneg
  le_cap _ hv := hv.le_capacity
  preserved _ _ _ hv h := hv.step h
  pays s a s' hv h := by
    obtain ⟨hle, -, hs⟩ := clocked_eq_some.mp h
    rw [step_bucket hs, ← refilled_eq hv hle, granted]
    rcases pass_cases cfg a.now s.inner.bucket with ⟨-, he⟩ | ⟨-, he⟩ <;> simp [he]

/-- In every run of the `acquire` loops, the tokens stay between 0 and the capacity, and no window
`[t₁, t₂]` sees more than `capacity + rate * (t₂ - t₁)` calls granted. -/
theorem bucket_rate {t₀ : ℚ} {acts : List (Stamped ℚ Act)} {s : Clocked ℚ Acquirers}
    (h : exec (clocked (step cfg)) (created cfg t₀) acts = some s) :
    (0 ≤ s.inner.bucket.tokens ∧ s.inner.bucket.tokens ≤ cfg.capacity) ∧
    ∀ t₁ t₂, t₁ ≤ t₂ → (grantsBetween cfg t₁ t₂ (created cfg t₀) acts : ℚ) ≤
      cfg.capacity + cfg.ratePerSecond * (t₂ - t₁) := by
  have hv : Valid cfg s :=
    exec_invariant (Valid cfg) (valid_created cfg t₀) (fun _ _ _ hv hs => hv.step hs) h
  refine ⟨⟨hv.nonneg, hv.le_capacity⟩, fun t₁ t₂ ht => ?_⟩
  exact (budget cfg).window_le cfg.rate_pos.le ht (valid_created cfg t₀) h

/-- A bucket of one token a second with room for one. -/
def single : Config := Config.init 1 1

/-- Two calls at once: the second sleeps, wakes too early once, and is granted after a second. -/
def twoCalls : List (Stamped ℚ Act) :=
  [⟨0, .acquire⟩, ⟨0, .acquire⟩, ⟨1 / 2, .wake 1⟩, ⟨1, .wake 1⟩]

theorem bucket_rate_twoCalls :
    exec (clocked (step single)) (created single 0) twoCalls = some ⟨1, ⟨0, 1⟩, [], 2⟩ ∧
      (grantsBetween single 0 1 (created single 0) twoCalls : ℚ) ≤
        single.capacity + single.ratePerSecond * (1 - 0) := by
  have h : exec (clocked (step single)) (created single 0) twoCalls =
      some ⟨1, ⟨0, 1⟩, [], 2⟩ := by decide +kernel
  exact ⟨h, (bucket_rate h).2 0 1 (by decide +kernel)⟩

end ChainMonitor.RateLimiter
