import ChainMonitor.ProofKit.Clock
import Mathlib.Algebra.Order.Ring.Rat
import Mathlib.Tactic.Linarith

/-! The circuit breaker of `shared/resilience/circuit_breaker.py`. Times are rational seconds of the
monotonic clock, and each method takes the reading `now` that it makes under its lock. -/

namespace ChainMonitor.CircuitBreaker

open ProofKit

inductive State
  | closed
  | opened
  | halfOpen
  deriving DecidableEq, Repr

/-- The parameters of a breaker, with the bounds that `__init__` puts on them. -/
structure Config where
  failureThreshold : ℕ
  recoverySeconds : ℚ
  halfOpenMaxCalls : ℕ
  one_le_threshold : 1 ≤ failureThreshold
  half_le_recovery : 1 / 2 ≤ recoverySeconds
  one_le_maxCalls : 1 ≤ halfOpenMaxCalls

def Config.init (failureThreshold : ℤ) (recoverySeconds : ℚ) (halfOpenMaxCalls : ℤ) : Config where
  failureThreshold := (max 1 failureThreshold).toNat
  recoverySeconds := max (1 / 2) recoverySeconds
  halfOpenMaxCalls := (max 1 halfOpenMaxCalls).toNat
  one_le_threshold := one_le_toNat_max failureThreshold
  half_le_recovery := le_max_left _ _
  one_le_maxCalls := one_le_toNat_max halfOpenMaxCalls

/-- The fields of `AsyncCircuitBreaker` that its methods change. -/
structure AsyncCircuitBreaker where
  state : State
  failureCount : ℕ
  openedAt : ℚ
  halfOpenCalls : ℕ
  deriving DecidableEq

def init : AsyncCircuitBreaker := ⟨.closed, 0, 0, 0⟩

/-- The half-open branch of `allow_request`: a request is let through while a slot is free. -/
def probe (cfg : Config) (b : AsyncCircuitBreaker) : Bool × AsyncCircuitBreaker :=
  if cfg.halfOpenMaxCalls ≤ b.halfOpenCalls then (false, b)
  else (true, { b with halfOpenCalls := b.halfOpenCalls + 1 })

def allowRequest (cfg : Config) (now : ℚ) (b : AsyncCircuitBreaker) : Bool × AsyncCircuitBreaker :=
  match b.state with
  | .opened =>
    if cfg.recoverySeconds ≤ now - b.openedAt then
      probe cfg { b with state := .halfOpen, halfOpenCalls := 0 }
    else (false, b)
  | .halfOpen => probe cfg b
  | .closed => (true, b)

def recordSuccess (b : AsyncCircuitBreaker) : AsyncCircuitBreaker :=
  match b.state with
  | .opened | .halfOpen => { b with failureCount := 0, state := .closed, halfOpenCalls := 0 }
  | .closed => { b with failureCount := 0 }

def recordFailure (cfg : Config) (now : ℚ) (b : AsyncCircuitBreaker) : AsyncCircuitBreaker :=
  match b.state with
  | .halfOpen => { state := .opened, openedAt := now, failureCount := 0, halfOpenCalls := 0 }
  | .closed | .opened =>
    if cfg.failureThreshold ≤ b.failureCount + 1 then
      { b with state := .opened, openedAt := now, failureCount := 0 }
    else { b with failureCount := b.failureCount + 1 }

def remainingOpenSeconds (cfg : Config) (now : ℚ) (b : AsyncCircuitBreaker) : ℚ :=
  if b.state ≠ .opened then 0 else max 0 (cfg.recoverySeconds - (now - b.openedAt))

/-! ### What each method does -/

section Methods

variable {cfg : Config} {now : ℚ} {b : AsyncCircuitBreaker}

/-- All that `allow_request` can do: let a request through a closed breaker, refuse it, give it a
further half-open slot, or make the breaker half-open and give it the first slot. -/
theorem allowRequest_cases (cfg : Config) (now : ℚ) (b : AsyncCircuitBreaker) :
    (b.state = .closed ∧ allowRequest cfg now b = (true, b)) ∨
    (b.state ≠ .closed ∧ allowRequest cfg now b = (false, b)) ∨
    (b.state = .halfOpen ∧ b.halfOpenCalls < cfg.halfOpenMaxCalls ∧
      allowRequest cfg now b = (true, { b with halfOpenCalls := b.halfOpenCalls + 1 })) ∨
    (b.state = .opened ∧ cfg.recoverySeconds ≤ now - b.openedAt ∧
      allowRequest cfg now b = (true, { b with state := .halfOpen, halfOpenCalls := 1 })) := by
  have hmax := cfg.one_le_maxCalls
  unfold allowRequest probe
  cases hs : b.state with
  | closed => simp
  | opened =>
    by_cases hr : cfg.recoverySeconds ≤ now - b.openedAt
    · simp only [hr, ↓reduceIte]
      rw [if_neg (by omega)]
      simp
    · simp [hr]
  | halfOpen =>
    by_cases hc : cfg.halfOpenMaxCalls ≤ b.halfOpenCalls
    · simp [hc]
    · simp [hc, Nat.lt_of_not_le hc]

/-- An open breaker lets a request through exactly when no open seconds remain. -/
theorem remainingOpenSeconds_eq_zero (hs : b.state = .opened) :
    remainingOpenSeconds cfg now b = 0 ↔ (allowRequest cfg now b).1 = true := by
  have hr : remainingOpenSeconds cfg now b = 0 ↔ cfg.recoverySeconds ≤ now - b.openedAt := by
    simp [remainingOpenSeconds, hs]
  rw [hr]
  rcases allowRequest_cases cfg now b with ⟨h, -⟩ | ⟨-, h⟩ | ⟨h, -⟩ | ⟨-, hle, h⟩
  · exact absurd (hs.symm.trans h) (by decide)
  · have hlt : ¬cfg.recoverySeconds ≤ now - b.openedAt := by
      intro hle
      have hm := cfg.one_le_maxCalls
      simp only [allowRequest, hs, hle, ↓reduceIte, probe] at h
      rw [if_neg (by omega)] at h
      exact absurd h (by simp)
    simp [h, hlt]
  · exact absurd (hs.symm.trans h) (by decide)
  · simp [h, hle]

theorem recordSuccess_state : (recordSuccess b).state = .closed := by
  unfold recordSuccess
  split <;> simp_all

theorem recordSuccess_failureCount : (recordSuccess b).failureCount = 0 := by
  unfold recordSuccess
  split <;> rfl

theorem recordSuccess_halfOpenCalls_le : (recordSuccess b).halfOpenCalls ≤ b.halfOpenCalls := by
  unfold recordSuccess
  split <;> simp

/-- All that `record_failure` can do: open the breaker, which happens in the half-open state and at
the threshold, or count one more failure. -/
theorem recordFailure_cases (cfg : Config) (now : ℚ) (b : AsyncCircuitBreaker) :
    ((b.state = .halfOpen ∨ cfg.failureThreshold ≤ b.failureCount + 1) ∧
      (recordFailure cfg now b).state = .opened ∧ (recordFailure cfg now b).openedAt = now ∧
      (recordFailure cfg now b).failureCount = 0 ∧
      (recordFailure cfg now b).halfOpenCalls ≤ b.halfOpenCalls) ∨
    (b.state ≠ .halfOpen ∧ b.failureCount + 1 < cfg.failureThreshold ∧
      recordFailure cfg now b = { b with failureCount := b.failureCount + 1 }) := by
  unfold recordFailure
  cases hs : b.state with
  | halfOpen => simp
  | closed | opened =>
    by_cases ht : cfg.failureThreshold ≤ b.failureCount + 1
    · simp [ht]
    · simp [ht, Nat.lt_of_not_le ht]

theorem recordFailure_state_ne : (recordFailure cfg now b).state ≠ .halfOpen := by
  rcases recordFailure_cases cfg now b with ⟨-, h, -⟩ | ⟨hs, -, h⟩
  · simp [h]
  · rw [h]
    exact hs

end Methods

end ChainMonitor.CircuitBreaker
