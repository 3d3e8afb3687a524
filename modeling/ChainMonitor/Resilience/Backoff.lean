import Mathlib.Algebra.Order.Ring.Rat

/-! The backoff guard of `shared/resilience/backoff.py`. -/

namespace ChainMonitor.Backoff

structure BackoffGuard where
  failureStreak : ℕ
  openedUntil : ℚ
  deriving DecidableEq

def init : BackoffGuard := ⟨0, 0⟩

def allowRequest (now : ℚ) (g : BackoffGuard) : Bool := g.openedUntil ≤ now

def remainingBlockedSeconds (now : ℚ) (g : BackoffGuard) : ℚ := max 0 (g.openedUntil - now)

/-- The pause after a failure that makes the streak `streak` long. -/
def cooldown (baseSeconds maxSeconds : ℚ) (streak : ℕ) : ℚ :=
  min maxSeconds (max (1 / 10) baseSeconds * (min 8 (max 1 streak) : ℕ))

def recordFailure (now baseSeconds maxSeconds : ℚ) (g : BackoffGuard) : BackoffGuard where
  failureStreak := g.failureStreak + 1
  openedUntil := max g.openedUntil (now + cooldown baseSeconds maxSeconds (g.failureStreak + 1))

def recordSuccess (_ : BackoffGuard) : BackoffGuard := ⟨0, 0⟩

@[simp] theorem allowRequest_eq_true {now : ℚ} {g : BackoffGuard} :
    allowRequest now g = true ↔ g.openedUntil ≤ now := by
  simp [allowRequest]

theorem remainingBlockedSeconds_eq_zero {now : ℚ} {g : BackoffGuard} :
    remainingBlockedSeconds now g = 0 ↔ allowRequest now g = true := by
  simp [remainingBlockedSeconds]

end ChainMonitor.Backoff
