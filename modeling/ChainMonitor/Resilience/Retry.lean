import ChainMonitor.ProofKit.PyFloat
import Mathlib.Algebra.Order.Field.Rat
import Mathlib.Tactic.Linarith
import Mathlib.Tactic.Positivity
import Mathlib.Tactic.Ring

/-! `retry_sleep_seconds` of `shared/resilience/retry.py`. The jitter is a draw of
`random.uniform(0.0, base_seconds)`. -/

namespace ChainMonitor.Retry

open ProofKit

/-- `base_seconds * 2 ** (attempt - 1)` before the cap. The power is an `int`, and the product makes
a `float` of it, which has no room for two to the 1024. -/
def scaled (attempt : ℕ) (baseSeconds : ℚ) : Except PyError ℚ :=
  if 1024 ≤ attempt - 1 then .error .overflowError
  else .ok (baseSeconds * 2 ^ (attempt - 1))

def retrySleepSeconds (attempt : ℕ) (baseSeconds maxSeconds jitter : ℚ) : Except PyError ℚ := do
  return min maxSeconds ((← scaled attempt baseSeconds) + jitter)

/-- The sleep after the attempt raises, and leaves the loop of the attempts. -/
abbrev Overflows (attempt : ℕ) : Prop := 1024 < attempt

/-- What a draw of `random.uniform(0.0, base_seconds)` may be. -/
structure Draw (baseSeconds jitter : ℚ) : Prop where
  nonneg : 0 ≤ jitter
  le_base : jitter ≤ baseSeconds

variable {attempt : ℕ} {base cap jitter jitter' : ℚ}

theorem scaled_of_le (h : attempt ≤ 1024) : scaled attempt base = .ok (base * 2 ^ (attempt - 1)) :=
  if_neg (by omega)

theorem scaled_of_gt (h : 1024 < attempt) : scaled attempt base = .error .overflowError :=
  if_pos (by omega)

theorem retrySleepSeconds_of_le (h : attempt ≤ 1024) :
    retrySleepSeconds attempt base cap jitter =
      .ok (min cap (base * 2 ^ (attempt - 1) + jitter)) := by
  rw [retrySleepSeconds, scaled_of_le h]
  rfl

theorem retrySleepSeconds_of_gt (h : 1024 < attempt) :
    retrySleepSeconds attempt base cap jitter = .error .overflowError := by
  rw [retrySleepSeconds, scaled_of_gt h]
  rfl

/-- The largest delay of an attempt is the smallest of the next one or less: a draw adds at most the
base, and the next power of two adds at least that. -/
theorem delay_le_next (hattempt : 1 ≤ attempt) (hdraw : Draw base jitter)
    (hdraw' : Draw base jitter') :
    base * 2 ^ (attempt - 1) + jitter ≤ base * 2 ^ (attempt + 1 - 1) + jitter' := by
  obtain ⟨k, rfl⟩ := Nat.exists_eq_add_of_le' hattempt
  have hbase : 0 ≤ base := hdraw.nonneg.trans hdraw.le_base
  have hpower : (1 : ℚ) ≤ 2 ^ k := one_le_pow₀ (by norm_num)
  have hscaled : base * 1 ≤ base * 2 ^ k := mul_le_mul_of_nonneg_left hpower hbase
  simp only [Nat.add_sub_cancel]
  calc base * 2 ^ k + jitter ≤ base * 2 ^ k + base := by linarith [hdraw.le_base]
    _ ≤ base * 2 ^ k + base * 2 ^ k := by linarith
    _ = base * 2 ^ (k + 1) := by ring
    _ ≤ base * 2 ^ (k + 1) + jitter' := by linarith [hdraw'.nonneg]

theorem base_le_delay (hdraw : Draw base jitter) :
    base ≤ base * 2 ^ (attempt - 1) + jitter := by
  have hbase : 0 ≤ base := hdraw.nonneg.trans hdraw.le_base
  have hpower : (1 : ℚ) ≤ 2 ^ (attempt - 1) := one_le_pow₀ (by norm_num)
  have hscaled : base * 1 ≤ base * 2 ^ (attempt - 1) := mul_le_mul_of_nonneg_left hpower hbase
  have hjitter := hdraw.nonneg
  linarith

end ChainMonitor.Retry
