import ChainMonitor.ProofKit.Clock
import ChainMonitor.Resilience.Backoff
import Mathlib.Algebra.Order.Group.MinMax
import Mathlib.Tactic.Positivity

/-! Runs of a `BackoffGuard` under a clock that does not go back: how long it blocks after each
failure of a streak. -/

namespace ChainMonitor.Backoff

open ProofKit

inductive Op
  | allowRequest
  | remainingBlockedSeconds
  | recordFailure
  | recordSuccess
  deriving DecidableEq

def after (baseSeconds maxSeconds : ℚ) (g : BackoffGuard) (now : ℚ) : Op → BackoffGuard
  | .allowRequest | .remainingBlockedSeconds => g
  | .recordFailure => recordFailure now baseSeconds maxSeconds g
  | .recordSuccess => recordSuccess g

def call (baseSeconds maxSeconds : ℚ) :
    Clocked ℚ BackoffGuard → Stamped ℚ Op → Option (Clocked ℚ BackoffGuard) :=
  clocked fun g now op => some (after baseSeconds maxSeconds g now op)

def created (t : ℚ) : Clocked ℚ BackoffGuard := ⟨t, init⟩

/-- The streak after one more call. -/
def extend (streak : Option (ℕ × ℚ)) (c : Stamped ℚ Op) : Option (ℕ × ℚ) :=
  match c.act with
  | .recordFailure => some ((streak.map Prod.fst).getD 0 + 1, c.now)
  | .recordSuccess => none
  | .allowRequest | .remainingBlockedSeconds => streak

/-- The failures since the last success, if there are any: how many, and when the latest was. -/
def streak (calls : List (Stamped ℚ Op)) : Option (ℕ × ℚ) := calls.foldl extend none

/-- What the guard holds after a streak: a block from the latest failure on, which does not end
before time 0. -/
def Scheduled (baseSeconds maxSeconds : ℚ) (s : Clocked ℚ BackoffGuard) :
    Option (ℕ × ℚ) → Prop
  | none => s.inner = init
  | some (k, t) => s.inner.failureStreak = k ∧ t ≤ s.clock ∧
      s.inner.openedUntil = max 0 (t + cooldown baseSeconds maxSeconds k)

section Schedule

variable {base cap now : ℚ} {s s' : Clocked ℚ BackoffGuard} {c : Stamped ℚ Op}
  {calls : List (Stamped ℚ Op)}

theorem call_eq_some : call base cap s c = some s' ↔
    s.clock ≤ c.now ∧ s'.clock = c.now ∧ s'.inner = after base cap s.inner c.now c.act := by
  rw [call, clocked_eq_some, Option.some_inj, eq_comm (a := after ..)]

theorem streak_concat (calls : List (Stamped ℚ Op)) (c : Stamped ℚ Op) :
    streak (calls ++ [c]) = extend (streak calls) c := by
  simp [streak]

/-! ### The cooldown -/

theorem cooldown_mono : Monotone (cooldown base cap) := by
  intro k l hkl
  have hbase : 0 ≤ max (1 / 10) base := (by norm_num : (0 : ℚ) ≤ 1 / 10).trans (le_max_left _ _)
  have hmin : ((min 8 (max 1 k) : ℕ) : ℚ) ≤ (min 8 (max 1 l) : ℕ) := by
    have hnat : min 8 (max 1 k) ≤ min 8 (max 1 l) := by omega
    exact_mod_cast hnat
  exact min_le_min_left _ (mul_le_mul_of_nonneg_left hmin hbase)

theorem cooldown_nonneg (hcap : 0 ≤ cap) (k : ℕ) : 0 ≤ cooldown base cap k := by
  have hbase : 0 ≤ max (1 / 10) base := (by norm_num : (0 : ℚ) ≤ 1 / 10).trans (le_max_left _ _)
  exact le_min hcap (by positivity)

theorem cooldown_le (k : ℕ) : cooldown base cap k ≤ cap := min_le_left _ _

theorem cooldown_eq {k : ℕ} (hk : 1 ≤ k) :
    cooldown base cap k = min cap (max (1 / 10) base * (min 8 k : ℕ)) := by
  rw [cooldown, max_eq_right hk]

/-! ### One call -/

/-- A failure moves the end of the block to its own cooldown: those before it end earlier. -/
theorem scheduled_recordFailure {before : Option (ℕ × ℚ)} (h : Scheduled base cap s before)
    (hnow : s.clock ≤ now) :
    Scheduled base cap ⟨now, recordFailure now base cap s.inner⟩
      (some ((before.map Prod.fst).getD 0 + 1, now)) := by
  cases before with
  | none =>
    obtain ⟨clock, inner⟩ := s
    obtain rfl : inner = init := h
    exact ⟨rfl, le_rfl, rfl⟩
  | some streak =>
    obtain ⟨k, t⟩ := streak
    obtain ⟨hstreak, ht, hopened⟩ := h
    refine ⟨by simp [recordFailure, hstreak], le_rfl, ?_⟩
    have hle : t + cooldown base cap k ≤ now + cooldown base cap (k + 1) :=
      add_le_add (ht.trans hnow) (cooldown_mono (Nat.le_succ k))
    show max s.inner.openedUntil (now + cooldown base cap (s.inner.failureStreak + 1)) = _
    rw [hopened, hstreak, max_assoc, max_eq_right hle]
    rfl

theorem Scheduled.call {before : Option (ℕ × ℚ)} (h : Scheduled base cap s before)
    (hc : call base cap s c = some s') : Scheduled base cap s' (extend before c) := by
  obtain ⟨hclock, hnow, hinner⟩ := call_eq_some.mp hc
  obtain ⟨clock, inner⟩ := s'
  dsimp only at hnow hinner
  subst hnow hinner
  cases hact : c.act with
  | recordFailure =>
    simp only [after, extend, hact]
    exact scheduled_recordFailure h hclock
  | recordSuccess =>
    simp only [after, extend, hact]
    rfl
  | allowRequest | remainingBlockedSeconds =>
    simp only [after, extend, hact]
    cases before with
    | none => exact h
    | some streak => exact ⟨h.1, h.2.1.trans hclock, h.2.2⟩

theorem scheduled_of_run {t₀ : ℚ} (h : exec (call base cap) (created t₀) calls = some s) :
    Scheduled base cap s (streak calls) := by
  refine exec_history (fun calls s => Scheduled base cap s (streak calls))
    (show (created t₀).inner = init from rfl) ?_ h
  intro calls u c v _ hu hstep
  rw [streak_concat]
  exact hu.call hstep

theorem openedUntil_le_after (hact : c.act ≠ .recordSuccess) (hc : call base cap s c = some s') :
    s.inner.openedUntil ≤ s'.inner.openedUntil := by
  obtain ⟨-, -, hinner⟩ := call_eq_some.mp hc
  rw [hinner]
  cases h : c.act with
  | recordFailure => exact le_max_left _ _
  | recordSuccess => exact absurd h hact
  | allowRequest | remainingBlockedSeconds => exact le_rfl

theorem one_le_streak {k : ℕ} {t : ℚ} (h : streak calls = some (k, t)) : 1 ≤ k := by
  induction calls using List.reverseRecOn with
  | nil => cases h
  | append_singleton calls c ih =>
    rw [streak_concat, extend] at h
    split at h
    · cases h
      exact Nat.le_add_left 1 _
    · cases h
    · exact ih h
    · exact ih h

theorem clock_le_of_run {t₀ : ℚ} (h : exec (call base cap) (created t₀) calls = some s) :
    t₀ ≤ s.clock :=
  exec_invariant (fun s => t₀ ≤ s.clock) le_rfl
    (fun _ _ _ hle hstep => by
      obtain ⟨hclock, hnow, -⟩ := call_eq_some.mp hstep
      exact hnow ▸ hle.trans hclock) h

/-- A streak of failures that are not before time 0 ends in the block of its length. -/
theorem openedUntil_of_streak {t₀ t : ℚ} {k : ℕ} (hcap : 0 ≤ cap)
    (h : exec (call base cap) (created t₀) calls = some s) (hstreak : streak calls = some (k, t))
    (ht : 0 ≤ t) : s.inner.openedUntil = t + cooldown base cap k := by
  have hscheduled := scheduled_of_run h
  rw [hstreak] at hscheduled
  obtain ⟨-, -, hopened⟩ := hscheduled
  rw [hopened, max_eq_right (add_nonneg ht (cooldown_nonneg hcap k))]

/-- The latest failure of a streak is not before the guard was made. -/
theorem le_of_streak {t₀ t : ℚ} {k : ℕ} (h : exec (call base cap) (created t₀) calls = some s)
    (hstreak : streak calls = some (k, t)) : t₀ ≤ t := by
  refine exec_history (fun calls _ => ∀ k t, streak calls = some (k, t) → t₀ ≤ t) ?_ ?_ h k t
    hstreak
  · intro k t hnone
    cases hnone
  · intro calls u c v hu hbefore hstep k t hafter
    rw [streak_concat, extend] at hafter
    split at hafter
    · obtain ⟨hclock, -, -⟩ := call_eq_some.mp hstep
      cases hafter
      exact (clock_le_of_run hu).trans hclock
    · cases hafter
    · exact hbefore k t hafter
    · exact hbefore k t hafter

/-- After each failure the guard blocks for the cooldown of its place in the streak; the end of the
block moves back at a success only, and is at most `max_seconds` after the latest failure. -/
theorem backoff_schedule {t₀ : ℚ} (ht₀ : 0 ≤ t₀) (hcap : 0 ≤ cap)
    (h : exec (call base cap) (created t₀) calls = some s) :
    (∀ s' k t, call base cap s c = some s' → c.act = .recordFailure →
      streak (calls ++ [c]) = some (k, t) → 1 ≤ k ∧ t = c.now ∧
      remainingBlockedSeconds c.now s'.inner = min cap (max (1 / 10) base * (min 8 k : ℕ))) ∧
    (∀ s', call base cap s c = some s' → c.act ≠ .recordSuccess →
      s.inner.openedUntil ≤ s'.inner.openedUntil) ∧
    (∀ k t, streak calls = some (k, t) → s.inner.openedUntil ≤ t + cap) ∧
    ∀ now, allowRequest now s.inner = true ↔ remainingBlockedSeconds now s.inner = 0 := by
  refine ⟨?_, fun s' hc hact => openedUntil_le_after hact hc, ?_,
    fun now => remainingBlockedSeconds_eq_zero.symm⟩
  · intro s' k t hc hact hstreak
    have hrun : exec (call base cap) (created t₀) (calls ++ [c]) = some s' :=
      exec_concat_eq_some.mpr ⟨s, h, hc⟩
    have hk := one_le_streak hstreak
    have ht : t = c.now := by
      rw [streak_concat, extend, hact] at hstreak
      cases hstreak
      rfl
    have hopened := openedUntil_of_streak hcap hrun hstreak (ht₀.trans (le_of_streak hrun hstreak))
    refine ⟨hk, ht, ?_⟩
    calc remainingBlockedSeconds c.now s'.inner
        = max 0 (c.now + cooldown base cap k - c.now) := by
          rw [remainingBlockedSeconds, hopened, ht]
      _ = cooldown base cap k := by
          rw [add_sub_cancel_left, max_eq_right (cooldown_nonneg hcap k)]
      _ = _ := cooldown_eq hk
  · intro k t hstreak
    rw [openedUntil_of_streak hcap h hstreak (ht₀.trans (le_of_streak h hstreak))]
    exact add_le_add_right (cooldown_le k) t

/-- Two failures at one instant. -/
def failedTwice : List (Stamped ℚ Op) := [⟨100, .recordFailure⟩, ⟨100, .recordFailure⟩]

theorem backoff_schedule_twice :
    exec (call 1 30) (created 0) failedTwice = some ⟨100, ⟨2, 102⟩⟩ ∧
    remainingBlockedSeconds 100 ⟨3, 103⟩ = min 30 (max (1 / 10 : ℚ) 1 * (min 8 3 : ℕ)) :=
  have hrun : exec (call 1 30) (created 0) failedTwice = some ⟨100, ⟨2, 102⟩⟩ := by decide +kernel
  ⟨hrun, ((backoff_schedule (c := ⟨100, .recordFailure⟩) le_rfl (by norm_num) hrun).1
    ⟨100, ⟨3, 103⟩⟩ 3 100 (by decide +kernel) rfl rfl).2.2⟩

end Schedule

end ChainMonitor.Backoff
