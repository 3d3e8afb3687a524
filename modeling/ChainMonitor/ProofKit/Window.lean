import ChainMonitor.ProofKit.Clock
import Mathlib.Algebra.Order.Field.Basic
import Mathlib.Data.Set.Basic
import Mathlib.Tactic.Linarith
import Mathlib.Tactic.Ring

/-! A budget that refills with time. When every step of a clocked system pays for what it grants out
of a potential that is never negative, never above `cap` and grows at `rate` at most, the grants of
any window `[t₁, t₂]` of any run number at most `cap + rate * (t₂ - t₁)`. A quota does not refill,
and is checked before it is used: its load stays within the limit as long as nobody else keeps a
permit when a place is taken. -/

namespace ChainMonitor.ProofKit

variable {K σ α : Type*} [Field K] [LinearOrder K] [IsStrictOrderedRing K]

/-- The grants of a step, when its time is in the window `[t₁, t₂]`. -/
def grantsIn (granted : Clocked K σ → Stamped K α → ℕ) (t₁ t₂ : K) (s : Clocked K σ)
    (a : Stamped K α) : ℕ :=
  if t₁ ≤ a.now ∧ a.now ≤ t₂ then granted s a else 0

/-- A potential that pays for the grants of every step out of its refill. -/
structure Budget (step : σ → K → α → Option σ) (granted : Clocked K σ → Stamped K α → ℕ)
    (cap rate : K) where
  Inv : Clocked K σ → Prop
  potential : Clocked K σ → K
  nonneg : ∀ s, Inv s → 0 ≤ potential s
  le_cap : ∀ s, Inv s → potential s ≤ cap
  preserved : ∀ s a s', Inv s → clocked step s a = some s' → Inv s'
  pays : ∀ s a s', Inv s → clocked step s a = some s' →
    potential s' + granted s a ≤ min cap (potential s + rate * (a.now - s.clock))

namespace Budget

variable {step : σ → K → α → Option σ} {granted : Clocked K σ → Stamped K α → ℕ} {cap rate : K}

/-- What the window's grants `n` amount to when the clock shows `s.clock`: none before the window,
what has been refilled within it, and no more once it is over. -/
def Within (B : Budget step granted cap rate) (t₁ t₂ : K) (n : ℕ) (s : Clocked K σ) : Prop :=
  (s.clock < t₁ → n = 0) ∧
  (t₁ ≤ s.clock → s.clock ≤ t₂ → (n : K) + B.potential s ≤ cap + rate * (s.clock - t₁)) ∧
  (t₂ < s.clock → (n : K) ≤ cap + rate * (t₂ - t₁))

variable (B : Budget step granted cap rate) {t₁ t₂ : K} {s s' : Clocked K σ} {a : Stamped K α}
  {n : ℕ}

/-- Wherever the clock is, the window's grants are within the bound of the whole window. -/
theorem Within.le (hrate : 0 ≤ rate) (ht : t₁ ≤ t₂) (hi : B.Inv s) (hw : B.Within t₁ t₂ n s) :
    (n : K) ≤ cap + rate * (t₂ - t₁) := by
  obtain ⟨hbefore, hduring, hafter⟩ := hw
  have hnonneg := B.nonneg s hi
  have hcap := B.le_cap s hi
  have hwin : 0 ≤ rate * (t₂ - t₁) := mul_nonneg hrate (by linarith)
  rcases lt_or_ge s.clock t₁ with hc | hc
  · rw [hbefore hc, Nat.cast_zero]
    linarith
  · rcases le_or_gt s.clock t₂ with hd | hd
    · have hsum := hduring hc hd
      have hmono : rate * (s.clock - t₁) ≤ rate * (t₂ - t₁) :=
        mul_le_mul_of_nonneg_left (by linarith) hrate
      linarith
    · exact hafter hd

theorem Within.next (hrate : 0 ≤ rate) (ht : t₁ ≤ t₂) (hi : B.Inv s)
    (hw : B.Within t₁ t₂ n s) (hs : clocked step s a = some s') :
    B.Within t₁ t₂ (n + grantsIn granted t₁ t₂ s a) s' := by
  have hbound := Within.le B hrate ht hi hw
  obtain ⟨hbefore, hduring, -⟩ := hw
  obtain ⟨hle, hnow, -⟩ := clocked_eq_some.mp hs
  have hpays := le_min_iff.mp (B.pays s a s' hi hs)
  unfold grantsIn
  refine ⟨fun h => ?_, fun h1 h2 => ?_, fun h => ?_⟩ <;> rw [hnow] at *
  · have hlt : s.clock < t₁ := hle.trans_lt h
    simp [hbefore hlt, h.not_ge]
  · simp only [h1, h2, and_self, ↓reduceIte, Nat.cast_add]
    rcases lt_or_ge s.clock t₁ with hc | hc
    · have hwin : 0 ≤ rate * (a.now - t₁) := mul_nonneg hrate (by linarith)
      simp only [hbefore hc, Nat.cast_zero]
      linarith
    · have hsum := hduring hc (hle.trans h2)
      have hsplit : rate * (a.now - t₁) =
          rate * (s.clock - t₁) + rate * (a.now - s.clock) := by ring
      linarith
  · simp only [h.not_ge, and_false, ↓reduceIte, Nat.add_zero]
    exact hbound

/-- The grants of a window of any run that starts with the invariant. -/
theorem window_le (hrate : 0 ≤ rate) (ht : t₁ ≤ t₂) {s₀ : Clocked K σ} (hi : B.Inv s₀)
    {as : List (Stamped K α)} (h : exec (clocked step) s₀ as = some s) :
    (total (clocked step) (grantsIn granted t₁ t₂) s₀ as : K) ≤ cap + rate * (t₂ - t₁) := by
  have hinit : B.Within t₁ t₂ 0 s₀ := by
    have hcap := B.le_cap s₀ hi
    have hnonneg := B.nonneg s₀ hi
    have hwin : 0 ≤ rate * (t₂ - t₁) := mul_nonneg hrate (by linarith)
    refine ⟨fun _ => rfl, fun h1 _ => ?_, fun _ => ?_⟩
    · have hsince : 0 ≤ rate * (s₀.clock - t₁) := mul_nonneg hrate (by linarith)
      simp only [Nat.cast_zero]
      linarith
    · simp only [Nat.cast_zero]
      linarith
  have hrun : B.Inv s ∧
      B.Within t₁ t₂ (total (clocked step) (grantsIn granted t₁ t₂) s₀ as) s := by
    refine exec_history (fun as s => B.Inv s ∧
      B.Within t₁ t₂ (total (clocked step) (grantsIn granted t₁ t₂) s₀ as) s) ⟨hi, hinit⟩ ?_ h
    intro as u a v hu ⟨hiu, hwu⟩ hv
    rw [total_concat hu]
    exact ⟨B.preserved u a v hiu hv, Within.next B hrate ht hiu hwu hv⟩
  exact Within.le B hrate ht hrun.1 hrun.2

end Budget

/-! ### Quotas -/

/-- The load of a quota, and the takers that have seen room in it. A taker takes its place in a
later step; between the two the load may fall, but it does not grow. -/
structure Quota (κ : Type*) where
  load : ℕ
  permitted : Set κ

namespace Quota

variable {κ : Type*} {limit : ℕ} {q q' : Quota κ}

inductive Step (limit : ℕ) (q q' : Quota κ) : Prop
  | ease (hload : q'.load ≤ q.load) (hpermitted : q'.permitted ⊆ q.permitted)
  | permit (hroom : q'.load < limit)
  | take (hpermitted : q.permitted.Nonempty) (hload : q'.load ≤ q.load + 1)
      (hnone : q'.permitted = ∅)

/-- The load is within the limit, and below it while somebody holds a permit. -/
structure Within (limit : ℕ) (q : Quota κ) : Prop where
  load_le : q.load ≤ limit
  room : q.permitted.Nonempty → q.load < limit

theorem Within.step (h : Within limit q) (hs : Step limit q q') : Within limit q' := by
  cases hs with
  | ease hload hpermitted =>
    refine ⟨hload.trans h.load_le, fun hne => ?_⟩
    have hroom := h.room (hne.mono hpermitted)
    omega
  | permit hroom => exact ⟨hroom.le, fun _ => hroom⟩
  | take hpermitted hload hnone =>
    have hroom := h.room hpermitted
    refine ⟨by omega, fun hne => ?_⟩
    rw [hnone] at hne
    exact absurd hne Set.not_nonempty_empty

end Quota

end ChainMonitor.ProofKit
