import Mathlib.Algebra.Order.Field.Basic
import Mathlib.Order.Bounds.Basic
import Mathlib.Tactic.Linarith

/-! Falls of a curve: the shares by which it loses from a positive value to a later one. A scan that
keeps the current value, the peak so far and the worst fall from that peak finds the greatest of
them, as long as the curve does not become negative. -/

namespace ChainMonitor.ProofKit

/-- The values of the curve `E` up to the `n`-th. -/
def valuesUpTo {α : Type*} (E : ℕ → α) (n : ℕ) : Set α := {e | ∃ i ≤ n, e = E i}

theorem valuesUpTo_succ {α : Type*} (E : ℕ → α) (n : ℕ) :
    valuesUpTo E (n + 1) = insert (E (n + 1)) (valuesUpTo E n) := by
  ext e
  constructor
  · rintro ⟨i, hi, rfl⟩
    rcases Nat.le_succ_iff.mp hi with hi | rfl
    · exact .inr ⟨i, hi, rfl⟩
    · exact .inl rfl
  · rintro (rfl | ⟨i, hi, rfl⟩)
    · exact ⟨n + 1, le_rfl, rfl⟩
    · exact ⟨i, by omega, rfl⟩

variable {K : Type*} [Field K] [LinearOrder K]

/-- The falls of `E` from a positive value to a later one or to itself, up to the `n`-th. -/
def fallsUpTo (E : ℕ → K) (n : ℕ) : Set K :=
  {d | ∃ i j, i ≤ j ∧ j ≤ n ∧ 0 < E i ∧ d = (E i - E j) / E i}

/-- What a scan of the first values of `E` knows. -/
structure TracksFalls (E : ℕ → K) (n : ℕ) (current peak worst : K) : Prop where
  current : current = E n
  peak : IsGreatest (valuesUpTo E n) peak
  worst : IsGreatest (fallsUpTo E n) worst

variable {E : ℕ → K} {n : ℕ} {current peak worst : K}

/-- The new falls are those that end in the new value. -/
theorem mem_fallsUpTo_succ {d : K} :
    d ∈ fallsUpTo E (n + 1) ↔ d ∈ fallsUpTo E n ∨
      ∃ e ∈ valuesUpTo E (n + 1), 0 < e ∧ d = (e - E (n + 1)) / e := by
  constructor
  · rintro ⟨i, j, hij, hj, hpos, rfl⟩
    rcases Nat.le_succ_iff.mp hj with hj | rfl
    · exact .inl ⟨i, j, hij, hj, hpos, rfl⟩
    · exact .inr ⟨E i, ⟨i, hij, rfl⟩, hpos, rfl⟩
  · rintro (⟨i, j, hij, hj, hpos, rfl⟩ | ⟨e, ⟨i, hi, rfl⟩, hpos, rfl⟩)
    · exact ⟨i, j, hij, by omega, hpos, rfl⟩
    · exact ⟨i, n + 1, hi, le_rfl, hpos, rfl⟩

theorem TracksFalls.start (h : 0 < E 0) : TracksFalls E 0 (E 0) (E 0) 0 := by
  refine ⟨rfl, ⟨⟨0, le_rfl, rfl⟩, ?_⟩, ⟨0, 0, le_rfl, le_rfl, h, by simp⟩, ?_⟩
  · rintro e ⟨i, hi, rfl⟩
    rw [Nat.le_zero.mp hi]
  · rintro d ⟨i, j, hij, hj, -, rfl⟩
    obtain rfl : j = 0 := Nat.le_zero.mp hj
    obtain rfl : i = 0 := Nat.le_zero.mp hij
    simp

/-- The peak does not fall below the first value. -/
theorem TracksFalls.peak_pos (h : TracksFalls E n current peak worst) (hstart : 0 < E 0) :
    0 < peak := hstart.trans_le (h.peak.2 ⟨0, Nat.zero_le n, rfl⟩)

variable [IsStrictOrderedRing K]

/-- From a higher value the same value, unless it is negative, is the greater fall. -/
theorem fall_mono {a b e : K} (hb : 0 < b) (hba : b ≤ a) (he : 0 ≤ e) :
    (b - e) / b ≤ (a - e) / a := by
  have ha : 0 < a := hb.trans_le hba
  rw [sub_div, sub_div, div_self hb.ne', div_self ha.ne']
  have hle : e / a ≤ e / b := div_le_div_of_nonneg_left he hb hba
  linarith

theorem TracksFalls.next (h : TracksFalls E n current peak worst) (hstart : 0 < E 0)
    (hnonneg : 0 ≤ E (n + 1)) :
    TracksFalls E (n + 1) (E (n + 1)) (max peak (E (n + 1)))
      (max worst ((max peak (E (n + 1)) - E (n + 1)) / max peak (E (n + 1)))) := by
  have hpeak : IsGreatest (valuesUpTo E (n + 1)) (max peak (E (n + 1))) := by
    rw [valuesUpTo_succ, max_comm]
    exact h.peak.insert _
  have hpos : 0 < max peak (E (n + 1)) := lt_max_of_lt_left (h.peak_pos hstart)
  refine ⟨rfl, hpeak, ?_, ?_⟩
  · rw [mem_fallsUpTo_succ]
    rcases max_choice worst ((max peak (E (n + 1)) - E (n + 1)) / max peak (E (n + 1))) with
      hw | hw
    · rw [hw]
      exact .inl h.worst.1
    · rw [hw]
      exact .inr ⟨_, hpeak.1, hpos, rfl⟩
  · intro d hd
    rcases mem_fallsUpTo_succ.mp hd with hd | ⟨e, he, hepos, rfl⟩
    · exact le_max_of_le_left (h.worst.2 hd)
    · exact le_max_of_le_right (fall_mono hepos (hpeak.2 he) hnonneg)

/-- The falls of a curve without negative values are shares. -/
theorem fallsUpTo_bounds (hstart : 0 < E 0) (hnonneg : ∀ i ≤ n, 0 ≤ E i) {d : K}
    (h : IsGreatest (fallsUpTo E n) d) : 0 ≤ d ∧ d ≤ 1 := by
  constructor
  · exact h.2 ⟨0, 0, le_rfl, Nat.zero_le n, hstart, by simp⟩
  · obtain ⟨i, j, -, hj, hpos, rfl⟩ := h.1
    rw [div_le_one hpos]
    exact sub_le_self _ (hnonneg j hj)

end ChainMonitor.ProofKit
