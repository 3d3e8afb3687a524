import ChainMonitor.Backtest.Metrics
import ChainMonitor.ProofKit.Drawdown

/-! `_max_drawdown_pct` of `backtest/engine.py`: its one pass finds the greatest of the falls
between any two points of the equity, as long as the equity does not become negative. -/

namespace ChainMonitor.Backtest

open ProofKit

/-- The equity after the first `i` trades of a run that begins with ten times its trade size. -/
def equity (size : ℚ) (nets : List ℚ) (i : ℕ) : ℚ := size * 10 + (nets.take i).sum

variable {size : ℚ} {nets : List ℚ}

theorem equity_zero (size : ℚ) (nets : List ℚ) : equity size nets 0 = size * 10 := by
  simp [equity]

theorem equity_succ {i : ℕ} (h : i < nets.length) :
    equity size nets (i + 1) = equity size nets i + nets[i] := by
  rw [equity, equity, ← List.take_append_getElem h, List.sum_append, List.sum_singleton, add_assoc]

/-- Where the peak is positive, the loop compares with the fall from it. -/
theorem Drawdown.step_of_pos {s : Drawdown} {v : ℚ} (h : 0 < max s.peak (s.equity + v)) :
    s.step v = ⟨s.equity + v, max s.peak (s.equity + v),
      max s.maxDd ((max s.peak (s.equity + v) - (s.equity + v)) / max s.peak (s.equity + v))⟩ := by
  rw [Drawdown.step_eq]
  dsimp only
  rw [if_pos h]

/-- After the first `n` trades the loop knows the equity, its peak and the greatest fall so far. -/
theorem tracksFalls_foldl (hsize : 0 < size) (hnonneg : ∀ i ≤ nets.length, 0 ≤ equity size nets i)
    {n : ℕ} (hn : n ≤ nets.length) :
    let s := (nets.take n).foldl Drawdown.step ⟨size * 10, size * 10, 0⟩
    TracksFalls (equity size nets) n s.equity s.peak s.maxDd := by
  have hstart : 0 < equity size nets 0 := by
    rw [equity_zero]
    linarith
  induction n with
  | zero =>
    have h := TracksFalls.start hstart
    rwa [equity_zero] at h
  | succ n ih =>
    have hlt : n < nets.length := hn
    have h := ih hlt.le
    have hequity : equity size nets (n + 1) = equity size nets n + nets[n] := equity_succ hlt
    rw [← h.current] at hequity
    have hnext := h.next hstart (hnonneg (n + 1) hn)
    rw [hequity] at hnext
    rw [← List.take_append_getElem hlt, List.foldl_append, List.foldl_cons, List.foldl_nil,
      Drawdown.step_of_pos (lt_max_of_lt_left (h.peak_pos hstart))]
    exact hnext

/-- The maximum drawdown is the greatest fall of the equity between any two of its points. -/
theorem maxDrawdownPct_isGreatest (hsize : 0 < size)
    (hnonneg : ∀ i ≤ nets.length, 0 ≤ equity size nets i) :
    IsGreatest
      {d | ∃ i j, i ≤ j ∧ j ≤ nets.length ∧ 0 < equity size nets i ∧
        d = (equity size nets i - equity size nets j) / equity size nets i}
      (maxDrawdownPct nets size) ∧
    0 ≤ maxDrawdownPct nets size ∧ maxDrawdownPct nets size ≤ 1 := by
  have hstart : 0 < equity size nets 0 := by
    rw [equity_zero]
    linarith
  have hall := (tracksFalls_foldl hsize hnonneg le_rfl).worst
  rw [List.take_length] at hall
  exact ⟨hall, fallsUpTo_bounds hstart hnonneg hall⟩

/-- The equity goes from 1000 over 1500 and 600 to 1200. -/
theorem maxDrawdownPct_isGreatest_three_trades :
    IsGreatest
      {d | ∃ i j, i ≤ j ∧ j ≤ 3 ∧ 0 < equity 100 [500, -900, 600] i ∧
        d = (equity 100 [500, -900, 600] i - equity 100 [500, -900, 600] j) /
          equity 100 [500, -900, 600] i}
      (3 / 5) := by
  have hnonneg : ∀ i ≤ [(500 : ℚ), -900, 600].length, 0 ≤ equity 100 [500, -900, 600] i := by
    decide +kernel
  have hvalue : maxDrawdownPct [500, -900, 600] 100 = 3 / 5 := by decide +kernel
  have h := (maxDrawdownPct_isGreatest (by norm_num) hnonneg).1
  rwa [hvalue] at h

end ChainMonitor.Backtest
