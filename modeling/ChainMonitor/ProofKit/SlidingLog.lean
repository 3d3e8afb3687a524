import ChainMonitor.ProofKit.Run
import Mathlib.Algebra.Order.Group.Defs
import Mathlib.Algebra.Order.Sub.Basic
import Mathlib.Data.List.Sort

/-! Sliding windows kept as a log. A limiter admits an arrival when fewer than `limit` of the
admissions before it lie within the last `window`, and keeps of the history of admissions a log from
which it drops what is too old. The log answers as the whole history would as long as it retains
what the window still covers. -/

namespace ChainMonitor.ProofKit

variable {K : Type*} [LinearOrder K] {cutoff cutoff' now now' window : K} {log history : List K}
  {limit : ℕ}

/-- The times that are not before `cutoff`. -/
def recent (cutoff : K) (log : List K) : List K := log.filter (cutoff ≤ ·)

/-- `while log and log[0] < cutoff: log.popleft()`. -/
def prune (cutoff : K) (log : List K) : List K := log.dropWhile (· < cutoff)

@[simp] theorem recent_nil : recent cutoff ([] : List K) = [] := rfl

@[simp] theorem prune_nil : prune cutoff ([] : List K) = [] := rfl

theorem recent_append (log more : List K) :
    recent cutoff (log ++ more) = recent cutoff log ++ recent cutoff more :=
  List.filter_append log more

theorem recent_eq_nil : recent cutoff log = [] ↔ ∀ t ∈ log, t < cutoff := by
  simp [recent, List.filter_eq_nil_iff]

theorem recent_recent (h : cutoff ≤ cutoff') :
    recent cutoff' (recent cutoff log) = recent cutoff' log := by
  unfold recent
  rw [List.filter_filter]
  apply List.filter_congr
  intro t _
  by_cases hl : cutoff' ≤ t
  · simp [hl, h.trans hl]
  · simp [hl]

/-- In a sorted log, what is too old comes first. -/
theorem prune_eq_recent (h : log.Pairwise (· ≤ ·)) : prune cutoff log = recent cutoff log := by
  induction log with
  | nil => rfl
  | cons t log ih =>
    obtain ⟨ht, hlog⟩ := List.pairwise_cons.mp h
    by_cases hold : t < cutoff
    · have hdrop : prune cutoff (t :: log) = prune cutoff log := by simp [prune, hold]
      have hfilter : recent cutoff (t :: log) = recent cutoff log := by
        simp [recent, hold]
      rw [hdrop, hfilter, ih hlog]
    · have hkeep : prune cutoff (t :: log) = t :: log := by simp [prune, hold]
      have hall : recent cutoff (t :: log) = t :: log := by
        apply List.filter_eq_self.mpr
        intro u hu
        have hge := not_lt.mp hold
        rcases List.mem_cons.mp hu with rfl | hu
        · simpa using hge
        · simpa using hge.trans (ht u hu)
      rw [hkeep, hall]

/-- Each time had fewer than `limit` of the times before it within the last `window`. -/
def Paced [Sub K] (limit : ℕ) (window : K) (history : List K) : Prop :=
  Throughout (fun before t => (recent (t - window) before).length < limit) history

section Window

variable [AddCommGroup K] [IsOrderedAddMonoid K]

/-- No window holds more than `limit` times of a paced history. -/
theorem Paced.window_le (h : Paced limit window history) (start : K) :
    (history.filter fun t => start ≤ t ∧ t ≤ start + window).length ≤ limit := by
  induction history using List.reverseRecOn with
  | nil => exact Nat.zero_le limit
  | append_singleton history t ih =>
    obtain ⟨hfront, hlt⟩ := throughout_concat.mp h
    rw [List.filter_append, List.length_append]
    by_cases hin : start ≤ t ∧ t ≤ start + window
    · have hsub : (history.filter fun u => start ≤ u ∧ u ≤ start + window).length ≤
          (recent (t - window) history).length := by
        apply List.Sublist.length_le
        apply List.monotone_filter_right
        intro u hu
        have hstart : start ≤ u := (of_decide_eq_true hu).1
        have hcut : t - window ≤ start := sub_le_iff_le_add.mpr hin.2
        simpa using hcut.trans hstart
      have hone : ([t].filter fun u => start ≤ u ∧ u ≤ start + window).length = 1 := by
        simp [hin]
      omega
    · have hnone : ([t].filter fun u => start ≤ u ∧ u ≤ start + window).length = 0 := by
        simpa using hin
      have := ih hfront
      omega

/-- Pruned to a cutoff of the window that ends at `now`, or of a later one, the log is what the
whole history has from there on. -/
def Retains (window now : K) (log history : List K) : Prop :=
  ∀ cutoff, now - window ≤ cutoff → prune cutoff log = recent cutoff history

omit [IsOrderedAddMonoid K] in
theorem Retains.nil : Retains window now [] [] := fun _ _ => rfl

theorem Retains.later (h : Retains window now log history) (hle : now ≤ now') :
    Retains window now' log history :=
  fun cutoff hc => h cutoff ((sub_le_sub_right hle window).trans hc)

/-- What the window covers is what pruning leaves. -/
theorem Retains.prune_eq (h : Retains window now log history) (hle : now ≤ now') :
    prune (now' - window) log = recent (now' - window) history :=
  h _ (sub_le_sub_right hle window)

theorem Retains.pruned (h : Retains window now log history) (hle : now ≤ now')
    (hsorted : history.Pairwise (· ≤ ·)) :
    Retains window now' (prune (now' - window) log) history := by
  intro cutoff hc
  have hrecent : (recent (now' - window) history).Pairwise (· ≤ ·) := hsorted.filter _
  rw [h.prune_eq hle, prune_eq_recent hrecent, recent_recent hc]

theorem Retains.admitted (h : Retains window now log history) (hle : now ≤ now')
    (hsorted : (history ++ [now']).Pairwise (· ≤ ·)) :
    Retains window now' (prune (now' - window) log ++ [now']) (history ++ [now']) := by
  intro cutoff hc
  have hsub : (recent (now' - window) history ++ [now']).Sublist (history ++ [now']) :=
    List.filter_sublist.append_right _
  rw [h.prune_eq hle, prune_eq_recent (hsorted.sublist hsub), recent_append, recent_append,
    recent_recent hc]

omit [IsOrderedAddMonoid K] in
/-- The whole log may go once the window covers none of the history. -/
theorem Retains.forgotten (h : ∀ t ∈ history, t < now - window) :
    Retains window now [] history := by
  intro cutoff hc
  rw [prune_nil, recent_eq_nil.mpr fun t ht => (h t ht).trans_le hc]

end Window

end ChainMonitor.ProofKit
