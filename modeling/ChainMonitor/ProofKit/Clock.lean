import ChainMonitor.ProofKit.Run
import Mathlib.Algebra.BigOperators.Group.List.Basic
import Mathlib.Algebra.Order.Group.Defs
import Mathlib.Tactic.Abel

/-! Systems that read a clock. Each label of a `Clocked` system carries the time at which its step
happens, and no step happens before an earlier one. -/

namespace ChainMonitor.ProofKit

variable {τ σ α : Type*} [LinearOrder τ]

/-- A state together with the time of the last step. -/
structure Clocked (τ σ : Type*) where
  clock : τ
  inner : σ
  deriving DecidableEq

/-- A label and the time at which its step happens. -/
structure Stamped (τ α : Type*) where
  now : τ
  act : α
  deriving DecidableEq

/-- The step function `step`, read at the label's time, which is not before the clock. -/
def clocked (step : σ → τ → α → Option σ) (s : Clocked τ σ) (a : Stamped τ α) :
    Option (Clocked τ σ) :=
  if s.clock ≤ a.now then (step s.inner a.now a.act).map fun s' => ⟨a.now, s'⟩ else none

variable {step : σ → τ → α → Option σ} {s t : Clocked τ σ}

/-- What a step of a clocked system is: a step of the system at the label's time. -/
theorem clocked_eq_some {a : Stamped τ α} :
    clocked step s a = some t ↔
      s.clock ≤ a.now ∧ t.clock = a.now ∧ step s.inner a.now a.act = some t.inner := by
  unfold clocked
  split
  · rename_i h
    simp only [h, true_and, Option.map_eq_some_iff]
    constructor
    · rintro ⟨s', hs, rfl⟩
      exact ⟨rfl, hs⟩
    · rintro ⟨hc, hs⟩
      exact ⟨t.inner, hs, by rw [← hc]⟩
  · rename_i h
    simp [h]

/-! ### Systems that answer -/

/-- A state together with the labels taken so far and what each was answered. -/
structure Recorded (τ σ α β : Type*) where
  inner : σ
  log : List (Stamped τ α × β)
  deriving DecidableEq

/-- The step of a system that answers every label, with its answers on record. -/
def recorded {τ σ α β : Type*} (answer : σ → τ → α → β × σ) (s : Recorded τ σ α β) (now : τ)
    (a : α) : Option (Recorded τ σ α β) :=
  let (b, s') := answer s.inner now a
  some ⟨s', s.log ++ [(⟨now, a⟩, b)]⟩

theorem clocked_recorded_eq_some {α β : Type*} {answer : σ → τ → α → β × σ}
    {s t : Clocked τ (Recorded τ σ α β)} {a : Stamped τ α} :
    clocked (recorded answer) s a = some t ↔
      s.clock ≤ a.now ∧ t.clock = a.now ∧
        t.inner.inner = (answer s.inner.inner a.now a.act).2 ∧
        t.inner.log = s.inner.log ++ [(a, (answer s.inner.inner a.now a.act).1)] := by
  rw [clocked_eq_some]
  refine and_congr_right fun _ => and_congr_right fun _ => ?_
  show some _ = some t.inner ↔ _
  obtain ⟨clock, inner, log⟩ := t
  rw [Option.some.injEq, Recorded.mk.injEq]
  exact and_congr eq_comm eq_comm

/-! ### Spans of time -/

/-- Spans between two times, of which none begins before the last has ended, are together no longer
than the time between these. -/
theorem sum_spans_le {κ : Type*} [AddCommGroup κ] [LinearOrder κ] [IsOrderedAddMonoid κ]
    {lo hi : κ} {spans : List (κ × κ)}
    (h : (lo :: spans.flatMap (fun s => [s.1, s.2]) ++ [hi]).Pairwise (· ≤ ·)) :
    (spans.map fun s => s.2 - s.1).sum ≤ hi - lo := by
  induction spans generalizing lo with
  | nil => simpa using h
  | cons s spans ih =>
    obtain ⟨start, stop⟩ := s
    simp only [List.flatMap_cons, List.cons_append, List.nil_append, List.pairwise_cons] at h
    obtain ⟨hlo, -, hrest⟩ := h
    have hstart : lo ≤ start := hlo start List.mem_cons_self
    have hsum := ih (List.pairwise_cons.mpr hrest)
    rw [List.map_cons, List.sum_cons]
    calc stop - start + (spans.map fun s => s.2 - s.1).sum
        ≤ stop - start + (hi - stop) := add_le_add_right hsum _
      _ = hi - start := by abel
      _ ≤ hi - lo := sub_le_sub_left hstart hi

end ChainMonitor.ProofKit
