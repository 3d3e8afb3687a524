import Mathlib.Data.Int.Order.Basic
import Mathlib.Data.List.Induction
import Mathlib.Logic.Function.Basic

/-! Finite runs of a partial step function: `exec` follows a list of labels, `Meets` says that every
step of such a run meets a condition on the state before it, and the rules at the end carry an
invariant from one step to a whole run. A parameter of such a system is often a whole number that
its constructor keeps at 1 or above. -/

namespace ChainMonitor.ProofKit

theorem one_le_toNat_max (n : ℤ) : 1 ≤ (max 1 n).toNat := by omega

variable {σ α : Type*} {step : σ → α → Option σ} {ok : σ → α → Prop}

/-- The state after the steps labelled `as`, or `none` when one of them is not enabled. -/
def exec (step : σ → α → Option σ) : σ → List α → Option σ
  | s, [] => some s
  | s, a :: as => (step s a).bind fun s' => exec step s' as

@[simp] theorem exec_nil (s : σ) : exec step s [] = some s := rfl

@[simp] theorem exec_cons (s : σ) (a : α) (as : List α) :
    exec step s (a :: as) = (step s a).bind fun s' => exec step s' as := rfl

theorem exec_cons_eq_some {s t : σ} {a : α} {as : List α} :
    exec step s (a :: as) = some t ↔ ∃ s', step s a = some s' ∧ exec step s' as = some t :=
  Option.bind_eq_some_iff

theorem exec_append (s : σ) (as bs : List α) :
    exec step s (as ++ bs) = (exec step s as).bind fun s' => exec step s' bs := by
  induction as generalizing s with
  | nil => rfl
  | cons a as ih =>
    cases h : step s a with
    | none => simp [h]
    | some s' => simp [h, ih]

theorem exec_append_eq_some {s t : σ} {as bs : List α} :
    exec step s (as ++ bs) = some t ↔
      ∃ s', exec step s as = some s' ∧ exec step s' bs = some t := by
  rw [exec_append]
  exact Option.bind_eq_some_iff

theorem exec_concat_eq_some {s t : σ} {as : List α} {a : α} :
    exec step s (as ++ [a]) = some t ↔ ∃ s', exec step s as = some s' ∧ step s' a = some t := by
  simp [exec_append_eq_some]

/-- Every step of the run from `s` along `as` meets `ok` in the state before it. -/
def Meets (step : σ → α → Option σ) (ok : σ → α → Prop) : σ → List α → Prop
  | _, [] => True
  | s, a :: as => ok s a ∧ ∀ s', step s a = some s' → Meets step ok s' as

@[simp] theorem meets_nil (s : σ) : Meets step ok s [] := trivial

theorem meets_cons_of_step {s s' : σ} {a : α} {as : List α} (h : step s a = some s') :
    Meets step ok s (a :: as) ↔ ok s a ∧ Meets step ok s' as := by
  simp [Meets, h]

theorem meets_append {s : σ} {as bs : List α} :
    Meets step ok s (as ++ bs) ↔
      Meets step ok s as ∧ ∀ s', exec step s as = some s' → Meets step ok s' bs := by
  induction as generalizing s with
  | nil => simp
  | cons a as ih =>
    simp only [List.cons_append, Meets, ih, exec_cons_eq_some]
    constructor
    · rintro ⟨ha, h⟩
      exact ⟨⟨ha, fun s' hs => (h s' hs).1⟩, fun t ⟨s', hs, ht⟩ => (h s' hs).2 t ht⟩
    · rintro ⟨⟨ha, h⟩, ht⟩
      exact ⟨ha, fun s' hs => ⟨h s' hs, fun t he => ht t ⟨s', hs, he⟩⟩⟩

theorem meets_concat {s : σ} {as : List α} {a : α} :
    Meets step ok s (as ++ [a]) ↔
      Meets step ok s as ∧ ∀ s', exec step s as = some s' → ok s' a := by
  simp [meets_append, Meets]

theorem meets_and {ok' : σ → α → Prop} {s : σ} {as : List α} :
    Meets step (fun s a => ok s a ∧ ok' s a) s as ↔ Meets step ok s as ∧ Meets step ok' s as := by
  induction as generalizing s with
  | nil => simp
  | cons a as ih =>
    simp only [Meets, ih]
    constructor
    · rintro ⟨⟨ha, ha'⟩, h⟩
      exact ⟨⟨ha, fun s' hs => (h s' hs).1⟩, ha', fun s' hs => (h s' hs).2⟩
    · rintro ⟨⟨ha, h⟩, ha', h'⟩
      exact ⟨⟨ha, ha'⟩, fun s' hs => ⟨h s' hs, h' s' hs⟩⟩

theorem meets_of_forall_mem {s : σ} {as : List α} (h : ∀ a ∈ as, ∀ s, ok s a) :
    Meets step ok s as := by
  induction as generalizing s with
  | nil => trivial
  | cons a as ih =>
    obtain ⟨ha, has⟩ := List.forall_mem_cons.mp h
    exact ⟨ha s, fun s' _ => ih has⟩

theorem meets_of_forall (h : ∀ s a, ok s a) (s : σ) (as : List α) : Meets step ok s as :=
  meets_of_forall_mem fun a _ s => h s a

/-- The invariant rule: what holds of the empty run and survives each step that meets `ok` holds of
every run whose steps all meet `ok`. The invariant may speak of the labels taken so far. -/
theorem exec_induction (Inv : List α → σ → Prop) {s₀ s : σ} {as : List α} (init : Inv [] s₀)
    (next : ∀ as s a s', exec step s₀ as = some s → Inv as s → ok s a → step s a = some s' →
      Inv (as ++ [a]) s')
    (hmeets : Meets step ok s₀ as) (h : exec step s₀ as = some s) : Inv as s := by
  induction as using List.reverseRecOn generalizing s with
  | nil =>
    cases h
    exact init
  | append_singleton as a ih =>
    obtain ⟨t, ht, hs⟩ := exec_concat_eq_some.mp h
    obtain ⟨hm, ha⟩ := meets_concat.mp hmeets
    exact next as t a s ht (ih hm ht) (ha t ht) hs

/-- The invariant rule for every run, with an invariant that may speak of the labels taken. -/
theorem exec_history (Inv : List α → σ → Prop) {s₀ s : σ} {as : List α} (init : Inv [] s₀)
    (next : ∀ as s a s', exec step s₀ as = some s → Inv as s → step s a = some s' →
      Inv (as ++ [a]) s')
    (h : exec step s₀ as = some s) : Inv as s :=
  exec_induction Inv init (fun as s a s' hs hi _ => next as s a s' hs hi)
    (meets_of_forall (fun _ _ => trivial) s₀ as) h

/-- The invariant rule for every run, with an invariant of the state alone. -/
theorem exec_invariant (Inv : σ → Prop) {s₀ s : σ} {as : List α} (init : Inv s₀)
    (next : ∀ s a s', Inv s → step s a = some s' → Inv s') (h : exec step s₀ as = some s) :
    Inv s :=
  exec_history (fun _ s => Inv s) init (fun _ s a s' _ => next s a s') h

/-- A part `f` of the state that moves under the labels of which `g` finds one for it, and rests
under the others, has a run of its own. -/
theorem exec_part {ρ β : Type*} {step' : ρ → β → Option ρ} (f : σ → ρ) (g : α → Option β)
    (moves : ∀ s a s' b, step s a = some s' → g a = some b → step' (f s) b = some (f s'))
    (rests : ∀ s a s', step s a = some s' → g a = none → f s' = f s) {s t : σ} {as : List α}
    (h : exec step s as = some t) : exec step' (f s) (as.filterMap g) = some (f t) := by
  induction as generalizing s with
  | nil =>
    cases h
    rfl
  | cons a as ih =>
    obtain ⟨s', hs, ht⟩ := exec_cons_eq_some.mp h
    cases hg : g a with
    | none =>
      rw [List.filterMap_cons_none hg, ← rests s a s' hs hg]
      exact ih ht
    | some b =>
      rw [List.filterMap_cons_some hg, exec_cons_eq_some]
      exact ⟨f s', moves s a s' b hs hg, ih ht⟩

/-- The sum of `f` over the steps of the run from `s` along the labels. -/
def total (step : σ → α → Option σ) (f : σ → α → ℕ) : σ → List α → ℕ
  | _, [] => 0
  | s, a :: as => f s a + ((step s a).map fun s' => total step f s' as).getD 0

theorem total_cons {f : σ → α → ℕ} {s s' : σ} {a : α} {as : List α} (h : step s a = some s') :
    total step f s (a :: as) = f s a + total step f s' as := by
  simp [total, h]

theorem total_concat {f : σ → α → ℕ} {s t : σ} {as : List α} {a : α}
    (h : exec step s as = some t) : total step f s (as ++ [a]) = total step f s as + f t a := by
  induction as generalizing s with
  | nil =>
    cases h
    cases hs : step t a <;> simp [total, hs]
  | cons b as ih =>
    obtain ⟨s', hs, ht⟩ := exec_cons_eq_some.mp h
    rw [List.cons_append, total_cons hs, total_cons hs, ih ht, Nat.add_assoc]

/-! ### Maps of which a step sets an entry -/

theorem update_eq_some {κ ν : Type*} [DecidableEq κ] {f : κ → Option ν} {k j : κ} {v w : ν} :
    Function.update f k (some v) j = some w ↔ j = k ∧ w = v ∨ j ≠ k ∧ f j = some w := by
  by_cases h : j = k
  · subst h
    simp [eq_comm]
  · simp [h]

/-! ### Lists that grow at their end -/

/-- Every element of the list meets `P` with the elements before it. -/
def Throughout (P : List α → α → Prop) (as : List α) : Prop :=
  ∀ before a after, as = before ++ a :: after → P before a

theorem throughout_nil {P : List α → α → Prop} : Throughout P [] := by
  intro before a after h
  exact absurd h.symm (by simp)

theorem throughout_concat {P : List α → α → Prop} {as : List α} {a : α} :
    Throughout P (as ++ [a]) ↔ Throughout P as ∧ P as a := by
  constructor
  · intro h
    refine ⟨fun before b after hsplit => h before b (after ++ [a]) (by simp [hsplit]), ?_⟩
    exact h as a [] rfl
  · rintro ⟨has, ha⟩ before b after hsplit
    rcases List.eq_nil_or_concat after with rfl | ⟨rest, c, rfl⟩
    · obtain ⟨rfl, hb⟩ := List.append_inj' hsplit rfl
      cases hb
      exact ha
    · have hassoc : as ++ [a] = (before ++ b :: rest) ++ [c] := by simp [hsplit]
      obtain ⟨hfront, -⟩ := List.append_inj' hassoc rfl
      exact has before b rest hfront

theorem throughout_const {P : α → Prop} {as : List α} :
    Throughout (fun _ => P) as ↔ ∀ a ∈ as, P a := by
  constructor
  · intro h a ha
    obtain ⟨before, after, hsplit⟩ := List.append_of_mem ha
    exact h before a after hsplit
  · rintro h before a after rfl
    exact h a (by simp)

theorem throughout_of_append {P : List α → α → Prop} {as bs : List α}
    (h : Throughout P (as ++ bs)) : Throughout P as :=
  fun before a after hsplit => h before a (after ++ bs) (by simp [hsplit])

/-! ### What a run emits -/

section Emitted

variable {β : Type*} {emit : σ → α → List β}

/-- The state in which the run from `s` along `as` stops: after the last step, or before the first
one that is not enabled. -/
def reached (step : σ → α → Option σ) : σ → List α → σ
  | s, [] => s
  | s, a :: as => ((step s a).map fun s' => reached step s' as).getD s

/-- What the steps of the run emit, the first one included that is not enabled. -/
def emitted (step : σ → α → Option σ) (emit : σ → α → List β) : σ → List α → List β
  | _, [] => []
  | s, a :: as => emit s a ++ ((step s a).map fun s' => emitted step emit s' as).getD []

theorem emitted_concat {s t : σ} {as : List α} {a : α} (h : exec step s as = some t) :
    emitted step emit s (as ++ [a]) = emitted step emit s as ++ emit t a := by
  induction as generalizing s with
  | nil =>
    cases h
    cases hs : step t a <;> simp [emitted, hs]
  | cons b as ih =>
    obtain ⟨s', hs, ht⟩ := exec_cons_eq_some.mp h
    rw [List.cons_append, emitted, emitted, hs, Option.map_some, Option.map_some, Option.getD_some,
      Option.getD_some, ih ht, List.append_assoc]

/-- The invariant rule for the state in which a run stops and what it has emitted. -/
theorem inv_emitted (Inv : List β → σ → Prop)
    (next : ∀ log s a, Inv log s → Inv (log ++ emit s a) ((step s a).getD s))
    {log : List β} {s : σ} (as : List α) (h : Inv log s) :
    Inv (log ++ emitted step emit s as) (reached step s as) := by
  induction as generalizing log s with
  | nil => simpa [emitted, reached] using h
  | cons a as ih =>
    have hnext := next log s a h
    rw [emitted, reached, ← List.append_assoc]
    cases hs : step s a with
    | none =>
      rw [hs] at hnext
      simpa using hnext
    | some s' =>
      rw [hs] at hnext
      exact ih hnext

/-- Whatever is emitted meets `P` with what was emitted before exactly when every step meets `ok` in
the state before it. -/
theorem throughout_emitted_iff {P : List β → β → Prop} (Inv : List β → σ → Prop)
    (next : ∀ log s a, Inv log s → Inv (log ++ emit s a) ((step s a).getD s))
    {log : List β} {s : σ} {as : List α}
    (hok : ∀ log s, ∀ a ∈ as, Inv log s → Throughout P log →
      (Throughout P (log ++ emit s a) ↔ ok s a))
    (h : Inv log s) (hlog : Throughout P log) :
    Throughout P (log ++ emitted step emit s as) ↔ Meets step ok s as := by
  induction as generalizing log s with
  | nil => simpa [emitted] using hlog
  | cons a as ih =>
    have hnext := next log s a h
    have hfirst := hok log s a List.mem_cons_self h hlog
    have hrest := fun log s b hb => hok log s b (List.mem_cons_of_mem a hb)
    rw [emitted, ← List.append_assoc]
    cases hs : step s a with
    | none => simp [hfirst, Meets, hs]
    | some s' =>
      rw [hs] at hnext
      rw [meets_cons_of_step hs, ← hfirst]
      constructor
      · intro hall
        have hemit := throughout_of_append hall
        exact ⟨hemit, (ih hrest hnext hemit).mp hall⟩
      · rintro ⟨hemit, hmeets⟩
        exact (ih hrest hnext hemit).mpr hmeets

end Emitted

end ChainMonitor.ProofKit
