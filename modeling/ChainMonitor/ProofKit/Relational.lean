import Mathlib.Data.List.Forall2
import Mathlib.Logic.Basic

/-! Computations that keep a state and may raise, and two of them side by side: from related states
they end alike, and in related states. Also what a loop adds to a log that its steps add to. -/

namespace ChainMonitor.ProofKit

abbrev Act (W ε α : Type) := ExceptT ε (StateM W) α

variable {V W ε α β : Type}

/-- How the computation ends from a state, and the state that it leaves. -/
def Act.from (x : Act W ε α) (w : W) : Except ε α × W := x.run.run w

/-- From related states both return the same value or raise the same error, in related states. -/
def Alike (R : V → W → Prop) (x : Act V ε α) (y : Act W ε α) : Prop :=
  ∀ v w, R v w → (x.from v).1 = (y.from w).1 ∧ R (x.from v).2 (y.from w).2

/-! ### How a computation ends -/

section From

variable {x : Act W ε α} {f : α → Act W ε β} {w w' : W} {a : α} {e : ε}

@[simp] theorem from_pure : Act.from (pure a : Act W ε α) w = (.ok a, w) := rfl

theorem from_bind_of_ok (h : x.from w = (.ok a, w')) : Act.from (x >>= f) w = (f a).from w' := by
  show (StateT.bind x (ExceptT.bindCont f)) w = _
  have hx : x w = (.ok a, w') := h
  simp only [StateT.bind, hx]
  rfl

theorem from_bind_of_error (h : x.from w = (.error e, w')) :
    Act.from (x >>= f) w = (.error e, w') := by
  show (StateT.bind x (ExceptT.bindCont f)) w = _
  have hx : x w = (.error e, w') := h
  simp only [StateT.bind, hx]
  rfl

theorem from_tryCatch_of_ok {g : ε → Act W ε α} (h : x.from w = (.ok a, w')) :
    Act.from (tryCatch x g) w = (.ok a, w') := by
  show (ExceptT.tryCatch x g) w = _
  have hx : x w = (.ok a, w') := h
  simp only [ExceptT.tryCatch, ExceptT.mk, bind, StateT.bind, hx]
  rfl

theorem from_tryCatch_of_error {g : ε → Act W ε α} (h : x.from w = (.error e, w')) :
    Act.from (tryCatch x g) w = (g e).from w' := by
  show (ExceptT.tryCatch x g) w = _
  have hx : x w = (.error e, w') := h
  simp only [ExceptT.tryCatch, ExceptT.mk, bind, StateT.bind, hx]
  rfl

end From

/-! ### Rules for two computations -/

variable {R : V → W → Prop} {x : Act V ε α} {y : Act W ε α}

theorem Alike.pure (a : α) : Alike R (Pure.pure a : Act V ε α) (Pure.pure a : Act W ε α) :=
  fun _ _ h => ⟨rfl, h⟩

theorem Alike.throw (e : ε) : Alike R (throw e : Act V ε α) (throw e : Act W ε α) :=
  fun _ _ h => ⟨rfl, h⟩

theorem Alike.modify {f : V → V} {g : W → W} (h : ∀ v w, R v w → R (f v) (g w)) :
    Alike R (ε := ε) (modify f) (modify g) :=
  fun v w hR => ⟨rfl, h v w hR⟩

theorem Alike.bind {f : α → Act V ε β} {g : α → Act W ε β} (h : Alike R x y)
    (hrest : ∀ a, Alike R (f a) (g a)) : Alike R (x >>= f) (y >>= g) := by
  intro v w hR
  obtain ⟨hsame, hstate⟩ := h v w hR
  rcases hx : x.from v with ⟨rx, v'⟩
  rcases hy : y.from w with ⟨ry, w'⟩
  rw [hx, hy] at hsame hstate
  cases rx with
  | error e =>
    cases hsame
    rw [from_bind_of_error hx, from_bind_of_error hy]
    exact ⟨rfl, hstate⟩
  | ok a =>
    cases hsame
    rw [from_bind_of_ok hx, from_bind_of_ok hy]
    exact hrest a v' w' hstate

theorem Alike.tryCatch {f : ε → Act V ε α} {g : ε → Act W ε α} (h : Alike R x y)
    (hcaught : ∀ e, Alike R (f e) (g e)) :
    Alike R (MonadExcept.tryCatch x f) (MonadExcept.tryCatch y g) := by
  intro v w hR
  obtain ⟨hsame, hstate⟩ := h v w hR
  rcases hx : x.from v with ⟨rx, v'⟩
  rcases hy : y.from w with ⟨ry, w'⟩
  rw [hx, hy] at hsame hstate
  cases rx with
  | error e =>
    cases hsame
    rw [from_tryCatch_of_error hx, from_tryCatch_of_error hy]
    exact hcaught e v' w' hstate
  | ok a =>
    cases hsame
    rw [from_tryCatch_of_ok hx, from_tryCatch_of_ok hy]
    exact ⟨rfl, hstate⟩

theorem Alike.foldlM {γ : Type} {f : α → γ → Act V ε α} {g : α → γ → Act W ε α}
    (h : ∀ a c, Alike R (f a c) (g a c)) (cs : List γ) (a : α) :
    Alike R (cs.foldlM f a) (cs.foldlM g a) := by
  induction cs generalizing a with
  | nil => exact Alike.pure a
  | cons c cs ih =>
    simp only [List.foldlM_cons]
    exact (h a c).bind ih

theorem Alike.forM {γ : Type} {f : γ → Act V ε Unit} {g : γ → Act W ε Unit}
    (h : ∀ c, Alike R (f c) (g c)) (cs : List γ) : Alike R (forM cs f) (forM cs g) := by
  induction cs with
  | nil => exact Alike.pure ()
  | cons c cs ih =>
    simp only [List.forM_cons]
    exact (h c).bind fun _ => ih

/-! ### Loops that stop at what raises -/

/-- Each step of the loop adds the entry of a result for its element to the log and returns, or
raises and adds nothing. Then the loop adds the entries of its first elements, and returns when each
has one. `Adds v w es` says that from `v` to `w` the entries `es` have been added. -/
theorem forM_adds {E γ δ : Type} {Adds : W → W → List E → Prop}
    (hrefl : ∀ w, Adds w w [])
    (htrans : ∀ {u v w es more}, Adds u v es → Adds v w more → Adds u w (es ++ more))
    {f : γ → Act W ε Unit} {Q : γ → δ → Prop} {entry : δ → E}
    (hstep : ∀ c v, ∃ reply w, (f c).from v = (reply, w) ∧
      ((reply = .ok () ∧ ∃ d, Q c d ∧ Adds v w [entry d]) ∨ reply.isOk = false ∧ Adds v w []))
    (cs : List γ) (v : W) :
    ∃ reply w ds, Act.from (forM cs f) v = (reply, w) ∧ Adds v w (ds.map entry) ∧
      List.Forall₂ Q (cs.take ds.length) ds ∧ (reply.isOk ↔ ds.length = cs.length) := by
  induction cs generalizing v with
  | nil => exact ⟨.ok (), v, [], rfl, hrefl v, .nil, by simp [Except.isOk, Except.toBool]⟩
  | cons c cs ih =>
    obtain ⟨reply, w, hfrom, hcase⟩ := hstep c v
    rw [List.forM_cons]
    rcases hcase with ⟨rfl, d, hQ, hadds⟩ | ⟨hraised, hadds⟩
    · obtain ⟨reply, w', ds, hrest, hmore, hall, hwhole⟩ := ih w
      refine ⟨reply, w', d :: ds, (from_bind_of_ok hfrom).trans hrest, htrans hadds hmore,
        .cons hQ hall, ?_⟩
      rw [hwhole, List.length_cons, List.length_cons, Nat.add_right_cancel_iff]
    · cases reply with
      | ok value => cases hraised
      | error e =>
        refine ⟨.error e, w, [], from_bind_of_error hfrom, hadds, .nil, ?_⟩
        simp [Except.isOk, Except.toBool]

end ChainMonitor.ProofKit
