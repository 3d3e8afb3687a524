import ChainMonitor.Resilience.CircuitBreaker

/-! The calls that a circuit breaker has admitted. A call enters through `allow_request`, may record
outcomes, and leaves. The ledger kept beside the breaker is ghost: which calls in flight hold a
half-open slot, how many outcomes each call recorded, and how many slots of the present half-open
phase were held by calls that left without an outcome. No method reads it. -/

namespace ChainMonitor

open CircuitBreaker

/-- A call in flight, in phase `phase` of its code. -/
structure Ticket (π : Type*) where
  phase : π
  probe : Bool
  recorded : ℕ
  deriving DecidableEq

/-- A call that has ended, and how. -/
structure Departure (ξ : Type*) where
  recorded : ℕ
  exit : ξ
  deriving DecidableEq

structure Admissions (π ξ : Type*) where
  breaker : AsyncCircuitBreaker
  inflight : List (Ticket π)
  lost : ℕ
  departed : List (Departure ξ)
  deriving DecidableEq

namespace Admissions

variable {π ξ : Type*} {cfg : Config} {now : ℚ} {a : Admissions π ξ} {i : ℕ} {t : Ticket π}

def init : Admissions π ξ := ⟨CircuitBreaker.init, [], 0, []⟩

/-- A new call asks the breaker; an admitted one is in flight, in phase `p`. -/
def enter (cfg : Config) (now : ℚ) (p : π) (a : Admissions π ξ) : Bool × Admissions π ξ :=
  match allowRequest cfg now a.breaker with
  | (true, b) => (true, { a with
      breaker := b, inflight := a.inflight ++ [⟨p, b.state = .halfOpen, 0⟩] })
  | (false, b) => (false, { a with breaker := b })

/-- Call `i` moves to phase `p`. -/
def move (i : ℕ) (t : Ticket π) (p : π) (a : Admissions π ξ) : Admissions π ξ :=
  { a with inflight := a.inflight.set i { t with phase := p } }

/-- Call `i` records an outcome, after which the breaker is `b` and moves to phase `p`. Every
recorded outcome ends a half-open phase, so no slot is held or lost after it. -/
def settle (i : ℕ) (t : Ticket π) (p : π) (b : AsyncCircuitBreaker) (a : Admissions π ξ) :
    Admissions π ξ :=
  { a with
    breaker := b
    inflight := (a.inflight.set i ⟨p, false, t.recorded + 1⟩).map ({ · with probe := false })
    lost := 0 }

def recordSuccess (i : ℕ) (t : Ticket π) (p : π) (a : Admissions π ξ) : Admissions π ξ :=
  a.settle i t p (CircuitBreaker.recordSuccess a.breaker)

def recordFailure (cfg : Config) (now : ℚ) (i : ℕ) (t : Ticket π) (p : π)
    (a : Admissions π ξ) : Admissions π ξ :=
  a.settle i t p (CircuitBreaker.recordFailure cfg now a.breaker)

/-- Call `i` ends, in the way `e`. -/
def leave (i : ℕ) (e : ξ) (a : Admissions π ξ) : Admissions π ξ :=
  match a.inflight[i]? with
  | none => a
  | some t => { a with
      inflight := a.inflight.eraseIdx i
      lost := a.lost + if t.probe then 1 else 0
      departed := a.departed ++ [⟨t.recorded, e⟩] }

/-! ### The slots of a half-open phase -/

/-- The slots in use are those of the probes in flight and the lost ones; outside a half-open phase
there are none of either. -/
structure Sound (a : Admissions π ξ) : Prop where
  slots : a.breaker.state = .halfOpen →
    a.breaker.halfOpenCalls = a.inflight.countP (·.probe) + a.lost
  clear : a.breaker.state ≠ .halfOpen → a.lost = 0 ∧ ∀ t ∈ a.inflight, t.probe = false

theorem sound_init : (init : Admissions π ξ).Sound :=
  ⟨(fun h => nomatch h), fun _ => ⟨rfl, by simp [init]⟩⟩

theorem countP_eraseIdx {α : Type*} {p : α → Bool} {l : List α} {i : ℕ} {x : α}
    (h : l[i]? = some x) : l.countP p = (l.eraseIdx i).countP p + if p x then 1 else 0 := by
  induction l generalizing i with
  | nil => simp at h
  | cons y l ih =>
    cases i with
    | zero =>
      obtain rfl : y = x := by simpa using h
      simp [List.countP_cons]
    | succ i =>
      have := ih (by simpa using h)
      simp only [List.countP_cons, List.eraseIdx_cons_succ]
      omega

theorem countP_set_add {α : Type*} {p : α → Bool} {l : List α} {i : ℕ} {x : α}
    (h : l[i]? = some x) (y : α) :
    (l.set i y).countP p + (if p x then 1 else 0) = l.countP p + if p y then 1 else 0 := by
  induction l generalizing i with
  | nil => simp at h
  | cons z l ih =>
    cases i with
    | zero =>
      obtain rfl : z = x := by simpa using h
      simp only [List.set_cons_zero, List.countP_cons]
      omega
    | succ i =>
      have := ih (by simpa using h)
      simp only [List.set_cons_succ, List.countP_cons]
      omega

theorem countP_eq_zero_of_clear {l : List (Ticket π)} (h : ∀ t ∈ l, t.probe = false) :
    l.countP (·.probe) = 0 := by
  simpa [List.countP_eq_zero] using h

theorem Sound.enter (h : a.Sound) (cfg : Config) (now : ℚ) (p : π) :
    (a.enter cfg now p).2.Sound := by
  obtain ⟨hslots, hclear⟩ := h
  unfold Admissions.enter
  rcases allowRequest_cases cfg now a.breaker with
    ⟨hs, he⟩ | ⟨-, he⟩ | ⟨hs, -, he⟩ | ⟨hs, -, he⟩ <;> rw [he]
  · have hne : a.breaker.state ≠ .halfOpen := by simp [hs]
    refine ⟨fun h => absurd h hne, fun _ => ⟨(hclear hne).1, fun t ht => ?_⟩⟩
    rcases List.mem_append.mp ht with ht | ht
    · exact (hclear hne).2 t ht
    · simp [List.mem_singleton.mp ht, hs]
  · exact ⟨hslots, hclear⟩
  · have := hslots hs
    refine ⟨fun _ => ?_, fun h => absurd hs h⟩
    simp only [List.countP_append, hs, decide_true, List.countP_singleton, ↓reduceIte]
    omega
  · obtain ⟨hlost, hprobe⟩ := hclear (by simp [hs])
    refine ⟨fun _ => ?_, fun h => absurd rfl h⟩
    simp [List.countP_append, countP_eq_zero_of_clear hprobe, hlost]

theorem Sound.move (h : a.Sound) (hi : a.inflight[i]? = some t) (p : π) :
    (a.move i t p).Sound := by
  obtain ⟨hslots, hclear⟩ := h
  obtain ⟨hlt, hget⟩ := List.getElem?_eq_some_iff.mp hi
  refine ⟨fun hs => ?_, fun hs => ⟨(hclear hs).1, fun u hu => ?_⟩⟩
  · have hcount := List.countP_set (p := fun t : Ticket π => t.probe)
      (a := { t with phase := p }) hlt
    have hpos := countP_eraseIdx (p := fun t : Ticket π => t.probe) hi
    have hold := hslots hs
    simp only [hget] at hcount
    simp only [Admissions.move]
    omega
  · rcases List.mem_or_eq_of_mem_set hu with hu | rfl
    · exact (hclear hs).2 u hu
    · exact (hclear hs).2 t (List.mem_of_getElem? hi)

theorem Sound.settle {b : AsyncCircuitBreaker} (hb : b.state ≠ .halfOpen) (p : π) :
    (a.settle i t p b).Sound := by
  refine ⟨fun h => absurd h hb, fun _ => ⟨rfl, fun u hu => ?_⟩⟩
  obtain ⟨v, -, rfl⟩ := List.mem_map.mp hu
  rfl

theorem Sound.leave (h : a.Sound) (i : ℕ) (e : ξ) : (a.leave i e).Sound := by
  obtain ⟨hslots, hclear⟩ := h
  unfold Admissions.leave
  split
  · exact ⟨hslots, hclear⟩
  · rename_i t ht
    refine ⟨fun hs => ?_, fun hs => ⟨?_, fun u hu => ?_⟩⟩
    · have := hslots hs
      have := countP_eraseIdx (p := fun t : Ticket π => t.probe) ht
      simp only
      omega
    · simp [(hclear hs).1, (hclear hs).2 t (List.mem_of_getElem? ht)]
    · exact (hclear hs).2 u (List.mem_of_mem_eraseIdx hu)

/-- With no call in flight and the recovery time over, the next request is admitted exactly when the
lost slots leave one free. -/
theorem Sound.enter_iff (h : a.Sound) (p : π) (hidle : a.inflight = [])
    (hpast : a.breaker.openedAt + cfg.recoverySeconds ≤ now) :
    (a.enter cfg now p).1 = true ↔ a.lost < cfg.halfOpenMaxCalls := by
  have hmax := cfg.one_le_maxCalls
  have hrec : cfg.recoverySeconds ≤ now - a.breaker.openedAt := by linarith
  cases hs : a.breaker.state with
  | closed =>
    have := (h.clear (by simp [hs])).1
    simp only [Admissions.enter, allowRequest, hs, true_iff]
    omega
  | opened =>
    have := (h.clear (by simp [hs])).1
    simp only [Admissions.enter, allowRequest, hs, hrec, ↓reduceIte, probe]
    rw [if_neg (by omega)]
    simp only [true_iff]
    omega
  | halfOpen =>
    have hcalls := h.slots hs
    simp only [hidle, List.countP_nil, Nat.zero_add] at hcalls
    simp only [Admissions.enter, allowRequest, hs, probe, hcalls]
    split <;> rename_i heq <;> split at heq <;> simp_all

/-! ### The outcomes that a call records -/

/-- A call in flight has recorded as many outcomes as its phase says, and a call that has ended as
many as its exit says. -/
structure Accounted (due : π → ℕ) (paid : ξ → ℕ) (a : Admissions π ξ) : Prop where
  inflight : ∀ t ∈ a.inflight, t.recorded = due t.phase
  departed : ∀ d ∈ a.departed, d.recorded = paid d.exit

variable {due : π → ℕ} {paid : ξ → ℕ}

theorem accounted_init : (init : Admissions π ξ).Accounted due paid :=
  ⟨by simp [init], by simp [init]⟩

theorem Accounted.enter {p : π} (h : a.Accounted due paid) (hp : due p = 0) :
    (a.enter cfg now p).2.Accounted due paid := by
  obtain ⟨hin, hout⟩ := h
  unfold Admissions.enter
  split
  · refine ⟨fun t ht => ?_, hout⟩
    rcases List.mem_append.mp ht with ht | ht
    · exact hin t ht
    · simp [List.mem_singleton.mp ht, hp]
  · exact ⟨hin, hout⟩

theorem Accounted.move {p : π} (h : a.Accounted due paid) (hi : a.inflight[i]? = some t)
    (hp : due p = due t.phase) : (a.move i t p).Accounted due paid := by
  obtain ⟨hin, hout⟩ := h
  refine ⟨fun u hu => ?_, hout⟩
  rcases List.mem_or_eq_of_mem_set hu with hu | rfl
  · exact hin u hu
  · exact (hin t (List.mem_of_getElem? hi)).trans hp.symm

theorem Accounted.settle {p : π} {b : AsyncCircuitBreaker} (h : a.Accounted due paid)
    (hi : a.inflight[i]? = some t) (hp : due p = due t.phase + 1) :
    (a.settle i t p b).Accounted due paid := by
  obtain ⟨hin, hout⟩ := h
  refine ⟨fun u hu => ?_, hout⟩
  obtain ⟨v, hv, rfl⟩ := List.mem_map.mp hu
  rcases List.mem_or_eq_of_mem_set hv with hv | rfl
  · exact hin v hv
  · simp [hp, hin t (List.mem_of_getElem? hi)]

theorem settle_getElem? {p : π} {b : AsyncCircuitBreaker} (hi : a.inflight[i]? = some t) :
    (a.settle i t p b).inflight[i]? = some ⟨p, false, t.recorded + 1⟩ := by
  obtain ⟨hlt, -⟩ := List.getElem?_eq_some_iff.mp hi
  rw [Admissions.settle, List.getElem?_map, List.getElem?_set_self hlt]
  rfl

theorem Accounted.leave {e : ξ} (h : a.Accounted due paid) (hi : a.inflight[i]? = some t)
    (he : due t.phase = paid e) : (a.leave i e).Accounted due paid := by
  obtain ⟨hin, hout⟩ := h
  simp only [Admissions.leave, hi]
  refine ⟨fun u hu => hin u (List.mem_of_mem_eraseIdx hu), fun d hd => ?_⟩
  rcases List.mem_append.mp hd with hd | hd
  · exact hout d hd
  · rw [List.mem_singleton.mp hd]
    exact (hin t (List.mem_of_getElem? hi)).trans he

/-- A call that records an outcome and then ends. -/
theorem Accounted.settle_leave {p : π} {b : AsyncCircuitBreaker} {e : ξ}
    (h : a.Accounted due paid) (hi : a.inflight[i]? = some t) (hp : due p = due t.phase + 1)
    (he : due p = paid e) : ((a.settle i t p b).leave i e).Accounted due paid :=
  (h.settle hi hp).leave (settle_getElem? hi) he

/-! ### What the code of a client may do to its admissions -/

/-- One step of one call: it enters, waits somewhere else, records an outcome, ends, or records an
outcome and ends. -/
inductive Change (cfg : Config) (due : π → ℕ) (paid : ξ → ℕ) (a : Admissions π ξ) :
    Admissions π ξ → Prop
  | none : Change cfg due paid a a
  | enter (now : ℚ) (p : π) (hp : due p = 0) : Change cfg due paid a (a.enter cfg now p).2
  | move {i : ℕ} {t : Ticket π} {p : π} (hi : a.inflight[i]? = some t)
      (hp : due p = due t.phase) : Change cfg due paid a (a.move i t p)
  | settle {i : ℕ} {t : Ticket π} {p : π} {b : AsyncCircuitBreaker} (hi : a.inflight[i]? = some t)
      (hp : due p = due t.phase + 1) (hb : b.state ≠ .halfOpen) :
      Change cfg due paid a (a.settle i t p b)
  | leave {i : ℕ} {t : Ticket π} {e : ξ} (hi : a.inflight[i]? = some t)
      (he : due t.phase = paid e) : Change cfg due paid a (a.leave i e)
  | settleLeave {i : ℕ} {t : Ticket π} {p : π} {b : AsyncCircuitBreaker} {e : ξ}
      (hi : a.inflight[i]? = some t) (hp : due p = due t.phase + 1) (hb : b.state ≠ .halfOpen)
      (he : due p = paid e) : Change cfg due paid a ((a.settle i t p b).leave i e)

variable {a' : Admissions π ξ}

theorem Sound.change (h : a.Sound) (hc : Change cfg due paid a a') : a'.Sound := by
  cases hc with
  | none => exact h
  | enter now p _ => exact h.enter cfg now p
  | move hi _ => exact h.move hi _
  | settle _ _ hb => exact Sound.settle hb _
  | leave _ _ => exact h.leave _ _
  | settleLeave _ _ hb _ => exact (Sound.settle hb _).leave _ _

theorem Accounted.change (h : a.Accounted due paid) (hc : Change cfg due paid a a') :
    a'.Accounted due paid := by
  cases hc with
  | none => exact h
  | enter _ _ hp => exact h.enter hp
  | move hi hp => exact h.move hi hp
  | settle hi hp _ => exact h.settle hi hp
  | leave hi he => exact h.leave hi he
  | settleLeave hi hp _ he => exact h.settle_leave hi hp he

end Admissions

end ChainMonitor
