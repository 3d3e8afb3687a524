import ChainMonitor.ProofKit.Run
import Mathlib.Logic.Function.Basic

/-! `SingleFlightGroup` of `ingestion/resilience/singleflight.py` and its use in
`ResilientHttpClient.get_json`, for any number of callers on one client. Neither method suspends
while it holds the lock, so each is one step. A task that is cancelled while it awaits a pending
future cancels that future, and a task that awaits a future that is done wakes with what the future
holds. -/

namespace ChainMonitor.SingleFlight

open ProofKit

/-- What a caller of `get_json` ends with: a payload or `None`, an exception, or a
`CancelledError`. -/
inductive Outcome (P ε : Type*)
  | returned (result : Option P)
  | raised (e : ε)
  | cancelledError
  deriving DecidableEq

/-- The end of a call of `_request_json_uncached` that is not cancelled. -/
def Outcome.ofAttempt {P ε : Type*} : Except ε (Option P) → Outcome P ε
  | .ok result => .returned result
  | .error e => .raised e

/-- An `asyncio.Future`; `done` is what `set_result` and `set_exception` leave. -/
inductive Future (P ε : Type*)
  | pending
  | done (o : Outcome P ε)
  | cancelled
  deriving DecidableEq

variable {P ε : Type*}

/-- What `await` gives on a future, or `none` while it is pending. -/
def Future.await : Future P ε → Option (Outcome P ε)
  | .pending => none
  | .done o => some o
  | .cancelled => some .cancelledError

/-- What `set_result`, `set_exception` and `cancel` make of a future that may be done. -/
def Future.complete : Future P ε → Future P ε → Future P ε
  | .pending, u => u
  | .done o, _ => .done o
  | .cancelled, _ => .cancelled

/-- A future and the key that it was created for. -/
structure Flight (P ε : Type*) where
  key : String
  future : Future P ε
  deriving DecidableEq

/-- `SingleFlightGroup`, with every future that it has created. The requests in flight are given by
the position of their future. -/
structure Group (P ε : Type*) where
  inflightRequests : String → Option ℕ
  flights : List (Flight P ε)

namespace Group

def init : Group P ε := ⟨fun _ => none, []⟩

def acquire (key : String) (g : Group P ε) : (ℕ × Bool) × Group P ε :=
  match g.inflightRequests key with
  | some holder => ((holder, false), g)
  | none => ((g.flights.length, true),
      { inflightRequests := Function.update g.inflightRequests key (some g.flights.length)
        flights := g.flights ++ [⟨key, .pending⟩] })

def release (key : String) (holder : ℕ) (g : Group P ε) : Group P ε :=
  if g.inflightRequests key = some holder then
    { g with inflightRequests := Function.update g.inflightRequests key none }
  else g

/-- Future `holder` is given `u`, unless it is done. -/
def complete (holder : ℕ) (u : Future P ε) (g : Group P ε) : Group P ε :=
  { g with flights := g.flights.modify holder fun f => ⟨f.key, f.future.complete u⟩ }

variable {g : Group P ε} {key : String} {holder h : ℕ} {u v : Future P ε}

theorem acquire_leads (hg : g.inflightRequests key = none) : (g.acquire key).1.2 = true := by
  rw [acquire, hg]

theorem release_self (hg : g.inflightRequests key = some holder) :
    (g.release key holder).inflightRequests key = none := by
  rw [release, if_pos hg]
  exact Function.update_self _ _ _

/-- Every key in flight has a future of its own that no leader has completed. -/
def Held (g : Group P ε) : Prop :=
  ∀ key holder, g.inflightRequests key = some holder →
    ∃ u, g.flights[holder]? = some ⟨key, u⟩ ∧ (u = .pending ∨ u = .cancelled)

theorem complete_getElem? (hg : g.flights[h]? = some ⟨key, v⟩) :
    (g.complete holder u).flights[h]? =
      some ⟨key, if holder = h then v.complete u else v⟩ := by
  simp only [complete, List.getElem?_modify, hg]
  split <;> rfl

theorem complete_pending (hg : g.flights[h]? = some ⟨key, .pending⟩) :
    (g.complete h u).flights[h]? = some ⟨key, u⟩ := by
  rw [complete_getElem? hg, if_pos rfl]
  rfl

theorem acquire_getElem? (hg : g.flights[h]? = some ⟨key, v⟩) (url : String) :
    (g.acquire url).2.flights[h]? = some ⟨key, v⟩ := by
  obtain ⟨hlt, -⟩ := List.getElem?_eq_some_iff.mp hg
  unfold acquire
  split
  · exact hg
  · rw [List.getElem?_append_left hlt, hg]

@[simp] theorem release_flights : (g.release key holder).flights = g.flights := by
  unfold release
  split <;> rfl

/-- The future that `acquire` gives out: the one in flight, or a new one. -/
theorem Held.acquire_holder (hg : g.Held) (url : String) :
    ∃ u, (g.acquire url).2.flights[(g.acquire url).1.1]? = some ⟨url, u⟩ ∧
      (u = .pending ∨ g.inflightRequests url = some (g.acquire url).1.1 ∧
        g.flights[(g.acquire url).1.1]? = some ⟨url, .cancelled⟩) := by
  unfold acquire
  split
  · rename_i holder hh
    obtain ⟨u, hu, hp | rfl⟩ := hg url holder hh
    · exact ⟨u, hu, .inl hp⟩
    · exact ⟨.cancelled, hu, .inr ⟨hh, hu⟩⟩
  · exact ⟨.pending, by simp, .inl rfl⟩

theorem Held.acquire (hg : g.Held) (url : String) : (g.acquire url).2.Held := by
  intro key holder hh
  unfold Group.acquire at hh ⊢
  split
  · rename_i hu
    simp only [hu] at hh
    exact hg key holder hh
  · rename_i hu
    simp only [hu] at hh
    rcases update_eq_some.mp hh with ⟨rfl, rfl⟩ | ⟨-, hh⟩
    · exact ⟨.pending, by simp, .inl rfl⟩
    · obtain ⟨u, hf, hp⟩ := hg key holder hh
      obtain ⟨hlt, -⟩ := List.getElem?_eq_some_iff.mp hf
      exact ⟨u, by rw [List.getElem?_append_left hlt, hf], hp⟩

/-- A future that a waiter cancels stays in flight until its leader releases it. -/
theorem Held.complete_cancelled (hg : g.Held) (holder : ℕ) :
    (g.complete holder .cancelled).Held := by
  intro key h hh
  obtain ⟨v, hf, hp⟩ := hg key h hh
  refine ⟨_, complete_getElem? hf, ?_⟩
  split
  · rcases hp with rfl | rfl <;> exact .inr rfl
  · exact hp

theorem release_eq_some {k : String} : (g.release key holder).inflightRequests k = some h ↔
    g.inflightRequests k = some h ∧ ¬ (k = key ∧ h = holder) := by
  unfold release
  split
  · rename_i hkey
    by_cases hk : k = key
    · subst hk
      simp [hkey, eq_comm]
    · simp [hk]
  · rename_i hkey
    constructor
    · intro hh
      refine ⟨hh, ?_⟩
      rintro ⟨rfl, rfl⟩
      exact hkey hh
    · exact And.left

/-- No key is left in flight with a future that its leader has completed. -/
theorem Held.settle (hg : g.Held) (hf : g.flights[holder]? = some ⟨key, v⟩) :
    ((g.complete holder u).release key holder).Held := by
  intro k h hh
  obtain ⟨hk, hne⟩ := release_eq_some.mp hh
  obtain ⟨w, hw, hp⟩ := hg k h hk
  have hother : holder ≠ h := by
    intro he
    subst he
    rw [hf] at hw
    cases hw
    exact hne ⟨rfl, rfl⟩
  exact ⟨w, by rw [release_flights, complete_getElem? hw, if_neg hother], hp⟩

end Group

/-- Where a caller of `get_json` is: it awaits the cache, or its own request, or the future of
another caller; or it has returned a cached payload, or ended after a request. -/
inductive Phase (P ε : Type*)
  | lookingUp
  | leading (holder : ℕ)
  | waiting (holder : ℕ)
  | hit (payload : P)
  | ended (o : Outcome P ε)
  deriving DecidableEq

/-- A caller, and whether its own task was cancelled. -/
structure Caller (P ε : Type*) where
  url : String
  phase : Phase P ε
  cancelled : Bool
  deriving DecidableEq

/-- The callers of one client. `attempts` records how the uncached requests of each url ended that
were not cancelled. -/
structure System (P ε : Type*) where
  group : Group P ε
  callers : List (Caller P ε)
  attempts : List (String × Except ε (Option P))

def init : System P ε := ⟨Group.init, [], []⟩

inductive Act (P ε : Type*)
  | getJson (url : String)
  | cached (i : ℕ) (payload : P)
  | missed (i : ℕ)
  | answered (i : ℕ) (r : Except ε (Option P))
  | wake (i : ℕ)
  | cancel (i : ℕ)

/-- Caller `i`, which is `c`, goes to phase `p`. -/
def System.move (i : ℕ) (c : Caller P ε) (p : Phase P ε) (s : System P ε) : System P ε :=
  { s with callers := s.callers.set i { c with phase := p } }

/-- The task of caller `i`, which is `c`, is cancelled, and the caller goes to phase `p`. -/
def System.interrupt (i : ℕ) (c : Caller P ε) (p : Phase P ε) (s : System P ε) : System P ε :=
  { s with callers := s.callers.set i ⟨c.url, p, true⟩ }

/-- A leader tells its future how its request ended, and releases the key. -/
def System.settle (c : Caller P ε) (holder : ℕ) (o : Outcome P ε) (s : System P ε) : System P ε :=
  { s with group := (s.group.complete holder (.done o)).release c.url holder }

/-- After a cache miss the caller leads a request, or waits for the one in flight. -/
def missed (i : ℕ) (c : Caller P ε) (s : System P ε) : System P ε :=
  match s.group.acquire c.url with
  | ((holder, true), g) => { s with group := g }.move i c (.leading holder)
  | ((holder, false), g) => { s with group := g }.move i c (.waiting holder)

def cancel (i : ℕ) (c : Caller P ε) (s : System P ε) : Option (System P ε) :=
  match c.phase with
  | .lookingUp => some (s.interrupt i c (.ended .cancelledError))
  | .leading holder =>
    some ((s.settle c holder .cancelledError).interrupt i c (.ended .cancelledError))
  | .waiting holder =>
    match s.group.flights[holder]? with
    | some ⟨_, .pending⟩ =>
      -- the waiter wakes, like every other, by the future that it cancels
      some ({ s with group := s.group.complete holder .cancelled }.interrupt i c (.waiting holder))
    | _ => some (s.interrupt i c (.ended .cancelledError))
  | .hit _ | .ended _ => none

def step (s : System P ε) : Act P ε → Option (System P ε)
  | .getJson url => some { s with callers := s.callers ++ [⟨url, .lookingUp, false⟩] }
  | .cached i p =>
    match s.callers[i]? with
    | some c => if c.phase matches .lookingUp then some (s.move i c (.hit p)) else none
    | none => none
  | .missed i =>
    match s.callers[i]? with
    | some c => if c.phase matches .lookingUp then some (missed i c s) else none
    | none => none
  | .answered i r =>
    match s.callers[i]? with
    | some c =>
      match c.phase with
      | .leading holder => some
          { (s.settle c holder (.ofAttempt r)).move i c (.ended (.ofAttempt r)) with
            attempts := s.attempts ++ [(c.url, r)] }
      | _ => none
    | none => none
  | .wake i =>
    match s.callers[i]? with
    | some c =>
      match c.phase with
      | .waiting holder =>
        (s.group.flights[holder]?.bind fun f => f.future.await).map fun o => s.move i c (.ended o)
      | _ => none
    | none => none
  | .cancel i =>
    match s.callers[i]? with
    | some c => cancel i c s
    | none => none

/-! ### The futures that callers hold -/

/-- A leader holds a future of its url, and so does a waiter, whose future is not pending once the
waiter has been cancelled. -/
inductive Caller.Linked (g : Group P ε) : Caller P ε → Prop
  | lookingUp (url : String) : Linked g ⟨url, .lookingUp, false⟩
  | leading {url : String} {holder : ℕ} {u : Future P ε} {x : Bool}
      (hu : g.flights[holder]? = some ⟨url, u⟩) : Linked g ⟨url, .leading holder, x⟩
  | waiting {url : String} {holder : ℕ} {u : Future P ε} {x : Bool}
      (hu : g.flights[holder]? = some ⟨url, u⟩) (hp : x = true → u ≠ .pending) :
      Linked g ⟨url, .waiting holder, x⟩
  | hit (url : String) (payload : P) (x : Bool) : Linked g ⟨url, .hit payload, x⟩
  | ended (url : String) (o : Outcome P ε) (x : Bool) : Linked g ⟨url, .ended o, x⟩

structure Linked (s : System P ε) : Prop where
  held : s.group.Held
  callers : ∀ c ∈ s.callers, c.Linked s.group

section Steps

variable {s s' : System P ε} {g : Group P ε} {c d : Caller P ε} {i holder : ℕ} {url : String}
  {u : Future P ε}

/-- What callers hold of a group they hold of every group whose futures have gone on from there. -/
theorem Caller.Linked.mono {g' : Group P ε} (hc : c.Linked g)
    (hg : ∀ (h : ℕ) key u, g.flights[h]? = some ⟨key, u⟩ →
      ∃ v, g'.flights[h]? = some ⟨key, v⟩ ∧ (u ≠ .pending → v ≠ .pending)) : c.Linked g' := by
  cases hc with
  | lookingUp url => exact .lookingUp url
  | leading hu =>
    obtain ⟨v, hv, -⟩ := hg _ _ _ hu
    exact .leading hv
  | waiting hu hp =>
    obtain ⟨v, hv, hne⟩ := hg _ _ _ hu
    exact .waiting hv fun hx => hne (hp hx)
  | hit url p x => exact .hit url p x
  | ended url o x => exact .ended url o x

theorem Caller.Linked.acquire (hc : c.Linked g) (url : String) : c.Linked (g.acquire url).2 :=
  hc.mono fun _ _ u hu => ⟨u, Group.acquire_getElem? hu url, id⟩

theorem Caller.Linked.release (hc : c.Linked g) : c.Linked (g.release url holder) :=
  hc.mono fun _ _ u hu => ⟨u, by rw [Group.release_flights, hu], id⟩

theorem Future.complete_ne_pending {v : Future P ε} (hu : u ≠ .pending) :
    v.complete u ≠ .pending := by
  cases v with
  | pending => exact hu
  | done o => simp [Future.complete]
  | cancelled => simp [Future.complete]

theorem Caller.Linked.complete (hc : c.Linked g) (hu : u ≠ .pending) :
    c.Linked (g.complete holder u) := by
  refine hc.mono fun h key v hv => ⟨_, Group.complete_getElem? hv, fun hne => ?_⟩
  split
  · exact Future.complete_ne_pending hu
  · exact hne

theorem Caller.Linked.not_cancelled (hc : c.Linked g) (hp : c.phase = .lookingUp) :
    c.cancelled = false := by
  cases hc <;> simp_all

theorem Caller.Linked.lead (hc : c.Linked g) (hp : c.phase = .leading holder) :
    ∃ u, g.flights[holder]? = some ⟨c.url, u⟩ := by
  cases hc <;> cases hp
  exact ⟨_, ‹_›⟩

theorem Caller.Linked.wait (hc : c.Linked g) (hp : c.phase = .waiting holder) :
    ∃ u, g.flights[holder]? = some ⟨c.url, u⟩ ∧ (c.cancelled = true → u ≠ .pending) := by
  cases hc <;> cases hp
  exact ⟨_, ‹_›, ‹_›⟩

/-- Replacing caller `i` while the others stay linked. -/
theorem Linked.set {x : Caller P ε} (hg : g.Held) (hx : x.Linked g)
    (hs : ∀ c ∈ s.callers, c.Linked g) {r : List (String × Except ε (Option P))} :
    Linked ⟨g, s.callers.set i x, r⟩ := by
  refine ⟨hg, fun c hc => ?_⟩
  rcases List.mem_or_eq_of_mem_set hc with hc | rfl
  · exact hs c hc
  · exact hx

theorem linked_init : Linked (init : System P ε) :=
  ⟨(fun _ _ h => nomatch h), fun _ hc => nomatch hc⟩

theorem Linked.missed (hs : Linked s) (hn : c.cancelled = false) :
    Linked (SingleFlight.missed i c s) := by
  obtain ⟨u, hu, -⟩ := hs.held.acquire_holder c.url
  have hheld := hs.held.acquire c.url
  have hothers := fun d hd => (hs.callers d hd).acquire c.url
  unfold SingleFlight.missed
  split <;> rename_i hq <;> rw [hq] at hu hheld hothers
  · exact .set hheld (.leading hu) hothers
  · exact .set hheld (.waiting hu (by simp [hn])) hothers

theorem Linked.settle (hs : Linked s) (hi : c ∈ s.callers) (hc : c.phase = .leading holder)
    (o : Outcome P ε) : Linked (s.settle c holder o) := by
  obtain ⟨u, hu⟩ := (hs.callers c hi).lead hc
  exact ⟨hs.held.settle hu, fun d hd => ((hs.callers d hd).complete (by simp)).release⟩

/-- What a step does, by the phase of the caller that it concerns. -/
inductive Fires (s : System P ε) : Act P ε → System P ε → Prop
  | getJson (url : String) :
      Fires s (.getJson url) { s with callers := s.callers ++ [⟨url, .lookingUp, false⟩] }
  | cached {i : ℕ} {c : Caller P ε} (hi : s.callers[i]? = some c) (hc : c.phase = .lookingUp)
      (p : P) : Fires s (.cached i p) (s.move i c (.hit p))
  | missed {i : ℕ} {c : Caller P ε} (hi : s.callers[i]? = some c) (hc : c.phase = .lookingUp) :
      Fires s (.missed i) (missed i c s)
  | answered {i holder : ℕ} {c : Caller P ε} (hi : s.callers[i]? = some c)
      (hc : c.phase = .leading holder) (r : Except ε (Option P)) :
      Fires s (.answered i r)
        { (s.settle c holder (.ofAttempt r)).move i c (.ended (.ofAttempt r)) with
          attempts := s.attempts ++ [(c.url, r)] }
  | wake {i holder : ℕ} {c : Caller P ε} {f : Flight P ε} {o : Outcome P ε}
      (hi : s.callers[i]? = some c) (hc : c.phase = .waiting holder)
      (hf : s.group.flights[holder]? = some f) (ho : f.future.await = some o) :
      Fires s (.wake i) (s.move i c (.ended o))
  | cancelLookup {i : ℕ} {c : Caller P ε} (hi : s.callers[i]? = some c)
      (hc : c.phase = .lookingUp) :
      Fires s (.cancel i) (s.interrupt i c (.ended .cancelledError))
  | cancelLeader {i holder : ℕ} {c : Caller P ε} (hi : s.callers[i]? = some c)
      (hc : c.phase = .leading holder) :
      Fires s (.cancel i)
        ((s.settle c holder .cancelledError).interrupt i c (.ended .cancelledError))
  | cancelWaiter {i holder : ℕ} {c : Caller P ε} {key : String} (hi : s.callers[i]? = some c)
      (hc : c.phase = .waiting holder) (hf : s.group.flights[holder]? = some ⟨key, .pending⟩) :
      Fires s (.cancel i)
        ({ s with group := s.group.complete holder .cancelled }.interrupt i c (.waiting holder))
  | cancelWoken {i holder : ℕ} {c : Caller P ε} (hi : s.callers[i]? = some c)
      (hc : c.phase = .waiting holder)
      (hf : ∀ key, s.group.flights[holder]? ≠ some ⟨key, .pending⟩) :
      Fires s (.cancel i) (s.interrupt i c (.ended .cancelledError))

theorem fires_of_cancel (hi : s.callers[i]? = some c) (h : cancel i c s = some s') :
    Fires s (.cancel i) s' := by
  unfold cancel at h
  split at h
  · rename_i hc
    cases h
    exact .cancelLookup hi hc
  · rename_i holder hc
    cases h
    exact .cancelLeader hi hc
  · rename_i holder hc
    split at h
    · rename_i hf
      cases h
      exact .cancelWaiter hi hc hf
    · rename_i hf
      cases h
      exact .cancelWoken hi hc hf
  · cases h
  · cases h

theorem fires_of_step {a : Act P ε} (h : step s a = some s') : Fires s a s' := by
  cases a with
  | getJson url =>
    cases h
    exact .getJson url
  | cached i p =>
    simp only [step] at h
    split at h
    · rename_i c hi
      split at h
      · rename_i hc
        cases h
        exact .cached hi hc p
      · cases h
    · cases h
  | missed i =>
    simp only [step] at h
    split at h
    · rename_i c hi
      split at h
      · rename_i hc
        cases h
        exact .missed hi hc
      · cases h
    · cases h
  | answered i r =>
    simp only [step] at h
    split at h
    · rename_i c hi
      split at h
      · rename_i holder hc
        cases h
        exact .answered hi hc r
      · cases h
    · cases h
  | wake i =>
    simp only [step] at h
    split at h
    · rename_i c hi
      split at h
      · rename_i holder hc
        obtain ⟨o, ho, rfl⟩ := Option.map_eq_some_iff.mp h
        obtain ⟨f, hf, ho⟩ := Option.bind_eq_some_iff.mp ho
        exact .wake hi hc hf ho
      · cases h
    · cases h
  | cancel i =>
    simp only [step] at h
    split at h
    · rename_i c hi
      exact fires_of_cancel hi h
    · cases h

theorem Linked.step {a : Act P ε} (hs : Linked s) (h : SingleFlight.step s a = some s') :
    Linked s' := by
  have hmem : ∀ {i c}, s.callers[i]? = some c → c ∈ s.callers := List.mem_of_getElem?
  cases fires_of_step h with
  | getJson url =>
    refine ⟨hs.held, fun c hc => ?_⟩
    rcases List.mem_append.mp hc with hc | hc
    · exact hs.callers c hc
    · rw [List.mem_singleton.mp hc]
      exact .lookingUp url
  | cached hi hc p => exact .set hs.held (.hit _ p _) hs.callers
  | missed hi hc =>
    exact hs.missed ((hs.callers _ (hmem hi)).not_cancelled hc)
  | answered hi hc r =>
    obtain ⟨hheld, hcallers⟩ := hs.settle (hmem hi) hc (.ofAttempt r)
    exact .set hheld (.ended _ _ _) hcallers
  | wake hi hc hf ho => exact .set hs.held (.ended _ _ _) hs.callers
  | cancelLookup hi hc => exact .set hs.held (.ended _ _ _) hs.callers
  | cancelLeader hi hc =>
    obtain ⟨hheld, hcallers⟩ := hs.settle (hmem hi) hc .cancelledError
    exact .set hheld (.ended _ _ _) hcallers
  | cancelWaiter hi hc hf =>
    obtain ⟨u, hu, -⟩ := (hs.callers _ (hmem hi)).wait hc
    refine .set (hs.held.complete_cancelled _) (.waiting (Group.complete_getElem? hu) ?_)
      fun d hd => (hs.callers d hd).complete (by simp)
    intro _
    rw [if_pos rfl]
    exact Future.complete_ne_pending (by simp)
  | cancelWoken hi hc _ => exact .set hs.held (.ended _ _ _) hs.callers

theorem reachable_linked {as : List (Act P ε)}
    (h : exec SingleFlight.step init as = some s) : Linked s :=
  exec_invariant Linked linked_init (fun _ _ _ hs hstep => hs.step hstep) h

/-! ### One leader for each url -/

/-- A leader holds the future that is in flight for its url, and no other leader holds that. -/
structure Exclusive (s : System P ε) : Prop where
  leads : ∀ (i : ℕ) (c : Caller P ε) (holder : ℕ), s.callers[i]? = some c →
    c.phase = .leading holder → s.group.inflightRequests c.url = some holder
  unique : ∀ (i j : ℕ) (c d : Caller P ε) (holder : ℕ), s.callers[i]? = some c →
    s.callers[j]? = some d → c.phase = .leading holder → d.phase = .leading holder → i = j

theorem exclusive_init : Exclusive (init : System P ε) :=
  ⟨(fun _ _ _ h => nomatch h), fun _ _ _ _ _ h => nomatch h⟩

theorem getElem?_concat_cases {x : Caller P ε} {j : ℕ}
    (h : (s.callers ++ [x])[j]? = some d) :
    j = s.callers.length ∧ d = x ∨ s.callers[j]? = some d := by
  rw [List.getElem?_append] at h
  split at h
  · exact .inr h
  · rename_i hge
    rw [List.getElem?_singleton] at h
    split at h
    · exact .inl ⟨by omega, (Option.some.inj h).symm⟩
    · cases h

theorem getElem?_set_cases {x : Caller P ε} {j : ℕ} (h : (s.callers.set i x)[j]? = some d) :
    j = i ∧ d = x ∨ j ≠ i ∧ s.callers[j]? = some d := by
  rw [List.getElem?_set] at h
  split at h
  · rename_i he
    split at h
    · exact .inl ⟨he.symm, (Option.some.inj h).symm⟩
    · cases h
  · rename_i hne
    exact .inr ⟨Ne.symm hne, h⟩

/-- A caller that leads nothing takes the place of another, and the futures in flight of the other
leaders stay. -/
theorem Exclusive.set {x : Caller P ε} {r : List (String × Except ε (Option P))}
    (hs : Exclusive s) (hx : ∀ holder, x.phase ≠ .leading holder)
    (hg : ∀ (j : ℕ) (d : Caller P ε) (holder : ℕ), j ≠ i → s.callers[j]? = some d →
      d.phase = .leading holder → g.inflightRequests d.url = some holder) :
    Exclusive ⟨g, s.callers.set i x, r⟩ := by
  constructor
  · intro j d holder hj hd
    rcases getElem?_set_cases hj with ⟨-, rfl⟩ | ⟨hne, hj⟩
    · exact absurd hd (hx holder)
    · exact hg j d holder hne hj hd
  · intro j k d e holder hj hk hd he
    rcases getElem?_set_cases hj with ⟨-, rfl⟩ | ⟨-, hj⟩
    · exact absurd hd (hx holder)
    · rcases getElem?_set_cases hk with ⟨-, rfl⟩ | ⟨-, hk⟩
      · exact absurd he (hx holder)
      · exact hs.unique j k d e holder hj hk hd he

theorem Exclusive.move (hs : Exclusive s) {p : Phase P ε}
    (hp : ∀ holder, p ≠ .leading holder) : Exclusive (s.move i c p) :=
  hs.set hp fun j d holder _ => hs.leads j d holder

/-- The other leaders keep their futures when one leader releases its own. -/
theorem Exclusive.settle (hs : Exclusive s) (hi : s.callers[i]? = some c)
    (hc : c.phase = .leading holder) (o : Outcome P ε) (j : ℕ) (d : Caller P ε) (h : ℕ)
    (hne : j ≠ i) (hj : s.callers[j]? = some d) (hd : d.phase = .leading h) :
    (s.settle c holder o).group.inflightRequests d.url = some h := by
  refine Group.release_eq_some.mpr ⟨hs.leads j d h hj hd, ?_⟩
  rintro ⟨-, rfl⟩
  exact hne (hs.unique j i d c h hj hi hd hc)

/-- A caller that has missed the cache becomes a leader where no future is in flight, and then the
future that it holds is new. -/
theorem Exclusive.missed (hs : Exclusive s) (hheld : s.group.Held)
    (hi : s.callers[i]? = some c) : Exclusive (SingleFlight.missed i c s) := by
  unfold SingleFlight.missed Group.acquire
  cases hin : s.group.inflightRequests c.url with
  | some holder => exact hs.move fun _ hp => nomatch hp
  | none =>
    have hnew : ∀ (j : ℕ) (d : Caller P ε) (holder : ℕ), s.callers[j]? = some d →
        d.phase = .leading holder → d.url ≠ c.url ∧ holder ≠ s.group.flights.length := by
      intro j d holder hj hd
      have hlead := hs.leads j d holder hj hd
      constructor
      · intro he
        rw [he, hin] at hlead
        cases hlead
      · obtain ⟨u, hu, -⟩ := hheld d.url holder hlead
        obtain ⟨hlt, -⟩ := List.getElem?_eq_some_iff.mp hu
        omega
    constructor
    · intro j d holder hj hd
      show Function.update s.group.inflightRequests c.url (some s.group.flights.length) d.url = _
      rcases getElem?_set_cases hj with ⟨-, rfl⟩ | ⟨-, hj⟩
      · cases hd
        exact Function.update_self _ _ _
      · rw [Function.update_of_ne (hnew j d holder hj hd).1]
        exact hs.leads j d holder hj hd
    · intro j k d e holder hj hk hd he
      rcases getElem?_set_cases hj with ⟨rfl, rfl⟩ | ⟨-, hj⟩
      · rcases getElem?_set_cases hk with ⟨rfl, -⟩ | ⟨-, hk⟩
        · rfl
        · cases hd
          exact absurd rfl (hnew k e _ hk he).2
      · rcases getElem?_set_cases hk with ⟨-, rfl⟩ | ⟨-, hk⟩
        · cases he
          exact absurd rfl (hnew j d _ hj hd).2
        · exact hs.unique j k d e holder hj hk hd he

theorem Exclusive.step {a : Act P ε} (hs : Exclusive s) (hheld : s.group.Held)
    (h : SingleFlight.step s a = some s') : Exclusive s' := by
  cases fires_of_step h with
  | getJson url =>
    have hold : ∀ {j : ℕ} {d : Caller P ε} {holder : ℕ},
        (s.callers ++ [⟨url, .lookingUp, false⟩])[j]? = some d →
        d.phase = .leading holder → s.callers[j]? = some d := by
      intro j d holder hj hd
      rcases getElem?_concat_cases hj with ⟨-, rfl⟩ | hj
      · cases hd
      · exact hj
    exact ⟨fun j d holder hj hd => hs.leads j d holder (hold hj hd) hd,
      fun j k d e holder hj hk hd he =>
        hs.unique j k d e holder (hold hj hd) (hold hk he) hd he⟩
  | cached hi hc p => exact hs.move fun _ hp => nomatch hp
  | missed hi hc => exact hs.missed hheld hi
  | answered hi hc r => exact hs.set (fun _ hp => nomatch hp) (hs.settle hi hc (.ofAttempt r))
  | wake hi hc hf ho => exact hs.move fun _ hp => nomatch hp
  | cancelLookup hi hc => exact hs.set (fun _ hp => nomatch hp) fun j d h _ => hs.leads j d h
  | cancelLeader hi hc => exact hs.set (fun _ hp => nomatch hp) (hs.settle hi hc .cancelledError)
  | cancelWaiter hi hc hf => exact hs.set (fun _ hp => nomatch hp) fun j d h _ => hs.leads j d h
  | cancelWoken hi hc hf => exact hs.set (fun _ hp => nomatch hp) fun j d h _ => hs.leads j d h

/-- Who looks its url up after a step did so before, or is new. -/
theorem lookingUp_of_step {a : Act P ε} {j : ℕ} (h : SingleFlight.step s a = some s')
    (hj : s'.callers[j]? = some d) (hd : d.phase = .lookingUp) :
    (s.callers[j]? = some d ∧ (∀ p, a ≠ .cached j p) ∧ a ≠ .missed j) ∨
      a = .getJson d.url ∧ j = s.callers.length := by
  have hset : ∀ {i : ℕ} {x : Caller P ε}, (s.callers.set i x)[j]? = some d →
      x.phase ≠ .lookingUp → j ≠ i ∧ s.callers[j]? = some d := by
    intro i x hj hx
    rcases getElem?_set_cases hj with ⟨-, rfl⟩ | hold
    · exact absurd hd hx
    · exact hold
  cases fires_of_step h with
  | getJson url =>
    rcases getElem?_concat_cases hj with ⟨hlen, rfl⟩ | hold
    · exact .inr ⟨rfl, hlen⟩
    · exact .inl ⟨hold, by simp, by simp⟩
  | cached hi hc p =>
    obtain ⟨hne, hold⟩ := hset hj (by simp)
    exact .inl ⟨hold, fun q hq => hne (by cases hq; rfl), by simp⟩
  | @missed i c hi hc =>
    obtain ⟨p, hp, he⟩ : ∃ p, p ≠ .lookingUp ∧
        (SingleFlight.missed i c s).callers = s.callers.set i { c with phase := p } := by
      unfold SingleFlight.missed
      split
      · exact ⟨_, by simp, rfl⟩
      · exact ⟨_, by simp, rfl⟩
    rw [he] at hj
    obtain ⟨hne, hold⟩ := hset hj hp
    exact .inl ⟨hold, by simp, fun hq => hne (by cases hq; rfl)⟩
  | answered hi hc r => exact .inl ⟨(hset hj (by simp)).2, by simp, by simp⟩
  | wake hi hc hf ho => exact .inl ⟨(hset hj (by simp)).2, by simp, by simp⟩
  | cancelLookup hi hc => exact .inl ⟨(hset hj (by simp)).2, by simp, by simp⟩
  | cancelLeader hi hc => exact .inl ⟨(hset hj (by simp)).2, by simp, by simp⟩
  | cancelWaiter hi hc hf => exact .inl ⟨(hset hj (by simp)).2, by simp, by simp⟩
  | cancelWoken hi hc hf => exact .inl ⟨(hset hj (by simp)).2, by simp, by simp⟩

theorem reachable_exclusive {as : List (Act P ε)}
    (h : exec SingleFlight.step init as = some s) : Exclusive s := by
  have hboth : Linked s ∧ Exclusive s :=
    exec_invariant (fun s => Linked s ∧ Exclusive s) ⟨linked_init, exclusive_init⟩
      (fun _ _ _ hs hstep => ⟨hs.1.step hstep, hs.2.step hs.1.held hstep⟩) h
  exact hboth.2

/-! ### Callers that keep their own results -/

/-- The outcome is that of an attempt at `url`. -/
def Real (attempts : List (String × Except ε (Option P))) (url : String) (o : Outcome P ε) : Prop :=
  ∃ r, (url, r) ∈ attempts ∧ o = .ofAttempt r

/-- A caller that was not cancelled has the outcome of an attempt at its url, if it has one, and
waits for such an outcome, if it waits. -/
inductive Caller.Isolated (g : Group P ε) (attempts : List (String × Except ε (Option P))) :
    Caller P ε → Prop
  | cancelled (url : String) (p : Phase P ε) : Isolated g attempts ⟨url, p, true⟩
  | lookingUp (url : String) (x : Bool) : Isolated g attempts ⟨url, .lookingUp, x⟩
  | leading (url : String) (holder : ℕ) (x : Bool) : Isolated g attempts ⟨url, .leading holder, x⟩
  | waiting {url : String} {holder : ℕ} {u : Future P ε} {x : Bool}
      (hu : g.flights[holder]? = some ⟨url, u⟩)
      (hr : u = .pending ∨ ∃ o, u = .done o ∧ Real attempts url o) :
      Isolated g attempts ⟨url, .waiting holder, x⟩
  | hit (url : String) (payload : P) (x : Bool) : Isolated g attempts ⟨url, .hit payload, x⟩
  | ended {url : String} {o : Outcome P ε} {x : Bool} (hr : Real attempts url o) :
      Isolated g attempts ⟨url, .ended o, x⟩

variable {attempts : List (String × Except ε (Option P))}

theorem Real.mono {o : Outcome P ε} (h : Real attempts url o)
    (new : List (String × Except ε (Option P))) : Real (attempts ++ new) url o := by
  obtain ⟨r, hr, ho⟩ := h
  exact ⟨r, List.mem_append_left new hr, ho⟩

/-- A caller stays isolated while what attempts gave is kept, and what it waits for is too. -/
theorem Caller.Isolated.map {g' : Group P ε} {attempts' : List (String × Except ε (Option P))}
    (hc : c.Isolated g attempts)
    (hreal : ∀ url o, Real attempts url o → Real attempts' url o)
    (hwait : ∀ h u, c.phase = .waiting h → g.flights[h]? = some ⟨c.url, u⟩ →
      (u = .pending ∨ ∃ o, u = .done o ∧ Real attempts' c.url o) →
      ∃ v, g'.flights[h]? = some ⟨c.url, v⟩ ∧
        (v = .pending ∨ ∃ o, v = .done o ∧ Real attempts' c.url o)) :
    c.Isolated g' attempts' := by
  cases hc with
  | cancelled url p => exact .cancelled url p
  | lookingUp url x => exact .lookingUp url x
  | leading url h x => exact .leading url h x
  | waiting hu hr =>
    obtain ⟨v, hv, hkept⟩ := hwait _ _ rfl hu
      (hr.imp_right fun ⟨o, ho, h⟩ => ⟨o, ho, hreal _ _ h⟩)
    exact .waiting hv hkept
  | hit url p x => exact .hit url p x
  | ended hr => exact .ended (hreal _ _ hr)

theorem Caller.Isolated.mono (hc : c.Isolated g attempts)
    (new : List (String × Except ε (Option P))) : c.Isolated g (attempts ++ new) :=
  hc.map (fun _ _ h => h.mono new) fun _ u _ hu hr => ⟨u, hu, hr⟩

/-- What waiters see of a group whose futures are those of `g`, or more. -/
theorem Caller.Isolated.flights {g' : Group P ε} (hc : c.Isolated g attempts)
    (hg : ∀ (h : ℕ) f, g.flights[h]? = some f → g'.flights[h]? = some f) :
    c.Isolated g' attempts :=
  hc.map (fun _ _ h => h) fun _ u _ hu hr => ⟨u, hg _ _ hu, hr⟩

theorem Caller.Isolated.release (hc : c.Isolated g attempts) :
    c.Isolated (g.release url holder) attempts :=
  hc.flights fun h f hf => by rw [Group.release_flights, hf]

/-- Completing a pending future does no harm to a caller that does not wait for it, or that it
gives the outcome of an attempt. -/
theorem Caller.Isolated.complete (hc : c.Isolated g attempts)
    (hu : ∀ key, g.flights[holder]? = some ⟨key, .pending⟩ → c.phase = .waiting holder →
      ∃ o, u = .done o ∧ Real attempts key o) : c.Isolated (g.complete holder u) attempts := by
  refine hc.map (fun _ _ h => h) fun h v hphase hv hr => ⟨_, Group.complete_getElem? hv, ?_⟩
  split
  · rename_i he
    subst he
    rcases hr with rfl | ⟨o, rfl, hreal⟩
    · exact .inr (hu _ hv hphase)
    · exact .inr ⟨o, rfl, hreal⟩
  · exact hr

theorem isolated_set {x : Caller P ε} (hx : x.Isolated g attempts)
    (h : ∀ j d, j ≠ i → s.callers[j]? = some d → d.Isolated g attempts) :
    ∀ d ∈ s.callers.set i x, d.Isolated g attempts := by
  intro d hd
  obtain ⟨j, hj⟩ := List.mem_iff_getElem?.mp hd
  rcases getElem?_set_cases hj with ⟨-, rfl⟩ | ⟨hne, hj⟩
  · exact hx
  · exact h j d hne hj

/-- A step that isolates every caller: no cancellation reaches a caller while its future is pending
and another caller waits for it, and no caller joins a request whose future has been cancelled. -/
def Considerate (s : System P ε) : Act P ε → Prop
  | .cancel i => ∀ c holder key, s.callers[i]? = some c →
      c.phase = .leading holder ∨ c.phase = .waiting holder →
      s.group.flights[holder]? = some ⟨key, .pending⟩ →
      ∀ j d, j ≠ i → s.callers[j]? = some d → d.phase ≠ .waiting holder
  | .missed i => ∀ c holder key, s.callers[i]? = some c → c.phase = .lookingUp →
      s.group.inflightRequests c.url = some holder →
      s.group.flights[holder]? ≠ some ⟨key, .cancelled⟩
  | _ => True

theorem isolated_missed (hs : Linked s) (h : ∀ d ∈ s.callers, d.Isolated s.group s.attempts)
    (hok : ∀ holder key, s.group.inflightRequests c.url = some holder →
      s.group.flights[holder]? ≠ some ⟨key, .cancelled⟩) :
    ∀ d ∈ (missed i c s).callers, d.Isolated (missed i c s).group (missed i c s).attempts := by
  have hothers : ∀ d ∈ s.callers, d.Isolated (s.group.acquire c.url).2 s.attempts :=
    fun d hd => (h d hd).flights fun _ _ hf => Group.acquire_getElem? hf c.url
  obtain ⟨u, hu, hp⟩ := hs.held.acquire_holder c.url
  unfold missed
  split <;> rename_i hq <;> rw [hq] at hu hp hothers
  · exact isolated_set (.leading _ _ _) fun j d _ hd => hothers d (List.mem_of_getElem? hd)
  · refine isolated_set (.waiting hu ?_) fun j d _ hd => hothers d (List.mem_of_getElem? hd)
    rcases hp with hp | ⟨hin, hcan⟩
    · exact .inl hp
    · exact absurd hcan (hok _ _ hin)

theorem isolated_step {a : Act P ε} (hs : Linked s)
    (h : ∀ d ∈ s.callers, d.Isolated s.group s.attempts) (hok : Considerate s a)
    (hstep : SingleFlight.step s a = some s') :
    ∀ d ∈ s'.callers, d.Isolated s'.group s'.attempts := by
  have hmem : ∀ {i c}, s.callers[i]? = some c → c ∈ s.callers := List.mem_of_getElem?
  cases fires_of_step hstep with
  | getJson url =>
    intro d hd
    rcases List.mem_append.mp hd with hd | hd
    · exact h d hd
    · rw [List.mem_singleton.mp hd]
      exact .lookingUp url false
  | cached hi hc p => exact isolated_set (.hit _ p _) fun j d _ hd => h d (hmem hd)
  | missed hi hc => exact isolated_missed hs h fun holder key hin => hok _ holder key hi hc hin
  | @answered i holder c hi hc r =>
    obtain ⟨u, hu⟩ := (hs.callers c (hmem hi)).lead hc
    have hreal : Real (s.attempts ++ [(c.url, r)]) c.url (.ofAttempt r) := ⟨r, by simp, rfl⟩
    refine isolated_set (.ended hreal) fun j d _ hd => ?_
    refine (((h d (hmem hd)).mono _).complete fun key hkey _ => ⟨_, rfl, ?_⟩).release
    rw [hu] at hkey
    cases hkey
    exact hreal
  | @wake i holder c f o hi hc hf ho =>
    refine isolated_set ?_ fun j d _ hd => h d (hmem hd)
    cases h c (hmem hi) with
    | cancelled url p => exact .cancelled url _
    | waiting hu hr =>
      cases hc
      rw [hf] at hu
      cases hu
      rcases hr with rfl | ⟨o', rfl, hreal⟩
      · cases ho
      · cases ho
        exact .ended hreal
    | lookingUp _ _ | leading _ _ _ | hit _ _ _ | ended _ => cases hc
  | cancelLookup hi hc => exact isolated_set (.cancelled _ _) fun j d _ hd => h d (hmem hd)
  | @cancelLeader i holder c hi hc =>
    refine isolated_set (.cancelled _ _) fun j d hj hd => ?_
    refine ((h d (hmem hd)).complete fun key hkey hwait => ?_).release
    exact absurd hwait (hok c holder key hi (.inl hc) hkey j d hj hd)
  | @cancelWaiter i holder c key hi hc hf =>
    refine isolated_set (.cancelled _ _) fun j d hj hd => ?_
    refine (h d (hmem hd)).complete fun key hkey hwait => ?_
    exact absurd hwait (hok c holder key hi (.inr hc) hkey j d hj hd)
  | cancelWoken hi hc _ => exact isolated_set (.cancelled _ _) fun j d _ hd => h d (hmem hd)

/-- In a run whose steps are all considerate, every caller that was not itself cancelled and ended
after a cache miss has the result of an attempt at its url. -/
theorem callers_isolated {as : List (Act P ε)} (h : exec SingleFlight.step init as = some s)
    (hmeets : Meets SingleFlight.step Considerate init as) :
    ∀ c ∈ s.callers, c.cancelled = false → ∀ o, c.phase = .ended o →
      ∃ r, (c.url, r) ∈ s.attempts ∧ o = .ofAttempt r := by
  have hinv : Linked s ∧ ∀ d ∈ s.callers, d.Isolated s.group s.attempts := by
    refine exec_induction (fun _ s => Linked s ∧ ∀ d ∈ s.callers, d.Isolated s.group s.attempts)
      ⟨linked_init, fun _ hd => nomatch hd⟩ ?_ hmeets h
    intro _ t a t' _ ⟨hlinked, hiso⟩ hok hstep
    exact ⟨hlinked.step hstep, isolated_step hlinked hiso hok hstep⟩
  intro c hc hn o ho
  cases hinv.2 c hc with
  | cancelled url p => cases hn
  | ended hr =>
    cases ho
    exact hr
  | lookingUp _ _ | leading _ _ _ | waiting _ _ | hit _ _ _ => cases ho

/-! ### What an inconsiderate step leads to -/

/-- A caller that was not cancelled has ended with a `CancelledError`. -/
def Harmed (s : System P ε) : Prop :=
  ∃ c ∈ s.callers, c.cancelled = false ∧ c.phase = .ended .cancelledError

theorem harmed_of_wake {f : Flight P ε} (hi : s.callers[i]? = some c) (hn : c.cancelled = false)
    (hc : c.phase = .waiting holder) (hf : s.group.flights[holder]? = some f)
    (ho : f.future.await = some .cancelledError) :
    ∃ bs t, exec SingleFlight.step s bs = some t ∧ Harmed t := by
  obtain ⟨hlt, -⟩ := List.getElem?_eq_some_iff.mp hi
  refine ⟨[.wake i], s.move i c (.ended .cancelledError), ?_, ?_⟩
  · simp [SingleFlight.step, hi, hc, hf, ho]
  · exact ⟨_, List.mem_iff_getElem?.mpr ⟨i, List.getElem?_set_self hlt⟩, hn, rfl⟩

theorem harmed_of_cancel {j : ℕ} {key : String} (hs : Linked s)
    (hphase : c.phase = .leading holder ∨ c.phase = .waiting holder)
    (hi : s.callers[i]? = some c) (hpend : s.group.flights[holder]? = some ⟨key, .pending⟩)
    (hj : j ≠ i) (hd : s.callers[j]? = some d) (hwait : d.phase = .waiting holder)
    (hstep : SingleFlight.step s (.cancel i) = some s') :
    ∃ bs t, exec SingleFlight.step s' bs = some t ∧ Harmed t := by
  have hn : d.cancelled = false := by
    obtain ⟨u, hu, hp⟩ := (hs.callers d (List.mem_of_getElem? hd)).wait hwait
    rw [hpend] at hu
    cases hu
    simpa using hp
  have hset : ∀ x, (s.callers.set i x)[j]? = some d := by
    intro x
    rw [List.getElem?_set_ne (Ne.symm hj), hd]
  cases fires_of_step hstep with
  | cancelLookup hi' hc =>
    rw [hi] at hi'
    cases hi'
    simp [hc] at hphase
  | cancelLeader hi' hc =>
    rw [hi] at hi'
    cases hi'
    obtain rfl : _ = holder := by simpa [hc] using hphase
    refine harmed_of_wake (f := ⟨key, .done .cancelledError⟩) (hset _) hn hwait ?_ rfl
    rw [System.interrupt, System.settle, Group.release_flights, Group.complete_pending hpend]
  | cancelWaiter hi' hc hf =>
    rw [hi] at hi'
    cases hi'
    obtain rfl : _ = holder := by simpa [hc] using hphase
    exact harmed_of_wake (hset _) hn hwait (Group.complete_pending hpend) rfl
  | cancelWoken hi' hc hf =>
    rw [hi] at hi'
    cases hi'
    obtain rfl : _ = holder := by simpa [hc] using hphase
    exact absurd hpend (hf key)

theorem harmed_of_missed {key : String} (hs : Linked s) (hi : s.callers[i]? = some c)
    (hc : c.phase = .lookingUp) (hin : s.group.inflightRequests c.url = some holder)
    (hcan : s.group.flights[holder]? = some ⟨key, .cancelled⟩)
    (hstep : SingleFlight.step s (.missed i) = some s') :
    ∃ bs t, exec SingleFlight.step s' bs = some t ∧ Harmed t := by
  obtain ⟨hlt, -⟩ := List.getElem?_eq_some_iff.mp hi
  have hn := (hs.callers c (List.mem_of_getElem? hi)).not_cancelled hc
  cases fires_of_step hstep with
  | missed hi' hc' =>
    rw [hi] at hi'
    cases hi'
    have he : missed i c s = s.move i c (.waiting holder) := by
      simp [missed, Group.acquire, hin]
    rw [he]
    exact harmed_of_wake (i := i) (List.getElem?_set_self hlt) hn rfl hcan rfl

/-- The condition is exact: after a step that does not meet it, a caller that was not cancelled can
only wake to a `CancelledError`. -/
theorem harmed_of_not_considerate {as : List (Act P ε)} {a : Act P ε}
    (h : exec SingleFlight.step init as = some s) (hnot : ¬ Considerate s a)
    (hstep : SingleFlight.step s a = some s') :
    ∃ bs t, exec SingleFlight.step s' bs = some t ∧ Harmed t := by
  have hs := reachable_linked h
  cases a with
  | cancel i =>
    simp only [Considerate, not_forall, not_not] at hnot
    obtain ⟨c, holder, key, hi, hphase, hpend, j, d, hj, hd, hwait⟩ := hnot
    exact harmed_of_cancel hs hphase hi hpend hj hd hwait hstep
  | missed i =>
    simp only [Considerate, not_forall, not_not] at hnot
    obtain ⟨c, holder, key, hi, hc, hin, hcan⟩ := hnot
    exact harmed_of_missed hs hi hc hin hcan hstep
  | getJson url => exact absurd trivial hnot
  | cached i p => exact absurd trivial hnot
  | answered i r => exact absurd trivial hnot
  | wake i => exact absurd trivial hnot

end Steps

/-! ### Three callers of one url -/

/-- One leads, two wait, and the first of the waiters is cancelled. -/
def cancelledWaiter : List (Act ℕ String) :=
  [.getJson "u", .getJson "u", .getJson "u", .missed 0, .missed 1, .missed 2, .cancel 1, .wake 2]

def afterCancelledWaiter : List (Caller ℕ String) :=
  [⟨"u", .leading 0, false⟩, ⟨"u", .waiting 0, true⟩, ⟨"u", .ended .cancelledError, false⟩]

/-- The other waiter was not cancelled, and ends with the first one's `CancelledError`. -/
theorem cancelled_by_another :
    ¬ ∀ (as : List (Act ℕ String)) (s : System ℕ String), exec step init as = some s →
      ∀ c ∈ s.callers, c.cancelled = false → ∀ o, c.phase = .ended o →
        ∃ r, (c.url, r) ∈ s.attempts ∧ o = .ofAttempt r := by
  intro h
  have hrun : (exec step init cancelledWaiter).map (fun s => (s.callers, s.attempts)) =
      some (afterCancelledWaiter, []) := by
    decide +kernel
  obtain ⟨s, hs, he⟩ := Option.map_eq_some_iff.mp hrun
  obtain ⟨hcallers, hattempts⟩ := Prod.mk.inj he
  obtain ⟨r, hr, -⟩ := h cancelledWaiter s hs ⟨"u", .ended .cancelledError, false⟩
    (by rw [hcallers]; simp [afterCancelledWaiter]) rfl .cancelledError rfl
  rw [hattempts] at hr
  exact absurd hr (List.not_mem_nil)

/-- The leader answers the waiter, with nobody cancelled. -/
def answeredWaiter : List (Act ℕ String) :=
  [.getJson "u", .getJson "u", .missed 0, .missed 1, .answered 0 (.ok none), .wake 1]

theorem meets_answeredWaiter : Meets step Considerate init answeredWaiter := by
  refine (meets_cons_of_step rfl).mpr ⟨trivial, (meets_cons_of_step rfl).mpr ⟨trivial, ?_⟩⟩
  refine (meets_cons_of_step rfl).mpr ⟨?_, (meets_cons_of_step rfl).mpr ⟨?_, ?_⟩⟩
  · intro c holder key hi hc hin
    cases hin
  · intro c holder key hi hc hin
    cases hi
    have hholder : Function.update (fun _ => none) "u" (some 0) "u" = some holder := hin
    obtain rfl : 0 = holder := by simpa using hholder
    intro hcan
    cases hcan
  · exact (meets_cons_of_step rfl).mpr ⟨trivial, (meets_cons_of_step rfl).mpr ⟨trivial, trivial⟩⟩

theorem callers_isolated_answeredWaiter :
    ∃ s, exec step init answeredWaiter = some s ∧
      ∀ c ∈ s.callers, c.cancelled = false → ∀ o, c.phase = .ended o →
        ∃ r, (c.url, r) ∈ s.attempts ∧ o = .ofAttempt r := by
  have hrun : (exec step (init : System ℕ String) answeredWaiter).isSome = true := by
    decide +kernel
  obtain ⟨s, hs⟩ := Option.isSome_iff_exists.mp hrun
  exact ⟨s, hs, callers_isolated hs meets_answeredWaiter⟩

end ChainMonitor.SingleFlight
