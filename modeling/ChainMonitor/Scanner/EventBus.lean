import ChainMonitor.ProofKit.Dict
import ChainMonitor.ProofKit.Relational

/-! `EventBus` of `scanner/events.py`: who is called with a published event, and that nothing a
handler raises comes out of `publish`. -/

namespace ChainMonitor

open ProofKit

/-- A handler may raise, and what it remembers is in a state that the handlers share. -/
abbrev EventHandler (E σ ε : Type) := E → Act σ ε Unit

/-- The handlers by the type of the events that they are called with, in order of subscription. -/
structure EventBus (T E σ ε : Type) where
  handlers : Dict T (List (EventHandler E σ ε))

namespace EventBus

variable {T E σ ε : Type} [DecidableEq T]

def init : EventBus T E σ ε := ⟨Dict.empty⟩

/-- `self._handlers.get(event_type, [])`. -/
def handlersOf (bus : EventBus T E σ ε) (eventType : T) : List (EventHandler E σ ε) :=
  (bus.handlers.get? eventType).getD []

def subscribe (eventType : T) (handler : EventHandler E σ ε) (bus : EventBus T E σ ε) :
    EventBus T E σ ε :=
  ⟨bus.handlers.set eventType (bus.handlersOf eventType ++ [handler])⟩

/-- A call of the handler at place `index` among those of the type. -/
structure Call (T E : Type) where
  eventType : T
  index : ℕ
  event : E
  deriving DecidableEq

/-- What the handlers remember, and their calls so far. -/
structure Observers (T E σ : Type) where
  state : σ
  calls : List (Call T E)

def call (eventType : T) (index : ℕ) (handler : EventHandler E σ ε) (event : E) :
    Act (Observers T E σ) ε Unit := fun o =>
  let (reply, state) := (handler event).from o.state
  (reply, ⟨state, o.calls ++ [⟨eventType, index, event⟩]⟩)

/-- The loop of `publish` over the handlers that are left, of which `index` is the place of the
first. -/
def publishTo (eventType : T) (event : E) :
    ℕ → List (EventHandler E σ ε) → Act (Observers T E σ) ε Unit
  | _, [] => pure ()
  | index, handler :: rest => do
    tryCatch (call eventType index handler event) fun _ => pure ()
    publishTo eventType event (index + 1) rest

def publish (type : E → T) (bus : EventBus T E σ ε) (event : E) : Act (Observers T E σ) ε Unit :=
  publishTo (type event) event 0 (bus.handlersOf (type event))

/-- What the handlers remember after an event, when they remembered `state` before. -/
def react (type : E → T) (bus : EventBus T E σ ε) (event : E) (state : σ) : σ :=
  (bus.handlersOf (type event)).foldl (fun state handler => ((handler event).from state).2) state

/-! ### Who receives what -/

variable {bus : EventBus T E σ ε} {t u : T} {h : EventHandler E σ ε} {i : ℕ} {event : E}

@[simp] theorem handlersOf_init (t : T) : (init : EventBus T E σ ε).handlersOf t = [] := rfl

/-- What the handler at place `i` of the type has been called with, in order. -/
def received (t : T) (i : ℕ) (calls : List (Call T E)) : List E :=
  (calls.filter fun c => c.eventType = t ∧ c.index = i).map (·.event)

@[simp] theorem received_append (t : T) (i : ℕ) (calls more : List (Call T E)) :
    received t i (calls ++ more) = received t i calls ++ received t i more := by
  simp [received]

omit [DecidableEq T] in
/-- The call of a handler that may raise returns, is recorded, and leaves what the handler leaves.
-/
theorem call_caught (t : T) (i : ℕ) (h : EventHandler E σ ε) (event : E)
    (o : Observers T E σ) :
    Act.from (tryCatch (call t i h event) fun _ => pure ()) o =
      (.ok (), ⟨((h event).from o.state).2, o.calls ++ [⟨t, i, event⟩]⟩) := by
  rcases hh : (h event).from o.state with ⟨reply, state⟩
  have hcall : (call t i h event).from o = (reply, ⟨state, o.calls ++ [⟨t, i, event⟩]⟩) := by
    show call t i h event o = _
    simp [call, hh]
  cases reply with
  | ok value => exact from_tryCatch_of_ok hcall
  | error e =>
    rw [from_tryCatch_of_error hcall]
    rfl

omit [DecidableEq T] in
/-- The loop returns, calls each handler that is left, in order, and leaves what they leave. -/
theorem publishTo_from (t : T) (event : E) (i : ℕ) (hs : List (EventHandler E σ ε))
    (o : Observers T E σ) :
    (publishTo t event i hs).from o =
      (.ok (), ⟨hs.foldl (fun state handler => ((handler event).from state).2) o.state,
        o.calls ++ (List.range' i hs.length).map fun j => ⟨t, j, event⟩⟩) := by
  induction hs generalizing i o with
  | nil => simp [publishTo]
  | cons h hs ih =>
    rw [publishTo, from_bind_of_ok (call_caught t i h event o), ih]
    simp [List.range'_succ]

theorem received_of_ne (htu : u ≠ t) (event : E) (indices : List ℕ) :
    received t i (indices.map fun j => (⟨u, j, event⟩ : Call T E)) = [] := by
  simp [received, htu]

theorem received_range' (t : T) (event : E) (first n : ℕ) :
    received t i ((List.range' first n).map fun j => (⟨t, j, event⟩ : Call T E)) =
      if first ≤ i ∧ i < first + n then [event] else [] := by
  induction n generalizing first with
  | zero =>
    rw [if_neg (by omega)]
    rfl
  | succ n ih =>
    rw [List.range'_succ, List.map_cons, ← List.singleton_append, received_append, ih]
    by_cases hfirst : first = i
    · subst hfirst
      rw [if_neg (by omega), if_pos (by omega)]
      simp [received]
    · have hrest : first + 1 ≤ i ∧ i < first + 1 + n ↔ first ≤ i ∧ i < first + (n + 1) := by
        omega
      have hother : received t i [(⟨t, first, event⟩ : Call T E)] = [] := by
        simp [received, hfirst]
      rw [hother, List.nil_append, if_congr hrest rfl rfl]

/-- `publish` returns, and what a handler has received grows by the event when it has subscribed to
its type. -/
theorem publish_returns (type : E → T) (bus : EventBus T E σ ε) (event : E)
    (o : Observers T E σ) :
    ∃ o', (bus.publish type event).from o = (.ok (), o') ∧ ∀ t i, i < (bus.handlersOf t).length →
      received t i o'.calls =
        received t i o.calls ++ if type event = t then [event] else [] := by
  refine ⟨_, publishTo_from (type event) event 0 (bus.handlersOf (type event)) o, ?_⟩
  intro t i hi
  rw [received_append]
  by_cases ht : type event = t
  · subst ht
    rw [if_pos rfl, received_range', if_pos ⟨Nat.zero_le i, by rwa [Nat.zero_add]⟩]
  · rw [if_neg ht, received_of_ne ht]

theorem publish_state (type : E → T) (bus : EventBus T E σ ε) (event : E)
    (o : Observers T E σ) :
    ((bus.publish type event).from o).2.state = bus.react type event o.state := by
  rw [publish, publishTo_from]
  rfl

/-- A handler that raises does not keep the event from the next one. -/
example :
    let bus : EventBus Unit ℕ (List ℕ) String :=
      (init.subscribe () fun _ => throw "oops").subscribe () fun event => modify (event :: ·)
    ((bus.publish (fun _ => ()) 7).from ⟨[], []⟩).2.state = [7] := by
  decide

end EventBus

end ChainMonitor
