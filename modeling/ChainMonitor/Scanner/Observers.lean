import ChainMonitor.Scanner.EventBus
import ChainMonitor.Scanner.Runs

/-! `ScannerOrchestrator.run_cycle` of `scanner/orchestrator.py` with the handlers of its
`EventBus`: what the handlers do, or raise, does not reach the scanner. -/

namespace ChainMonitor.Observers

open ProofKit Detector Cooldown EventBus
open Orchestrator hiding runChain runCycle runCycles processToken

/-- The classes of `ALL_EVENT_TYPES`. -/
inductive EventType
  | trendingFetched
  | tokenSecurityChecked
  | tokenProcessed
  | chainScanCompleted
  deriving DecidableEq

/-- The class of an output that is published. An alert is not. -/
def eventType? : Output → Option EventType
  | .trendingFetched .. => some .trendingFetched
  | .tokenSecurityChecked .. => some .tokenSecurityChecked
  | .tokenProcessed .. => some .tokenProcessed
  | .chainScanCompleted .. => some .chainScanCompleted
  | .alert .. => none

structure Event where
  output : Output
  isEvent : (eventType? output).isSome
  deriving DecidableEq

def Event.type (event : Event) : EventType := (eventType? event.output).get event.isEvent

/-- What the scanner does outside of itself. The calls of `send_alpha` and of `save` are there also
when they raise. -/
inductive Effect
  | output (out : Output)
  | called (signal : AlphaSignal) (calledAt : ℚ)
  | marked (address : String) (level : Level) (markedAt : ℚ)
  | saved (chain : String) (interval : Interval) (snapshot : Snapshot)
  deriving DecidableEq

structure Scanner where
  last1hRun : ℚ
  cooldown : CooldownManager
  effects : List Effect

variable {σ ε α : Type}

/-- What a scan may raise. -/
inductive Exc (ε : Type)
  | collaborator
  | python (e : PyError)
  | handler (e : ε)

abbrev Bus (σ ε : Type) := EventBus EventType Event σ ε

/-- The scanner beside the handlers of its bus. -/
abbrev World (σ : Type) := Scanner × EventBus.Observers EventType Event σ

abbrev Live (σ ε α : Type) := Act (World σ) (Exc ε) α

/-- What the scanner does by itself. -/
def alone (f : Scanner → Scanner) : Live σ ε Unit := modify fun w => (f w.1, w.2)

def scanner : Live σ ε Scanner := fun w => (.ok w.1, w)

def record (effect : Effect) : Live σ ε Unit :=
  alone fun s => { s with effects := s.effects ++ [effect] }

def await : Reply α → Live σ ε α
  | .returned value => pure value
  | .raised => throw .collaborator

def attempt : Except PyError α → Live σ ε α
  | .ok value => pure value
  | .error e => throw (.python e)

/-- The handlers' part of `publish`. -/
def notify (bus : Bus σ ε) (event : Event) : Live σ ε Unit := fun w =>
  let (reply, observers) := (bus.publish Event.type event).from w.2
  (reply.mapError .handler, (w.1, observers))

def publish (bus : Bus σ ε) (event : Event) : Live σ ε Unit := do
  record (.output event.output)
  notify bus event

def sendAlpha (sig : AlphaSignal) (sentAt : ℚ) (reply : Reply Unit) : Live σ ε Unit := do
  record (.called sig sentAt)
  await reply
  record (.output (.alert sig sentAt))

def markCooldown (o : ScannerOrchestrator) (address : String) (level : Level) (now : ℚ) :
    Live σ ε Unit := do
  alone fun s => { s with cooldown := mark o.cooldown now address level s.cooldown }
  record (.marked address level now)

def save (chain : String) (interval : Interval) (snapshot : Snapshot) (saved : Bool) :
    Live σ ε Unit := do
  record (.saved chain interval snapshot)
  if saved then pure () else throw .collaborator

/-- The body of the loop over the security tasks. It sets `t0`, and the risk of the address. -/
def checkSecurity (bus : Bus σ ε) (chain : String) (security : String → SecurityReply)
    (found : ℚ × Dict String TokenRisk) (task : String × String) :
    Live σ ε (ℚ × Dict String TokenRisk) := do
  let reply := security task.1
  let risks ← tryCatch
    (do
      let risk ← await reply.result
      publish bus ⟨.tokenSecurityChecked chain task.1 task.2
        ((reply.finishedAt - reply.startedAt) * 1000) risk.isSome, rfl⟩
      pure (found.2.setSome task.1 risk))
    fun _ => pure found.2
  pure (reply.startedAt, risks)

/-- The body of the loop over the tokens. -/
def processToken (bus : Bus σ ε) (o : ScannerOrchestrator) (s : Scan) (signals : List AlphaSignal)
    (turn : TrendingToken × TokenTimes) : Live σ ε Unit := do
  let (token, times) := turn
  let scored ← attempt (ownScore o s token)
  let row := quietRow o s token scored
  match (signalMap signals).get? token.address with
  | none => publish bus ⟨.tokenProcessed row, rfl⟩
  | some sig => do
    let m := (← scanner).cooldown
    if isCooling times.checked m token.address then
      publish bus ⟨.tokenProcessed { row with cooldownSkipped := true }, rfl⟩
    else
      let scoreTotal ← attempt (decayed row.scoreTotal (decayFactor m token.address))
      sendAlpha sig times.sent times.alerted
      markCooldown o token.address sig.level times.marked
      publish bus ⟨.tokenProcessed { row with
        signalEmitted := true, signalLevel := some sig.level, scoreTotal := scoreTotal }, rfl⟩

def loadHour (input : ScanInput) : Interval → Live σ ε (Option Snapshot)
  | .oneMinute => await input.previousHour
  | .oneHour => pure none

/-- `_run_chain`. -/
def runChain (bus : Bus σ ε) (o : ScannerOrchestrator) (chain : String) (interval : Interval)
    (input : ScanInput) : Live σ ε Unit := do
  match ← await input.fetched with
  -- `len(tokens)` raises before the event is published
  | none => throw (.python .typeError)
  | some tokens =>
    publish bus ⟨.trendingFetched chain interval tokens.length
      ((input.fetchedAt - input.startedAt) * 1000) (tokens ≠ []), rfl⟩
    if tokens = [] then pure ()
    else
      let prev ← await input.previous
      let hour ← loadHour input interval
      let curr : Snapshot := ⟨chain, interval, flagged hour tokens, input.takenAt⟩
      let (t0, risks) ← (securityTasks [] tokens).foldlM (checkSecurity bus chain input.security)
        (input.startedAt, Dict.empty)
      let signals ← attempt (detect o.scorer prev curr risks)
      let s : Scan := ⟨chain, interval, t0, prev, curr, risks⟩
      forM (turns s input.times) (processToken bus o s signals)
      save chain interval curr input.saved
      publish bus ⟨.chainScanCompleted chain interval ((input.finishedAt - t0) * 1000)
        tokens.length signals.length, rfl⟩

/-- One of the two loops of `run_cycle` over the chains. -/
def runRound (bus : Bus σ ε) (o : ScannerOrchestrator) (interval : Interval)
    (inputs : ℕ → ScanInput) : Live σ ε Unit :=
  forM (o.chains.mapIdx fun i chain => (chain, inputs i)) fun (chain, input) =>
    tryCatch (runChain bus o chain interval input) fun _ => pure ()

def runCycle (bus : Bus σ ε) (o : ScannerOrchestrator) (c : CycleInput) : Live σ ε Unit := do
  runRound bus o .oneMinute c.oneMinute
  if hourDue o (← scanner).last1hRun c.now then
    alone fun s => { s with last1hRun := c.now }
    runRound bus o .oneHour c.oneHour
  else pure ()

def runCycles (bus : Bus σ ε) (o : ScannerOrchestrator) (cs : List CycleInput) : Live σ ε Unit :=
  forM cs (runCycle bus o)

/-! ### Two buses side by side -/

def Effect.event? : Effect → Option Event
  | .output out => if h : (eventType? out).isSome then some ⟨out, h⟩ else none
  | .called .. => none
  | .marked .. => none
  | .saved .. => none

/-- The events of a type among the effects, in order of publication. -/
def published (t : EventType) (effects : List Effect) : List Event :=
  (effects.filterMap Effect.event?).filter fun event => event.type = t

@[simp] theorem published_append (t : EventType) (effects more : List Effect) :
    published t (effects ++ more) = published t effects ++ published t more := by
  simp [published]

theorem published_event (t : EventType) (event : Event) :
    published t [.output event.output] = if event.type = t then [event] else [] := by
  have hevent : Effect.event? (.output event.output) = some event := dif_pos event.isEvent
  simp [published, hevent, List.filter_singleton]

theorem published_of_eq_none {effect : Effect} (h : effect.event? = none) (t : EventType) :
    published t [effect] = [] := by
  simp [published, h]

/-- The scanners are the same, and each handler of the bus has received the events of its type. -/
structure Watched (bus : Bus σ ε) (v w : World σ) : Prop where
  scanner : v.1 = w.1
  received : ∀ t i, i < (bus.handlersOf t).length →
    received t i v.2.calls = published t v.1.effects

variable {bus : Bus σ ε}

/-- What the scanner does by itself it does beside any handlers, if it publishes nothing. -/
theorem alike_alone {f : Scanner → Scanner}
    (h : ∀ s t, published t (f s).effects = published t s.effects) :
    Alike (Watched bus) (alone f : Live σ ε Unit) (alone f) := by
  apply Alike.modify
  intro v w hvw
  refine ⟨congrArg f hvw.scanner, ?_⟩
  intro t i hi
  rw [hvw.received t i hi, h]

theorem alike_record {effect : Effect} (h : effect.event? = none) :
    Alike (Watched bus) (record effect : Live σ ε Unit) (record effect) := by
  apply alike_alone
  intro s t
  rw [published_append, published_of_eq_none h, List.append_nil]

theorem alike_await (reply : Reply α) :
    Alike (Watched bus) (await reply : Live σ ε α) (await reply) := by
  cases reply with
  | returned value => exact Alike.pure value
  | raised => exact Alike.throw _

theorem alike_attempt (x : Except PyError α) :
    Alike (Watched bus) (attempt x : Live σ ε α) (attempt x) := by
  cases x with
  | ok value => exact Alike.pure value
  | error e => exact Alike.throw _

/-- `publish` returns, and leaves the scanner with the event among its effects. -/
theorem publish_from (bus : Bus σ ε) (event : Event) (w : World σ) :
    ∃ observers, (publish bus event).from w =
        (.ok (), ({ w.1 with effects := w.1.effects ++ [.output event.output] }, observers)) ∧
      ∀ t i, i < (bus.handlersOf t).length → received t i observers.calls =
        received t i w.2.calls ++ if event.type = t then [event] else [] := by
  obtain ⟨observers, hpublish, hreceived⟩ := publish_returns Event.type bus event w.2
  refine ⟨observers, ?_, hreceived⟩
  have hrecord : (record (.output event.output) : Live σ ε Unit).from w =
      (.ok (), ({ w.1 with effects := w.1.effects ++ [.output event.output] }, w.2)) := rfl
  rw [publish, from_bind_of_ok hrecord]
  show notify bus event _ = _
  simp only [notify, hpublish]
  rfl

theorem alike_publish (event : Event) :
    Alike (Watched bus) (publish bus event) (publish EventBus.init event) := by
  intro v w hvw
  obtain ⟨seen, hseen, hreceived⟩ := publish_from bus event v
  obtain ⟨unseen, hunseen, -⟩ := publish_from (EventBus.init : Bus σ ε) event w
  rw [hseen, hunseen, hvw.scanner]
  refine ⟨rfl, rfl, ?_⟩
  intro t i hi
  rw [hreceived t i hi, hvw.received t i hi, ← hvw.scanner, published_append, published_event]

theorem alike_checkSecurity (chain : String) (security : String → SecurityReply)
    (found : ℚ × Dict String TokenRisk) (task : String × String) :
    Alike (Watched bus) (checkSecurity bus chain security found task)
      (checkSecurity EventBus.init chain security found task) := by
  unfold checkSecurity
  refine Alike.bind (Alike.tryCatch ?_ fun _ => Alike.pure _) fun _ => Alike.pure _
  refine (alike_await _).bind fun risk => ?_
  exact (alike_publish _).bind fun _ => Alike.pure _

theorem alike_sendAlpha (sig : AlphaSignal) (sentAt : ℚ) (reply : Reply Unit) :
    Alike (Watched bus) (sendAlpha sig sentAt reply : Live σ ε Unit)
      (sendAlpha sig sentAt reply) :=
  (alike_record rfl).bind fun _ => (alike_await reply).bind fun _ => alike_record rfl

theorem alike_markCooldown (o : ScannerOrchestrator) (address : String) (level : Level) (now : ℚ) :
    Alike (Watched bus) (markCooldown o address level now : Live σ ε Unit)
      (markCooldown o address level now) := by
  refine Alike.bind (alike_alone ?_) fun _ => alike_record rfl
  intro s t
  rfl

theorem alike_scanner : Alike (Watched bus) (scanner : Live σ ε Scanner) scanner :=
  fun _ _ hvw => ⟨congrArg Except.ok hvw.scanner, hvw⟩

theorem alike_processToken (o : ScannerOrchestrator) (s : Scan) (signals : List AlphaSignal)
    (turn : TrendingToken × TokenTimes) :
    Alike (Watched bus) (processToken bus o s signals turn)
      (processToken EventBus.init o s signals turn) := by
  obtain ⟨token, times⟩ := turn
  refine (alike_attempt _).bind fun scored => ?_
  cases (signalMap signals).get? token.address with
  | none => exact alike_publish _
  | some sig =>
    refine alike_scanner.bind fun now => ?_
    by_cases hcool : isCooling times.checked now.cooldown token.address
    · simp only [hcool, if_true]
      exact alike_publish _
    · simp only [if_neg hcool]
      refine (alike_attempt _).bind fun total => ?_
      refine (alike_sendAlpha sig times.sent times.alerted).bind fun _ => ?_
      exact (alike_markCooldown o token.address sig.level times.marked).bind fun _ =>
        alike_publish _

theorem alike_save (chain : String) (interval : Interval) (snapshot : Snapshot) (saved : Bool) :
    Alike (Watched bus) (save chain interval snapshot saved : Live σ ε Unit)
      (save chain interval snapshot saved) := by
  refine (alike_record rfl).bind fun _ => ?_
  cases saved with
  | true => exact Alike.pure ()
  | false => exact Alike.throw _

theorem alike_runChain (o : ScannerOrchestrator) (chain : String) (interval : Interval)
    (input : ScanInput) :
    Alike (Watched bus) (runChain bus o chain interval input)
      (runChain EventBus.init o chain interval input) := by
  refine (alike_await _).bind fun fetched => ?_
  cases fetched with
  | none => exact Alike.throw _
  | some tokens =>
    refine (alike_publish _).bind fun _ => ?_
    by_cases hne : tokens = []
    · simp only [hne, if_true]
      exact Alike.pure ()
    · simp only [if_neg hne]
      refine (alike_await _).bind fun prev => Alike.bind ?_ fun hour => ?_
      · cases interval with
        | oneMinute => exact alike_await _
        | oneHour => exact Alike.pure _
      · refine (Alike.foldlM (alike_checkSecurity chain input.security) _ _).bind fun found => ?_
        refine (alike_attempt _).bind fun signals => ?_
        refine (Alike.forM (alike_processToken o _ signals) _).bind fun _ => ?_
        exact (alike_save chain interval _ _).bind fun _ => alike_publish _

theorem alike_runRound (o : ScannerOrchestrator) (interval : Interval) (inputs : ℕ → ScanInput) :
    Alike (Watched bus) (runRound bus o interval inputs)
      (runRound EventBus.init o interval inputs) := by
  apply Alike.forM
  rintro ⟨chain, input⟩
  exact (alike_runChain o chain interval input).tryCatch fun _ => Alike.pure ()

theorem alike_runCycle (o : ScannerOrchestrator) (c : CycleInput) :
    Alike (Watched bus) (runCycle bus o c) (runCycle EventBus.init o c) := by
  refine (alike_runRound o .oneMinute c.oneMinute).bind fun _ => ?_
  refine alike_scanner.bind fun now => ?_
  by_cases hdue : hourDue o now.last1hRun c.now
  · simp only [hdue, if_true]
    refine Alike.bind (alike_alone ?_) fun _ => alike_runRound o .oneHour c.oneHour
    intro s t
    rfl
  · simp only [if_neg hdue]
    exact Alike.pure ()

/-! ### What the cycles put out -/

def Effect.output? : Effect → Option Output
  | .output out => some out
  | .called .. => none
  | .marked .. => none
  | .saved .. => none

def outputs (effects : List Effect) : List Output := effects.filterMap Effect.output?

@[simp] theorem outputs_append (effects more : List Effect) :
    outputs (effects ++ more) = outputs effects ++ outputs more :=
  List.filterMap_append

/-- From `v` to `w` the scanner has come to the cooldown `m` and has put out `outs`. -/
structure Shown (v w : World σ) (m : CooldownManager) (outs : List Output) : Prop where
  last1hRun : w.1.last1hRun = v.1.last1hRun
  cooldown : w.1.cooldown = m
  outputs : outputs w.1.effects = outputs v.1.effects ++ outs

variable {v w u : World σ} {m m' : CooldownManager} {outs more : List Output}

theorem Shown.refl (v : World σ) : Shown v v v.1.cooldown [] :=
  ⟨rfl, rfl, (List.append_nil _).symm⟩

theorem Shown.trans (h : Shown v w m outs) (h' : Shown w u m' more) :
    Shown v u m' (outs ++ more) :=
  ⟨h'.last1hRun.trans h.last1hRun, h'.cooldown, by
    rw [h'.outputs, h.outputs, List.append_assoc]⟩

theorem shown_of_saved (chain : String) (interval : Interval) (snapshot : Snapshot)
    (v : World σ) :
    Shown v ({ v.1 with effects := v.1.effects ++ [.saved chain interval snapshot] }, v.2)
      v.1.cooldown [] :=
  ⟨rfl, rfl, outputs_append _ _⟩

theorem publish_shown (bus : Bus σ ε) (event : Event) (v : World σ) :
    ∃ w, (publish bus event).from v = (.ok (), w) ∧ Shown v w v.1.cooldown [event.output] := by
  obtain ⟨observers, hpublish, -⟩ := publish_from bus event v
  exact ⟨_, hpublish, rfl, rfl, outputs_append _ _⟩

theorem checkSecurity_shown (bus : Bus σ ε) (chain : String) (security : String → SecurityReply)
    (found : ℚ × Dict String TokenRisk) (task : String × String) (v : World σ) :
    ∃ w, (checkSecurity bus chain security found task).from v =
        (.ok ((security task.1).startedAt,
          match (security task.1).result with
          | .returned (some risk) => found.2.set task.1 risk
          | _ => found.2), w) ∧
      Shown v w v.1.cooldown (securityChecked chain security task).toList := by
  cases hr : (security task.1).result with
  | raised =>
    simp only [checkSecurity, securityChecked, hr, await]
    exact ⟨v, rfl, Shown.refl v⟩
  | returned risk =>
    let event : Event := ⟨.tokenSecurityChecked chain task.1 task.2
      (((security task.1).finishedAt - (security task.1).startedAt) * 1000) risk.isSome, rfl⟩
    obtain ⟨w, hpublish, hshown⟩ := publish_shown bus event v
    have hbody : Act.from (do publish bus event; pure (found.2.setSome task.1 risk)) v =
        (.ok (found.2.setSome task.1 risk), w) := from_bind_of_ok hpublish
    simp only [checkSecurity, securityChecked, hr, await, pure_bind]
    refine ⟨w, ?_, hshown⟩
    rw [from_bind_of_ok (from_tryCatch_of_ok hbody)]
    cases risk <;> rfl

/-- The security loop sets `t0` and the risks as the scan has them. -/
theorem foldlM_checkSecurity_shown (bus : Bus σ ε) (chain : String)
    (security : String → SecurityReply) (tasks : List (String × String)) (t0 : ℚ)
    (risks : Dict String TokenRisk) (v : World σ) :
    ∃ w, (tasks.foldlM (checkSecurity bus chain security) (t0, risks)).from v =
        (.ok ((tasks.getLast?.map fun task => (security task.1).startedAt).getD t0,
          Table.upsertAll (tasks.filterMap fun task =>
            match (security task.1).result with
            | .returned (some risk) => some (task.1, risk)
            | _ => none) risks), w) ∧
      Shown v w v.1.cooldown (tasks.filterMap (securityChecked chain security)) := by
  induction tasks generalizing t0 risks v with
  | nil => exact ⟨v, rfl, Shown.refl v⟩
  | cons task tasks ih =>
    obtain ⟨mid, hfirst, hshown⟩ := checkSecurity_shown bus chain security (t0, risks) task v
    obtain ⟨w, hrest, hlater⟩ := ih (security task.1).startedAt
      (match (security task.1).result with
        | .returned (some risk) => risks.set task.1 risk
        | _ => risks) mid
    refine ⟨w, ?_, ?_⟩
    · rw [List.foldlM_cons, from_bind_of_ok hfirst, hrest]
      congr 3
      · cases hlast : tasks.getLast? with
        | none => simp [List.getLast?_cons, hlast]
        | some last => simp [List.getLast?_cons, hlast]
      · rw [List.filterMap_cons]
        split <;> simp_all [Dict.set]
    · rw [hshown.cooldown] at hlater
      have hall := hshown.trans hlater
      rw [List.filterMap_cons]
      cases hc : securityChecked chain security task with
      | none => simpa [hc] using hall
      | some out => simpa [hc] using hall

/-- A turn of the loop raises where the scan's loop stops, and does otherwise what a turn of it
does. -/
theorem processToken_shown (bus : Bus σ ε) (o : ScannerOrchestrator) (s : Scan)
    (signals : List AlphaSignal) (token : TrendingToken) (times : TokenTimes) (v : World σ) :
    ∃ reply w, (processToken bus o s signals (token, times)).from v = (reply, w) ∧
      match Orchestrator.processToken o s signals v.1.cooldown token times with
      | .error _ => reply.isOk = false ∧ Shown v w v.1.cooldown []
      | .ok turn => reply = .ok () ∧ Shown v w turn.cooldown turn.outputs := by
  cases hs : ownScore o s token with
  | error e =>
    simp only [processToken, Orchestrator.processToken, hs, attempt]
    exact ⟨_, v, rfl, rfl, Shown.refl v⟩
  | ok scored =>
    rw [processToken_eq o s signals v.1.cooldown times hs]
    simp only [processToken, hs, attempt, pure_bind]
    cases (signalMap signals).get? token.address with
    | none =>
      obtain ⟨w, hpublish, hshown⟩ :=
        publish_shown bus ⟨.tokenProcessed (quietRow o s token scored), rfl⟩ v
      exact ⟨_, w, hpublish, rfl, hshown⟩
    | some sig =>
      have hscanner : (scanner : Live σ ε Scanner).from v = (.ok v.1, v) := rfl
      simp only [from_bind_of_ok hscanner]
      by_cases hcool : isCooling times.checked v.1.cooldown token.address
      · simp only [hcool, if_true]
        obtain ⟨w, hpublish, hshown⟩ := publish_shown bus
          ⟨.tokenProcessed { quietRow o s token scored with cooldownSkipped := true }, rfl⟩ v
        exact ⟨_, w, hpublish, rfl, hshown⟩
      · simp only [if_neg hcool]
        cases hd : decayed (quietRow o s token scored).scoreTotal
            (decayFactor v.1.cooldown token.address) with
        | error e => exact ⟨_, v, rfl, rfl, Shown.refl v⟩
        | ok total =>
          cases halerted : times.alerted with
          | raised =>
            -- The call is made, but there is neither an alert nor a mark.
            exact ⟨_, _, rfl, rfl, rfl, rfl, outputs_append _ _⟩
          | returned value =>
            let row := { quietRow o s token scored with
              signalEmitted := true, signalLevel := some sig.level, scoreTotal := total }
            -- The alert and the mark come before the row.
            let marked : World σ := ({ v.1 with
              cooldown := mark o.cooldown times.marked token.address sig.level v.1.cooldown
              effects := v.1.effects ++ [.called sig times.sent] ++
                [.output (.alert sig times.sent)] ++
                [.marked token.address sig.level times.marked] }, v.2)
            obtain ⟨w, hpublish, hshown⟩ := publish_shown bus ⟨.tokenProcessed row, rfl⟩ marked
            refine ⟨_, w, hpublish, rfl, hshown.last1hRun, hshown.cooldown, ?_⟩
            rw [hshown.outputs]
            simp only [marked, outputs_append, List.append_assoc]
            rfl

theorem processTokens_shown (bus : Bus σ ε) (o : ScannerOrchestrator) (s : Scan)
    (signals : List AlphaSignal) (ts : List (TrendingToken × TokenTimes)) (v : World σ) :
    let done := processTokens o s signals v.1.cooldown ts
    ∃ reply w, Act.from (forM ts (processToken bus o s signals)) v = (reply, w) ∧
      reply.isOk = done.completed ∧ Shown v w done.cooldown done.outputs := by
  induction ts generalizing v with
  | nil => exact ⟨_, v, rfl, rfl, Shown.refl v⟩
  | cons t ts ih =>
    obtain ⟨token, times⟩ := t
    obtain ⟨reply, mid, hfirst, hturn⟩ :=
      processToken_shown bus o s signals token times v
    rw [List.forM_cons]
    cases hp : Orchestrator.processToken o s signals v.1.cooldown token times with
    | error e =>
      rw [hp] at hturn
      obtain ⟨hreply, hshown⟩ := hturn
      rw [processTokens_of_error hp]
      cases reply with
      | ok value => cases hreply
      | error e => exact ⟨_, mid, from_bind_of_error hfirst, rfl, hshown⟩
    | ok turn =>
      rw [hp] at hturn
      obtain ⟨rfl, hshown⟩ := hturn
      rw [processTokens_of_ok hp]
      obtain ⟨reply, w, hrest, hreply, hlater⟩ := ih mid
      rw [hshown.cooldown] at hreply hlater
      exact ⟨reply, w, (from_bind_of_ok hfirst).trans hrest, hreply, hshown.trans hlater⟩

/-- The loop over the tokens, the save and the last event. -/
theorem finish_shown (bus : Bus σ ε) (o : ScannerOrchestrator) (s : Scan)
    (signals : List AlphaSignal) (input : ScanInput) (chain : String) (interval : Interval)
    (completed : Event) (v : World σ) :
    let done := processTokens o s signals v.1.cooldown (turns s input.times)
    ∃ reply w, Act.from (do
        forM (turns s input.times) (processToken bus o s signals)
        save chain interval s.curr input.saved
        publish bus completed) v = (reply, w) ∧
      Shown v w done.cooldown
        (done.outputs ++ if done.completed && input.saved then [completed.output] else []) := by
  intro done
  obtain ⟨reply, w, hloop, hreply, hshown⟩ :=
    processTokens_shown bus o s signals (turns s input.times) v
  cases reply with
  | error e =>
    have hstopped : done.completed = false := hreply.symm
    refine ⟨_, w, from_bind_of_error hloop, ?_⟩
    simpa [hstopped] using hshown
  | ok value =>
    have hcompleted : done.completed = true := hreply.symm
    have hsave : (save chain interval s.curr input.saved : Live σ ε Unit).from w =
        (if input.saved then .ok () else .error .collaborator,
          ({ w.1 with effects := w.1.effects ++ [.saved chain interval s.curr] }, w.2)) := by
      unfold save
      cases input.saved <;> rfl
    have hall := hshown.trans (shown_of_saved chain interval s.curr w)
    cases hsaved : input.saved with
    | false =>
      rw [hsaved, if_neg Bool.false_ne_true] at hsave
      refine ⟨_, _, (from_bind_of_ok hloop).trans (from_bind_of_error hsave), ?_⟩
      rw [hshown.cooldown] at hall
      simpa [hcompleted] using hall
    | true =>
      rw [hsaved, if_pos rfl] at hsave
      obtain ⟨w', hpublish, hlast⟩ := publish_shown bus completed
        ({ w.1 with effects := w.1.effects ++ [.saved chain interval s.curr] }, w.2)
      refine ⟨.ok (), w', ?_, ?_⟩
      · rw [from_bind_of_ok hloop, from_bind_of_ok hsave]
        exact hpublish
      · have hend := hall.trans hlast
        rw [hshown.cooldown] at hend
        simpa [hcompleted] using hend

theorem await_returned (value : α) : (await (.returned value) : Live σ ε α) = pure value := rfl

/-- The two loads raise, or go on with what they return. -/
theorem loads_from (interval : Interval) (input : ScanInput)
    (rest : Option Snapshot → Option Snapshot → Live σ ε Unit) (v : World σ) :
    Act.from (do let prev ← await input.previous; let hour ← loadHour input interval
                 rest prev hour) v =
      match load interval input with
      | none => (.error .collaborator, v)
      | some (prev, hour) => (rest prev hour).from v := by
  unfold load loadHour
  cases input.previous with
  | raised => rfl
  | returned prev =>
    cases interval with
    | oneHour => rfl
    | oneMinute =>
      cases input.previousHour with
      | raised => rfl
      | returned hour => rfl

theorem runChain_shown (bus : Bus σ ε) (o : ScannerOrchestrator) (chain : String)
    (interval : Interval) (input : ScanInput) (v : World σ) :
    let r := Orchestrator.runChain o chain interval input v.1.cooldown
    ∃ reply w, (runChain bus o chain interval input).from v = (reply, w) ∧ Shown v w r.1 r.2 := by
  unfold runChain Orchestrator.runChain
  cases hf : input.fetched with
  | raised => exact ⟨_, v, rfl, Shown.refl v⟩
  | returned fetched =>
    cases fetched with
    | none => exact ⟨_, v, rfl, Shown.refl v⟩
    | some tokens =>
      obtain ⟨w₁, hfetched, hshown₁⟩ := publish_shown bus ⟨.trendingFetched chain interval
        tokens.length ((input.fetchedAt - input.startedAt) * 1000) (tokens ≠ []), rfl⟩ v
      simp only [await_returned, pure_bind, from_bind_of_ok hfetched]
      by_cases hne : tokens = []
      · simp only [hne, if_true]
        subst hne
        exact ⟨_, w₁, rfl, hshown₁⟩
      · simp only [if_neg hne, loads_from]
        cases hl : load interval input with
        | none => exact ⟨_, w₁, rfl, hshown₁⟩
        | some loaded =>
          obtain ⟨prev, hour⟩ := loaded
          obtain ⟨w₂, hchecked, hshown₂⟩ := foldlM_checkSecurity_shown bus chain input.security
            (securityTasks [] tokens) input.startedAt Dict.empty w₁
          rw [hshown₁.cooldown] at hshown₂
          have hstart := hshown₁.trans hshown₂
          simp only [from_bind_of_ok hchecked]
          let s := scan chain interval input tokens prev hour
          show ∃ reply w, Act.from (do
              let signals ← attempt (detect o.scorer s.prev s.curr s.risks)
              forM (turns s input.times) (processToken bus o s signals)
              save chain interval s.curr input.saved
              publish bus ⟨.chainScanCompleted chain interval
                ((input.finishedAt - s.scannedAt) * 1000) tokens.length signals.length, rfl⟩) w₂ =
            (reply, w) ∧ _
          cases hd : detect o.scorer s.prev s.curr s.risks with
          | error e =>
            refine ⟨_, w₂, rfl, ?_⟩
            simp only [s] at hd
            simpa [hd, hshown₂.cooldown] using hstart
          | ok signals =>
            obtain ⟨reply, w, hfinish, hshown₃⟩ := finish_shown bus o s signals input chain interval
              ⟨.chainScanCompleted chain interval ((input.finishedAt - s.scannedAt) * 1000)
                tokens.length signals.length, rfl⟩ w₂
            refine ⟨reply, w, hfinish, ?_⟩
            have hdone := hstart.trans hshown₃
            rw [hshown₂.cooldown] at hdone
            simp only [s] at hd
            simpa [hd] using hdone

theorem forM_runChain_shown (bus : Bus σ ε) (o : ScannerOrchestrator) (interval : Interval)
    (scans : List (String × ScanInput)) (v : World σ) :
    let r := runJobs o v.1.cooldown (scans.map fun scan => ⟨scan.1, interval, scan.2⟩)
    ∃ w, Act.from (forM scans fun scan =>
        tryCatch (runChain bus o scan.1 interval scan.2) fun _ => pure ()) v = (.ok (), w) ∧
      Shown v w r.1 r.2 := by
  induction scans generalizing v with
  | nil => exact ⟨v, rfl, Shown.refl v⟩
  | cons scan scans ih =>
    obtain ⟨reply, mid, hchain, hfirst⟩ := runChain_shown bus o scan.1 interval scan.2 v
    have hcaught : Act.from (tryCatch (runChain bus o scan.1 interval scan.2) fun _ => pure ()) v =
        (.ok (), mid) := by
      cases reply with
      | ok value => exact from_tryCatch_of_ok hchain
      | error e => exact from_tryCatch_of_error hchain
    obtain ⟨w, hrest, hlater⟩ := ih mid
    rw [hfirst.cooldown] at hlater
    refine ⟨w, ?_, hfirst.trans hlater⟩
    rw [List.forM_cons, from_bind_of_ok hcaught]
    exact hrest

theorem jobs_eq_map (o : ScannerOrchestrator) (interval : Interval) (inputs : ℕ → ScanInput) :
    jobs o interval inputs = (o.chains.mapIdx fun i chain => (chain, inputs i)).map fun scan =>
      ⟨scan.1, interval, scan.2⟩ := by
  apply List.ext_getElem
  · simp [jobs]
  · intro i h₁ h₂
    simp [jobs]

theorem round_shown (bus : Bus σ ε) (o : ScannerOrchestrator) (interval : Interval)
    (inputs : ℕ → ScanInput) (v : World σ) :
    let r := runJobs o v.1.cooldown (jobs o interval inputs)
    ∃ w, (runRound bus o interval inputs).from v = (.ok (), w) ∧ Shown v w r.1 r.2 := by
  rw [jobs_eq_map]
  exact forM_runChain_shown bus o interval _ v

/-- From `v` to `w` the scanner has come to the state and has put out the outputs. -/
structure Came (v w : World σ) (r : State × List Output) : Prop where
  last1hRun : w.1.last1hRun = r.1.last1hRun
  cooldown : w.1.cooldown = r.1.cooldown
  outputs : outputs w.1.effects = outputs v.1.effects ++ r.2

theorem runCycle_came (bus : Bus σ ε) (o : ScannerOrchestrator) (c : CycleInput) (v : World σ) :
    ∃ w, (runCycle bus o c).from v = (.ok (), w) ∧
      Came v w (Orchestrator.runCycle o ⟨v.1.last1hRun, v.1.cooldown⟩ c) := by
  obtain ⟨mid, hminute, hfirst⟩ := round_shown bus o .oneMinute c.oneMinute v
  have hscanner : (scanner : Live σ ε Scanner).from mid = (.ok mid.1, mid) := rfl
  unfold runCycle
  rw [from_bind_of_ok hminute, from_bind_of_ok hscanner, hfirst.last1hRun]
  by_cases hdue : hourDue o v.1.last1hRun c.now
  · have hcycle : Orchestrator.runCycle o ⟨v.1.last1hRun, v.1.cooldown⟩ c = _ := if_pos hdue
    obtain ⟨w, hhour, hlater⟩ := round_shown bus o .oneHour c.oneHour
      (({ mid.1 with last1hRun := c.now }, mid.2) : World σ)
    simp only [hfirst.cooldown] at hlater
    rw [hcycle, if_pos hdue]
    refine ⟨w, hhour, hlater.last1hRun, hlater.cooldown, ?_⟩
    rw [hlater.outputs, hfirst.outputs, List.append_assoc]
  · have hcycle : Orchestrator.runCycle o ⟨v.1.last1hRun, v.1.cooldown⟩ c = _ := if_neg hdue
    rw [hcycle, if_neg hdue]
    exact ⟨mid, rfl, hfirst.last1hRun, hfirst.cooldown, hfirst.outputs⟩

/-- The cycles with any handlers put out what the cycles put out that know of no handlers, and leave
the same state. -/
theorem runCycles_came (bus : Bus σ ε) (o : ScannerOrchestrator) (cs : List CycleInput)
    (v : World σ) :
    ∃ w, (runCycles bus o cs).from v = (.ok (), w) ∧
      Came v w (Orchestrator.runCycles o ⟨v.1.last1hRun, v.1.cooldown⟩ cs) := by
  induction cs generalizing v with
  | nil => exact ⟨v, rfl, rfl, rfl, (List.append_nil _).symm⟩
  | cons c cs ih =>
    obtain ⟨mid, hcycle, hfirst⟩ := runCycle_came bus o c v
    obtain ⟨w, hrest, hlater⟩ := ih mid
    rw [hfirst.last1hRun, hfirst.cooldown] at hlater
    refine ⟨w, ?_, hlater.last1hRun, hlater.cooldown, ?_⟩
    · unfold runCycles
      rw [List.forM_cons, from_bind_of_ok hcycle]
      exact hrest
    · rw [hlater.outputs, hfirst.outputs, List.append_assoc]
      rfl

/-- Handlers, whatever they do and raise, leave the cycles as they are without any: how they end,
the alerts, the marks, the snapshots and the events, and the scanner itself. And each handler has
received the published events of its type, each once and in order. -/
theorem runCycles_unobserved (bus : Bus σ ε) (o : ScannerOrchestrator) (last1hRun : ℚ)
    (m : CooldownManager) (x : σ) (cs : List CycleInput) :
    let start : World σ := (⟨last1hRun, m, []⟩, ⟨x, []⟩)
    let seen := (runCycles bus o cs).from start
    let unseen := (runCycles EventBus.init o cs).from start
    seen.1 = unseen.1 ∧ seen.2.1 = unseen.2.1 ∧
      ∀ t i, i < (bus.handlersOf t).length →
        received t i seen.2.2.calls = published t seen.2.1.effects := by
  intro start
  have hstart : Watched bus start start := ⟨rfl, fun _ _ _ => rfl⟩
  obtain ⟨hend, hwatched⟩ := Alike.forM (alike_runCycle o) cs start start hstart
  exact ⟨hend, hwatched.scanner, hwatched.received⟩

end ChainMonitor.Observers
