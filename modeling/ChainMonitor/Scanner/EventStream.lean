import ChainMonitor.Scanner.Observers

/-! What the scanner publishes over a run in which anything may fail, the alerts included: one scan
after the other, in the order of the schedule, each from its `TrendingFetched` on. -/

namespace ChainMonitor.Observers

open ProofKit Detector Cooldown EventBus
open Orchestrator hiding runChain runCycle runCycles processToken

variable {σ ε α : Type} {bus : Bus σ ε}

/-- What is published, in order. -/
def events (effects : List Effect) : List Event := effects.filterMap Effect.event?

/-- From `v` to `w` the scanner has published the events, and the handlers have been told. -/
structure Told (bus : Bus σ ε) (v w : World σ) (es : List Event) : Prop where
  events : events w.1.effects = events v.1.effects ++ es
  state : w.2.state = es.foldl (fun state event => bus.react Event.type event state) v.2.state

section Told

variable {u v w : World σ} {es more : List Event}

theorem Told.refl (v : World σ) : Told bus v v [] := ⟨(List.append_nil _).symm, rfl⟩

theorem Told.trans (h : Told bus u v es) (h' : Told bus v w more) : Told bus u w (es ++ more) :=
  ⟨by rw [h'.events, h.events, List.append_assoc], by rw [h'.state, h.state, List.foldl_append]⟩

/-- What the scanner does by itself tells the handlers nothing. -/
theorem told_of_eq (hevents : events w.1.effects = events v.1.effects)
    (hstate : w.2.state = v.2.state) : Told bus v w [] :=
  ⟨by rw [hevents, List.append_nil], hstate⟩

theorem events_record {effect : Effect} (h : effect.event? = none) (effects : List Effect) :
    events (effects ++ [effect]) = events effects := by
  simp [events, h]

/-- What a scan does. It leaves the time of the last scans of the hour. -/
structure Scans (bus : Bus σ ε) (v w : World σ) (es : List Event) : Prop extends
    Told bus v w es where
  last1hRun : w.1.last1hRun = v.1.last1hRun

theorem Scans.refl (v : World σ) : Scans bus v v [] := ⟨Told.refl v, rfl⟩

theorem Scans.trans (h : Scans bus u v es) (h' : Scans bus v w more) :
    Scans bus u w (es ++ more) :=
  ⟨h.toTold.trans h'.toTold, h'.last1hRun.trans h.last1hRun⟩

theorem publish_scans (bus : Bus σ ε) (event : Event) (v : World σ) :
    ∃ w, (publish bus event).from v = (.ok (), w) ∧ Scans bus v w [event] := by
  obtain ⟨observers, hpublish, -⟩ := publish_from bus event v
  have hstate := publish_state Event.type bus event v.2
  have hnotified : observers = ((bus.publish Event.type event).from v.2).2 :=
    (congrArg (fun r => r.2.2) hpublish).symm
  refine ⟨_, hpublish, ⟨?_, ?_⟩, rfl⟩
  · have hevent : Effect.event? (.output event.output) = some event := dif_pos event.isEvent
    simp [Observers.events, hevent]
  · rw [hnotified, hstate]
    rfl

end Told

/-! ### One scan -/

def fetchedEvent (job : Job) (tokens : List TrendingToken) : Event :=
  ⟨.trendingFetched job.chain job.interval tokens.length
    ((job.input.fetchedAt - job.input.startedAt) * 1000) (tokens ≠ []), rfl⟩

/-- The event of a security check that returned. -/
def checkedEvent (job : Job) (task : String × String) (risk : Option TokenRisk) : Event :=
  ⟨.tokenSecurityChecked job.chain task.1 task.2
    (((job.input.security task.1).finishedAt - (job.input.security task.1).startedAt) * 1000)
    risk.isSome, rfl⟩

def checkedEvent? (job : Job) (task : String × String) : Option Event :=
  match (job.input.security task.1).result with
  | .raised => none
  | .returned risk => some (checkedEvent job task risk)

def rowEvent (row : TokenProcessed) : Event := ⟨.tokenProcessed row, rfl⟩

def completedEvent (job : Job) (durationMs : ℚ) (tokens signals : ℕ) : Event :=
  ⟨.chainScanCompleted job.chain job.interval durationMs tokens signals, rfl⟩

/-- The row is that of the token. -/
structure RowOf (job : Job) (token : TrendingToken) (row : TokenProcessed) : Prop where
  chain : row.chain = job.chain
  interval : row.interval = job.interval
  address : row.address = token.address
  symbol : row.symbol = token.symbol

/-- What a scan may publish. A fetch that raises, or gives no list, leaves it silent. Otherwise it
reports the fetch,
then the security checks that returned, or none of them if it stops before them, then the rows of
the first tokens, and that it has completed just when each token has its row and the snapshot is
saved. -/
inductive Scanned (job : Job) : List Event → Prop
  | raised (hf : job.input.fetched = .raised) : Scanned job []
  | missing (hf : job.input.fetched = .returned none) : Scanned job []
  | fetched {tokens : List TrendingToken} {checks : List Event} {rows : List TokenProcessed}
      {completed : Option (ℚ × ℕ)} (hf : job.input.fetched = .returned (some tokens))
      (hchecks : checks = [] ∧ rows = [] ∨
        checks = (securityTasks [] tokens).filterMap (checkedEvent? job))
      (hrows : List.Forall₂ (RowOf job) (tokens.take rows.length) rows)
      (hcompleted : completed.isSome ↔
        tokens ≠ [] ∧ rows.length = tokens.length ∧ job.input.saved = true) :
    Scanned job (fetchedEvent job tokens :: checks ++ rows.map rowEvent ++
      (completed.map fun c => completedEvent job c.1 tokens.length c.2).toList)

variable {job : Job}

theorem checkSecurity_scans (bus : Bus σ ε) (job : Job) (found : ℚ × Dict String TokenRisk)
    (task : String × String) (v : World σ) :
    ∃ found' w, (checkSecurity bus job.chain job.input.security found task).from v =
        (.ok found', w) ∧ Scans bus v w (checkedEvent? job task).toList := by
  cases hr : (job.input.security task.1).result with
  | raised =>
    simp only [checkSecurity, checkedEvent?, hr, await]
    exact ⟨_, v, rfl, Scans.refl v⟩
  | returned risk =>
    obtain ⟨w, hpublish, hscans⟩ := publish_scans bus (checkedEvent job task risk) v
    have hbody : Act.from (do
        publish bus (checkedEvent job task risk)
        pure (found.2.setSome task.1 risk)) v = (.ok (found.2.setSome task.1 risk), w) :=
      from_bind_of_ok hpublish
    refine ⟨((job.input.security task.1).startedAt, found.2.setSome task.1 risk), w, ?_,
      by simpa [checkedEvent?, hr] using hscans⟩
    simp only [checkSecurity, hr, await, pure_bind]
    exact from_bind_of_ok (from_tryCatch_of_ok hbody)

theorem foldlM_checkSecurity_scans (bus : Bus σ ε) (job : Job)
    (tasks : List (String × String)) (found : ℚ × Dict String TokenRisk) (v : World σ) :
    ∃ found' w, (tasks.foldlM (checkSecurity bus job.chain job.input.security) found).from v =
        (.ok found', w) ∧ Scans bus v w (tasks.filterMap (checkedEvent? job)) := by
  induction tasks generalizing found v with
  | nil => exact ⟨found, v, rfl, Scans.refl v⟩
  | cons task tasks ih =>
    obtain ⟨next, mid, hfirst, hscans⟩ := checkSecurity_scans bus job found task v
    obtain ⟨found', w, hrest, hmore⟩ := ih next mid
    refine ⟨found', w, ?_, ?_⟩
    · rw [List.foldlM_cons, from_bind_of_ok hfirst]
      exact hrest
    · have hevents : (task :: tasks).filterMap (checkedEvent? job) =
          (checkedEvent? job task).toList ++ tasks.filterMap (checkedEvent? job) := by
        rw [List.filterMap_cons]
        cases checkedEvent? job task <;> rfl
      rw [hevents]
      exact hscans.trans hmore

/-- A turn of the loop publishes the row of its token, or raises. -/
theorem processToken_scans (bus : Bus σ ε) (o : ScannerOrchestrator) {s : Scan}
    (hchain : s.chain = job.chain) (hinterval : s.interval = job.interval)
    (signals : List AlphaSignal) (turn : TrendingToken × TokenTimes) (v : World σ) :
    ∃ reply w, (processToken bus o s signals turn).from v = (reply, w) ∧
      ((reply = .ok () ∧ ∃ row, RowOf job turn.1 row ∧ Scans bus v w [rowEvent row]) ∨
        reply.isOk = false ∧ Scans bus v w []) := by
  obtain ⟨token, times⟩ := turn
  have hpublish : ∀ (row : TokenProcessed) (u : World σ), RowOf job token row →
      Scans bus v u [] → ∃ reply w, (publish bus (rowEvent row)).from u = (reply, w) ∧
        ((reply = .ok () ∧ ∃ row, RowOf job token row ∧ Scans bus v w [rowEvent row]) ∨
          reply.isOk = false ∧ Scans bus v w []) := by
    intro row u hrow hu
    obtain ⟨w, hfrom, hscans⟩ := publish_scans bus (rowEvent row) u
    exact ⟨_, w, hfrom, .inl ⟨rfl, row, hrow, hu.trans hscans⟩⟩
  cases hs : ownScore o s token with
  | error e =>
    simp only [processToken, hs, attempt]
    exact ⟨_, v, rfl, .inr ⟨rfl, Scans.refl v⟩⟩
  | ok scored =>
    simp only [processToken, hs, attempt, pure_bind]
    have hquiet : RowOf job token (quietRow o s token scored) := ⟨hchain, hinterval, rfl, rfl⟩
    cases (signalMap signals).get? token.address with
    | none => exact hpublish _ v hquiet (Scans.refl v)
    | some sig =>
      have hscanner : (scanner : Live σ ε Scanner).from v = (.ok v.1, v) := rfl
      simp only [from_bind_of_ok hscanner]
      by_cases hcool : isCooling times.checked v.1.cooldown token.address
      · simp only [hcool, if_true]
        exact hpublish { quietRow o s token scored with cooldownSkipped := true } v
          ⟨hchain, hinterval, rfl, rfl⟩ (Scans.refl v)
      · simp only [if_neg hcool]
        cases decayed (quietRow o s token scored).scoreTotal
            (decayFactor v.1.cooldown token.address) with
        | error e => exact ⟨_, v, rfl, .inr ⟨rfl, Scans.refl v⟩⟩
        | ok total =>
          cases times.alerted with
          | raised =>
            -- The call is made, but there is neither a mark nor a row.
            refine ⟨_, _, rfl, .inr ⟨rfl, told_of_eq (events_record rfl _) rfl, rfl⟩⟩
          | returned value =>
            refine hpublish { quietRow o s token scored with
                signalEmitted := true, signalLevel := some sig.level, scoreTotal := total }
              ({ v.1 with
                cooldown := mark o.cooldown times.marked token.address sig.level v.1.cooldown
                effects := v.1.effects ++ [.called sig times.sent] ++
                  [.output (.alert sig times.sent)] ++
                  [.marked token.address sig.level times.marked] }, v.2)
              ⟨hchain, hinterval, rfl, rfl⟩ ⟨told_of_eq ?_ rfl, rfl⟩
            exact (events_record rfl _).trans
              ((events_record rfl _).trans (events_record rfl _))

/-- The loop publishes the rows of the first tokens, and ends when each has its row. -/
theorem processTokens_scans (bus : Bus σ ε) (o : ScannerOrchestrator) {s : Scan}
    (hchain : s.chain = job.chain) (hinterval : s.interval = job.interval)
    (signals : List AlphaSignal) (ts : List (TrendingToken × TokenTimes)) (v : World σ) :
    ∃ reply w rows, Act.from (forM ts (processToken bus o s signals)) v = (reply, w) ∧
      Scans bus v w (rows.map rowEvent) ∧
      List.Forall₂ (fun turn row => RowOf job turn.1 row) (ts.take rows.length) rows ∧
      (reply.isOk ↔ rows.length = ts.length) :=
  forM_adds Scans.refl Scans.trans (processToken_scans bus o hchain hinterval signals) ts v

/-- The tokens of the loop are those of the list, as far as their rows go. -/
theorem forall₂_rowOf_iff (s : Scan) (input : ScanInput) {hour : Option Snapshot}
    {tokens : List TrendingToken} (hcurr : s.curr.tokens = flagged hour tokens)
    {rows : List TokenProcessed} :
    List.Forall₂ (fun turn row => RowOf job turn.1 row)
        ((turns s input.times).take rows.length) rows ↔
      List.Forall₂ (RowOf job) (tokens.take rows.length) rows := by
  have hturns : List.Forall₂ (fun turn row => RowOf job turn.1 row)
        ((turns s input.times).take rows.length) rows ↔
      List.Forall₂ (RowOf job) ((flagged hour tokens).take rows.length) rows := by
    rw [← hcurr, ← map_fst_turns s input.times, ← List.map_take, List.forall₂_map_left_iff]
  obtain ⟨f, hf, hsame⟩ := flagged_eq_map hour tokens
  have hrow : ∀ (t : TrendingToken) (row : TokenProcessed), RowOf job (f t) row ↔ RowOf job t row :=
    fun t row => ⟨fun h => ⟨h.chain, h.interval, h.address.trans (hsame t).1,
      h.symbol.trans (hsame t).2⟩, fun h => ⟨h.chain, h.interval,
      h.address.trans (hsame t).1.symm, h.symbol.trans (hsame t).2.symm⟩⟩
  rw [hturns, hf, ← List.map_take, List.forall₂_map_left_iff]
  simp only [hrow]

theorem length_flagged (hour : Option Snapshot) (tokens : List TrendingToken) :
    (flagged hour tokens).length = tokens.length := by
  obtain ⟨f, hf, -⟩ := flagged_eq_map hour tokens
  rw [hf, List.length_map]

/-- A scan that stops before its loop. -/
theorem scanned_of_stop {tokens : List TrendingToken} {checks : List Event}
    (hf : job.input.fetched = .returned (some tokens))
    (hchecks : checks = [] ∨ checks = (securityTasks [] tokens).filterMap (checkedEvent? job)) :
    Scanned job (fetchedEvent job tokens :: checks) := by
  have hnone : (none : Option (ℚ × ℕ)).isSome ↔
      tokens ≠ [] ∧ ([] : List TokenProcessed).length = tokens.length ∧ job.input.saved = true := by
    cases tokens with
    | nil => simp
    | cons token tokens => simp
  have hscanned := Scanned.fetched hf (hchecks.imp_left fun h => ⟨h, rfl⟩) .nil hnone
  simpa using hscanned

theorem save_scans (bus : Bus σ ε) (chain : String) (interval : Interval) (snapshot : Snapshot)
    (saved : Bool) (v : World σ) :
    ∃ w, (save chain interval snapshot saved : Live σ ε Unit).from v =
        (if saved then .ok () else .error .collaborator, w) ∧ Scans bus v w [] := by
  refine ⟨({ v.1 with effects := v.1.effects ++ [.saved chain interval snapshot] }, v.2), ?_,
    told_of_eq (events_record rfl _) rfl, rfl⟩
  unfold save
  cases saved with
  | true => rfl
  | false => rfl

/-- The loop over the tokens, the save and the last event. -/
theorem finish_scans (bus : Bus σ ε) (o : ScannerOrchestrator) {s : Scan}
    (hchain : s.chain = job.chain) (hinterval : s.interval = job.interval)
    {hour : Option Snapshot} {tokens : List TrendingToken}
    (hcurr : s.curr.tokens = flagged hour tokens) (hne : tokens ≠ [])
    (signals : List AlphaSignal) (durationMs : ℚ) (v : World σ) :
    ∃ reply w rows, ∃ completed : Option (ℚ × ℕ), Act.from (do
        forM (turns s job.input.times) (processToken bus o s signals)
        save job.chain job.interval s.curr job.input.saved
        publish bus (completedEvent job durationMs tokens.length signals.length)) v = (reply, w) ∧
      Scans bus v w (rows.map rowEvent ++
        (completed.map fun c => completedEvent job c.1 tokens.length c.2).toList) ∧
      List.Forall₂ (RowOf job) (tokens.take rows.length) rows ∧
      (completed.isSome ↔ tokens ≠ [] ∧ rows.length = tokens.length ∧ job.input.saved = true) := by
  obtain ⟨reply, w, rows, hloop, hscans, hall, hwhole⟩ :=
    processTokens_scans bus o hchain hinterval signals (turns s job.input.times) v
  have hrows := (forall₂_rowOf_iff s job.input hcurr).mp hall
  have hlength : (turns s job.input.times).length = tokens.length := by
    rw [turns, List.length_mapIdx, hcurr, length_flagged]
  rw [hlength] at hwhole
  cases reply with
  | error e =>
    have hpart : rows.length ≠ tokens.length := fun h => Bool.false_ne_true (hwhole.mpr h)
    exact ⟨.error e, w, rows, none, from_bind_of_error hloop, by simpa using hscans, hrows,
      by simp [hpart]⟩
  | ok value =>
    have hall : rows.length = tokens.length := hwhole.mp rfl
    obtain ⟨u, hsave, hsaved⟩ :=
      save_scans bus job.chain job.interval s.curr job.input.saved w
    cases hs : job.input.saved with
    | false =>
      rw [hs, if_neg Bool.false_ne_true] at hsave
      exact ⟨_, u, rows, none, (from_bind_of_ok hloop).trans (from_bind_of_error hsave),
        by simpa using hscans.trans hsaved, hrows, by simp⟩
    | true =>
      rw [hs, if_pos rfl] at hsave
      obtain ⟨w', hpublish, hlast⟩ := publish_scans bus
        (completedEvent job durationMs tokens.length signals.length) u
      refine ⟨.ok (), w', rows, some (durationMs, signals.length), ?_, ?_, hrows,
        by simp [hall, hne]⟩
      · rw [from_bind_of_ok hloop, from_bind_of_ok hsave]
        exact hpublish
      · simpa using (hscans.trans hsaved).trans hlast

/-- Whatever fails in a scan, it publishes what a scan may publish. -/
theorem runChain_scans (bus : Bus σ ε) (o : ScannerOrchestrator) (job : Job) (v : World σ) :
    ∃ reply w es, (runChain bus o job.chain job.interval job.input).from v = (reply, w) ∧
      Scans bus v w es ∧ Scanned job es := by
  unfold runChain
  cases hf : job.input.fetched with
  | raised => exact ⟨_, v, [], rfl, Scans.refl v, .raised hf⟩
  | returned fetched =>
    cases fetched with
    | none => exact ⟨_, v, [], rfl, Scans.refl v, .missing hf⟩
    | some tokens =>
      obtain ⟨w₁, hfetched, hscans₁⟩ := publish_scans bus (fetchedEvent job tokens) v
      simp only [await_returned, pure_bind, ← fetchedEvent.eq_def]
      rw [from_bind_of_ok hfetched]
      by_cases hne : tokens = []
      · rw [if_pos hne]
        exact ⟨_, w₁, _, rfl, hscans₁, scanned_of_stop hf (.inl rfl)⟩
      rw [if_neg hne, loads_from]
      cases load job.interval job.input with
      | none => exact ⟨_, w₁, _, rfl, hscans₁, scanned_of_stop hf (.inl rfl)⟩
      | some loaded =>
        obtain ⟨prev, hour⟩ := loaded
        obtain ⟨⟨t0, risks⟩, w₂, hchecked, hscans₂⟩ := foldlM_checkSecurity_scans bus job
          (securityTasks [] tokens) (job.input.startedAt, Dict.empty) w₁
        have hstart := hscans₁.trans hscans₂
        let s : Scan := ⟨job.chain, job.interval, t0, prev,
          ⟨job.chain, job.interval, flagged hour tokens, job.input.takenAt⟩, risks⟩
        simp only [from_bind_of_ok hchecked]
        cases detect o.scorer s.prev s.curr s.risks with
        | error e => exact ⟨_, w₂, _, rfl, hstart, scanned_of_stop hf (.inr rfl)⟩
        | ok signals =>
          obtain ⟨reply, w, rows, completed, hfrom, hscans₃, hrows, hcompleted⟩ :=
            finish_scans bus o (s := s) rfl rfl rfl hne signals
              ((job.input.finishedAt - t0) * 1000) w₂
          refine ⟨reply, w, _, hfrom, hstart.trans hscans₃, ?_⟩
          have hscanned := Scanned.fetched hf (.inr rfl) hrows hcompleted
          simpa using hscanned

/-! ### Runs -/

theorem runRound_scans (bus : Bus σ ε) (o : ScannerOrchestrator) (interval : Interval)
    (inputs : ℕ → ScanInput) (v : World σ) :
    ∃ w streams, (runRound bus o interval inputs).from v = (.ok (), w) ∧
      Scans bus v w streams.flatten ∧
      List.Forall₂ Scanned (jobs o interval inputs) streams := by
  have hjobs : (o.chains.mapIdx fun i chain => (chain, inputs i)) =
      (jobs o interval inputs).map fun job => (job.chain, job.input) := by
    apply List.ext_getElem
    · simp [jobs]
    · intro i h₁ h₂
      simp [jobs]
  have hinterval : ∀ job ∈ jobs o interval inputs, job.interval = interval := by
    intro job hjob
    obtain ⟨i, hi, rfl⟩ := List.mem_mapIdx.mp hjob
    rfl
  unfold runRound
  rw [hjobs]
  generalize jobs o interval inputs = jobs at hinterval
  clear hjobs
  induction jobs generalizing v with
  | nil => exact ⟨v, [], rfl, Scans.refl v, .nil⟩
  | cons job jobs ih =>
    obtain ⟨hfirst, hrest⟩ := List.forall_mem_cons.mp hinterval
    obtain ⟨reply, mid, es, hchain, hscans, hscanned⟩ := runChain_scans bus o job v
    rw [hfirst] at hchain
    have hcaught : Act.from (tryCatch (runChain bus o job.chain interval job.input)
        fun _ => pure ()) v = (.ok (), mid) := by
      cases reply with
      | ok value => exact from_tryCatch_of_ok hchain
      | error e => exact from_tryCatch_of_error hchain
    obtain ⟨w, streams, hround, hmore, hall⟩ := ih mid hrest
    refine ⟨w, es :: streams, ?_, hscans.trans hmore, .cons hscanned hall⟩
    rw [List.map_cons, List.forM_cons, from_bind_of_ok hcaught]
    exact hround

theorem runCycle_told (bus : Bus σ ε) (o : ScannerOrchestrator) (c : CycleInput) (v : World σ) :
    ∃ w streams, (runCycle bus o c).from v = (.ok (), w) ∧ Told bus v w streams.flatten ∧
      w.1.last1hRun = (if hourDue o v.1.last1hRun c.now then c.now else v.1.last1hRun) ∧
      List.Forall₂ Scanned (jobs o .oneMinute c.oneMinute ++
        if hourDue o v.1.last1hRun c.now then jobs o .oneHour c.oneHour else []) streams := by
  obtain ⟨mid, minute, hminute, hscans, hall⟩ := runRound_scans bus o .oneMinute c.oneMinute v
  have hscanner : (scanner : Live σ ε Scanner).from mid = (.ok mid.1, mid) := rfl
  unfold runCycle
  rw [from_bind_of_ok hminute, from_bind_of_ok hscanner, hscans.last1hRun]
  by_cases hdue : hourDue o v.1.last1hRun c.now
  · obtain ⟨w, hour, hhour, hscans', hall'⟩ := runRound_scans bus o .oneHour c.oneHour
      (({ mid.1 with last1hRun := c.now }, mid.2) : World σ)
    simp only [if_pos hdue]
    refine ⟨w, minute ++ hour, hhour, ?_, hscans'.last1hRun, List.rel_append hall hall'⟩
    have hstep : Told bus mid (({ mid.1 with last1hRun := c.now }, mid.2) : World σ) [] :=
      told_of_eq rfl rfl
    rw [List.flatten_append]
    exact hscans.toTold.trans (hstep.trans hscans'.toTold)
  · simp only [if_neg hdue, List.append_nil]
    exact ⟨mid, minute, rfl, hscans.toTold, hscans.last1hRun, hall⟩

/-- The cycles end, the handlers have been told what has been published, and that is what the scans
of the schedule may publish. -/
theorem runCycles_told (bus : Bus σ ε) (o : ScannerOrchestrator) (cs : List CycleInput)
    (v : World σ) :
    ∃ w streams, (runCycles bus o cs).from v = (.ok (), w) ∧ Told bus v w streams.flatten ∧
      List.Forall₂ Scanned (schedule o v.1.last1hRun cs) streams := by
  induction cs generalizing v with
  | nil => exact ⟨v, [], rfl, Told.refl v, .nil⟩
  | cons c cs ih =>
    obtain ⟨mid, now, hcycle, htold, hlast, hall⟩ := runCycle_told bus o c v
    obtain ⟨w, later, hrest, hmore, hall'⟩ := ih mid
    refine ⟨w, now ++ later, ?_, ?_, ?_⟩
    · unfold runCycles
      rw [List.forM_cons, from_bind_of_ok hcycle]
      exact hrest
    · rw [List.flatten_append]
      exact htold.trans hmore
    · have hboth := List.rel_append hall hall'
      rw [hlast] at hboth
      rw [schedule]
      by_cases hdue : hourDue o v.1.last1hRun c.now
      · simpa [hdue] using hboth
      · simpa [hdue] using hboth

/-- Whatever fails in the cycles and in the handlers, what a run publishes is what the scans of its
schedule may publish, one scan after the other. -/
theorem runCycles_stream (bus : Bus σ ε) (o : ScannerOrchestrator) (last1hRun : ℚ)
    (m : CooldownManager) (x : σ) (cs : List CycleInput) :
    let w := ((runCycles bus o cs).from (⟨last1hRun, m, []⟩, ⟨x, []⟩)).2
    ∃ streams, events w.1.effects = streams.flatten ∧
      List.Forall₂ Scanned (schedule o last1hRun cs) streams := by
  obtain ⟨w, streams, hrun, htold, hall⟩ := runCycles_told bus o cs (⟨last1hRun, m, []⟩, ⟨x, []⟩)
  rw [hrun]
  exact ⟨streams, htold.events, hall⟩

end ChainMonitor.Observers
