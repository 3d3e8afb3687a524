import ChainMonitor.Scanner.Runs

/-! The alerts of a run of the scanner, each with the row that is published of its token, and the
rule that carries a property of these from the turns of the loops to whole runs. -/

namespace ChainMonitor.Orchestrator

open ProofKit Detector Cooldown

/-- Each alert of a log, with the `TokenProcessed` that is published next. -/
def alertRows : List Output → List (AlphaSignal × Option TokenProcessed)
  | [] => []
  | out :: rest => (out.alert?.map fun a => (a.1, (rows rest).head?)).toList ++ alertRows rest

/-- The alert and the row of a turn. -/
def Turn.alertRow (turn : Turn) : List (AlphaSignal × Option TokenProcessed) :=
  (turn.alert.map fun a => (a.1, some turn.row)).toList

/-- The alert and the row of one turn of the loop. -/
def turnAlertRow (o : ScannerOrchestrator) (s : Scan) (signals : List AlphaSignal)
    (m : CooldownManager) (turn : TrendingToken × TokenTimes) :
    List (AlphaSignal × Option TokenProcessed) :=
  match processToken o s signals m turn.1 turn.2 with
  | .ok turn => turn.alertRow
  | .error _ => []

/-- One scan, for what it leaves of the cooldown. -/
def jobStep (o : ScannerOrchestrator) (m : CooldownManager) (job : Job) : Option CooldownManager :=
  some (runChain o job.chain job.interval job.input m).1

def jobAlertRows (o : ScannerOrchestrator) (m : CooldownManager) (job : Job) :
    List (AlphaSignal × Option TokenProcessed) :=
  alertRows (runChain o job.chain job.interval job.input m).2

variable {o : ScannerOrchestrator} {s : Scan} {signals : List AlphaSignal} {m : CooldownManager}

/-! ### The alerts of a loop -/

theorem alertRows_append_of_quiet {log : List Output} (h : alerts log = []) (rest : List Output) :
    alertRows (log ++ rest) = alertRows rest := by
  induction log with
  | nil => rfl
  | cons out log ih =>
    obtain ⟨hout, hlog⟩ : out.alert? = none ∧ alerts log = [] := by
      have hall := List.filterMap_eq_nil_iff.mp h
      exact ⟨hall out List.mem_cons_self,
        List.filterMap_eq_nil_iff.mpr fun x hx => hall x (List.mem_cons_of_mem out hx)⟩
    rw [List.cons_append, alertRows, hout, ih hlog]
    rfl

theorem alertRows_of_quiet {log : List Output} (h : alerts log = []) : alertRows log = [] := by
  rw [← List.append_nil log, alertRows_append_of_quiet h]
  rfl

theorem alertRows_outputs (turn : Turn) (rest : List Output) :
    alertRows (turn.outputs ++ rest) = turn.alertRow ++ alertRows rest := by
  obtain ⟨m, alert, row⟩ := turn
  cases alert with
  | none => rfl
  | some a => rfl

theorem turnStep_of_ok {turn : TrendingToken × TokenTimes} {done : Turn}
    (h : processToken o s signals m turn.1 turn.2 = .ok done) :
    turnStep o s signals m turn = some done.cooldown := by
  rw [turnStep, h]
  rfl

theorem turnStep_of_error {turn : TrendingToken × TokenTimes} {e : PyError}
    (h : processToken o s signals m turn.1 turn.2 = .error e) :
    turnStep o s signals m turn = none := by
  rw [turnStep, h]
  rfl

theorem turnAlertRow_of_ok {turn : TrendingToken × TokenTimes} {done : Turn}
    (h : processToken o s signals m turn.1 turn.2 = .ok done) :
    turnAlertRow o s signals m turn = done.alertRow := by
  rw [turnAlertRow, h]

/-- A loop emits the alerts of its turns. -/
theorem alertRows_processTokens (ts : List (TrendingToken × TokenTimes)) (rest : List Output) :
    alertRows ((processTokens o s signals m ts).outputs ++ rest) =
      emitted (turnStep o s signals) (turnAlertRow o s signals) m ts ++ alertRows rest := by
  induction ts generalizing m with
  | nil => rfl
  | cons t ts ih =>
    cases hturn : processToken o s signals m t.1 t.2 with
    | error e =>
      rw [processTokens_of_error hturn, emitted, turnStep_of_error hturn, turnAlertRow, hturn]
      rfl
    | ok turn =>
      rw [processTokens_of_ok hturn, emitted, turnStep_of_ok hturn, turnAlertRow_of_ok hturn]
      simp only [List.append_assoc, Option.map_some, Option.getD_some]
      rw [alertRows_outputs, ih]

theorem cooldown_processTokens (ts : List (TrendingToken × TokenTimes)) :
    (processTokens o s signals m ts).cooldown = reached (turnStep o s signals) m ts := by
  induction ts generalizing m with
  | nil => rfl
  | cons t ts ih =>
    cases hturn : processToken o s signals m t.1 t.2 with
    | error e =>
      rw [processTokens_of_error hturn, reached, turnStep_of_error hturn]
      rfl
    | ok turn =>
      rw [processTokens_of_ok hturn, reached, turnStep_of_ok hturn]
      exact ih

/-! ### The row of an alert -/

/-- The loop sends `sig` in this turn. -/
def Alerts (signals : List AlphaSignal) (m : CooldownManager) (turn : TrendingToken × TokenTimes)
    (sig : AlphaSignal) : Prop :=
  (signalMap signals).get? turn.1.address = some sig ∧
    isCooling turn.2.checked m turn.1.address = false ∧ turn.2.alerted = .returned ()

/-- A turn sends nothing; or it sends an alert, marks its address, and publishes the row of the
token with its own score after the decay. -/
theorem turnAlertRow_cases (h : detect o.scorer s.prev s.curr s.risks = .ok signals)
    {turn : TrendingToken × TokenTimes} (ht : turn.1 ∈ s.curr.tokens) (m : CooldownManager) :
    (∀ sig, ¬Alerts signals m turn sig) ∧ turnAlertRow o s signals m turn = [] ∨
    ∃ sig row scored, Alerts signals m turn sig ∧
      turnAlertRow o s signals m turn = [(sig, some row)] ∧ ownScore o s turn.1 = .ok scored ∧
      row.address = address sig ∧ address sig = turn.1.address ∧ row.signalEmitted = true ∧
      row.scoreBreakdown = scored.map (·.breakdown) ∧
      row.scoreTotal = if hits m turn.1.address < 2 then scored.map (·.score)
        else some (lowered (hits m turn.1.address) ((scored.map (·.score)).getD 0)) := by
  obtain ⟨scored, hs⟩ := ownScore_eq_ok h ht
  have hturn := processToken_eq o s signals m turn.2 hs
  cases hsig : (signalMap signals).get? turn.1.address with
  | none =>
    rw [hsig] at hturn
    refine .inl ⟨fun sig hsent => ?_, turnAlertRow_of_ok hturn⟩
    rw [Alerts, hsig] at hsent
    cases hsent.1
  | some sig =>
    rw [hsig] at hturn
    by_cases hcool : isCooling turn.2.checked m turn.1.address
    · simp only [hcool, if_true] at hturn
      refine .inl ⟨fun sig hsent => ?_, turnAlertRow_of_ok hturn⟩
      rw [Alerts, hcool] at hsent
      cases hsent.2.1
    · have hrange : ∀ n, (quietRow o s turn.1 scored).scoreTotal = some n → 0 ≤ n ∧ n ≤ 100 := by
        intro n hn
        obtain ⟨x, rfl, rfl⟩ := Option.map_eq_some_iff.mp hn
        rw [ownScore_total hs]
        exact ⟨x.breakdown.total_nonneg, x.breakdown.total_le⟩
      simp only [if_neg hcool, decayed_eq hrange] at hturn
      have haddress := (signalMap_eq_some hsig).2
      cases halerted : turn.2.alerted with
      | raised =>
        rw [halerted] at hturn
        refine .inl ⟨fun sig hsent => ?_, ?_⟩
        · cases halerted.symm.trans hsent.2.2
        · rw [turnAlertRow, hturn]
          rfl
      | returned value =>
        rw [halerted] at hturn
        exact .inr ⟨sig, _, scored, ⟨hsig, by simpa using hcool, halerted⟩,
          turnAlertRow_of_ok hturn, hs, haddress.symm, haddress, rfl, rfl, rfl⟩

/-! ### The alerts of a scan -/

/-- A scan sends no alert and leaves the cooldown, or it does both as its loop does. -/
theorem runChain_alertRows (o : ScannerOrchestrator) (job : Job) (m : CooldownManager) :
    (runChain o job.chain job.interval job.input m).1 = m ∧
        alerts (runChain o job.chain job.interval job.input m).2 = [] ∧
        (∀ tokens prev hour, job.input.fetched = .returned (some tokens) →
          load job.interval job.input = some (prev, hour) → tokens = [] ∨
            let s := scan job.chain job.interval job.input tokens prev hour
            ∀ signals, detect o.scorer s.prev s.curr s.risks ≠ .ok signals) ∨
      ∃ tokens prev hour signals, job.input.fetched = .returned (some tokens) ∧
        load job.interval job.input = some (prev, hour) ∧
        let s := scan job.chain job.interval job.input tokens prev hour
        let ts := turns s job.input.times
        detect o.scorer s.prev s.curr s.risks = .ok signals ∧
        (runChain o job.chain job.interval job.input m).1 = reached (turnStep o s signals) m ts ∧
        ∀ rest, alertRows ((runChain o job.chain job.interval job.input m).2 ++ rest) =
          emitted (turnStep o s signals) (turnAlertRow o s signals) m ts ++ alertRows rest := by
  rcases runChain_inv o job.chain job.interval job.input with
    ⟨outputs, hstops, hrun⟩ | ⟨tokens, prev, hour, signals, hloops⟩
  · rw [hrun]
    refine .inl ⟨rfl, hstops.alerts_eq, ?_⟩
    intro tokens prev hour hf hl
    by_cases hne : tokens = []
    · exact .inl hne
    · exact .inr fun signals hd => hstops.not_loops ⟨hf, hne, hl, hd⟩
  · rw [hloops.runChain_eq]
    refine .inr ⟨tokens, prev, hour, signals, hloops.fetched, hloops.loaded, hloops.detected,
      cooldown_processTokens _, ?_⟩
    intro rest
    rw [List.append_assoc, List.append_assoc, alertRows_append_of_quiet (alerts_beforeLoop _ _ _ _),
      alertRows_processTokens, alertRows_append_of_quiet (alerts_afterLoop _ _ _ _ _ _ _)]

/-- What a scan emits, and the cooldown that it leaves: nothing and the one before, or those of the
turns of its loop. -/
theorem jobAlertRows_cases (o : ScannerOrchestrator) (job : Job) (m : CooldownManager) :
    (runChain o job.chain job.interval job.input m).1 = m ∧ jobAlertRows o m job = [] ∧
        (∀ tokens prev hour, job.input.fetched = .returned (some tokens) →
          load job.interval job.input = some (prev, hour) → tokens = [] ∨
            let s := scan job.chain job.interval job.input tokens prev hour
            ∀ signals, detect o.scorer s.prev s.curr s.risks ≠ .ok signals) ∨
      ∃ tokens prev hour signals, job.input.fetched = .returned (some tokens) ∧
        load job.interval job.input = some (prev, hour) ∧
        let s := scan job.chain job.interval job.input tokens prev hour
        let ts := turns s job.input.times
        detect o.scorer s.prev s.curr s.risks = .ok signals ∧
        (runChain o job.chain job.interval job.input m).1 = reached (turnStep o s signals) m ts ∧
        jobAlertRows o m job = emitted (turnStep o s signals) (turnAlertRow o s signals) m ts := by
  rcases runChain_alertRows o job m with
    ⟨hm, hquiet, hstops⟩ | ⟨tokens, prev, hour, signals, hf, hl, hd, hm, hrows⟩
  · exact .inl ⟨hm, alertRows_of_quiet hquiet, hstops⟩
  · refine .inr ⟨tokens, prev, hour, signals, hf, hl, hd, hm, ?_⟩
    have hall := hrows []
    rwa [List.append_nil, alertRows, List.append_nil] at hall

theorem alertRows_runChain (o : ScannerOrchestrator) (job : Job) (m : CooldownManager)
    (rest : List Output) :
    alertRows ((runChain o job.chain job.interval job.input m).2 ++ rest) =
      jobAlertRows o m job ++ alertRows rest := by
  unfold jobAlertRows
  rcases runChain_alertRows o job m with ⟨-, hquiet, -⟩ | ⟨_, _, _, _, -, -, -, -, hrows⟩
  · rw [alertRows_append_of_quiet hquiet, alertRows_of_quiet hquiet]
    rfl
  · have hall := hrows []
    rw [List.append_nil] at hall
    rw [hrows rest, hall, List.append_assoc]
    rfl

theorem alertRows_runJobs (o : ScannerOrchestrator) (m : CooldownManager) (js : List Job) :
    alertRows (runJobs o m js).2 = emitted (jobStep o) (jobAlertRows o) m js := by
  induction js generalizing m with
  | nil => rfl
  | cons job js ih =>
    rw [runJobs, alertRows_runChain, ih]
    rfl

/-! ### Properties of the alerts of a run -/

/-- Every turn of the loop of a scan, if the scan comes to it, meets `turnOk` in the cooldown before
it. -/
def JobMeets (o : ScannerOrchestrator)
    (turnOk : Scan → List AlphaSignal → CooldownManager → TrendingToken × TokenTimes → Prop)
    (m : CooldownManager) (job : Job) : Prop :=
  ∀ tokens prev hour signals, job.input.fetched = .returned (some tokens) →
    load job.interval job.input = some (prev, hour) →
    let s := scan job.chain job.interval job.input tokens prev hour
    detect o.scorer s.prev s.curr s.risks = .ok signals →
    Meets (turnStep o s signals) (turnOk s signals) m (turns s job.input.times)

theorem turns_nil {chain : String} {interval : Interval} {input : ScanInput}
    {prev hour : Option Snapshot} :
    turns (scan chain interval input [] prev hour) input.times = [] := by
  obtain ⟨f, hf, -⟩ := flagged_eq_map hour []
  rw [turns, scan, hf]
  rfl

theorem mem_turns {times : ℕ → TokenTimes} {turn : TrendingToken × TokenTimes}
    (h : turn ∈ turns s times) : turn.1 ∈ s.curr.tokens := by
  rw [← map_fst_turns s times]
  exact List.mem_map_of_mem h

/-- The rule for runs. Each alert of a run meets `P` with the alerts before it exactly when every
turn meets `turnOk`, if that is what `turnOk` says of one turn under an invariant of the alerts so
far and the cooldown. -/
theorem alertRows_iff {P : List (AlphaSignal × Option TokenProcessed) →
      AlphaSignal × Option TokenProcessed → Prop}
    {turnOk : Scan → List AlphaSignal → CooldownManager → TrendingToken × TokenTimes → Prop}
    (Inv : List (AlphaSignal × Option TokenProcessed) → CooldownManager → Prop)
    (next : ∀ s signals log m turn, Inv log m →
      Inv (log ++ turnAlertRow o s signals m turn) ((turnStep o s signals m turn).getD m))
    (hok : ∀ s signals, detect o.scorer s.prev s.curr s.risks = .ok signals →
      ∀ log m turn, turn.1 ∈ s.curr.tokens → Inv log m → Throughout P log →
        (Throughout P (log ++ turnAlertRow o s signals m turn) ↔ turnOk s signals m turn))
    (start : State) (cs : List CycleInput) (hstart : Inv [] start.cooldown) :
    Throughout P (alertRows (runCycles o start cs).2) ↔
      Meets (jobStep o) (JobMeets o turnOk) start.cooldown (schedule o start.last1hRun cs) := by
  rw [(runCycles_eq_runJobs o start cs).2, alertRows_runJobs,
    ← List.nil_append (emitted _ _ start.cooldown _)]
  apply throughout_emitted_iff Inv _ _ hstart throughout_nil
  · intro log m job h
    show Inv (log ++ jobAlertRows o m job) (runChain o job.chain job.interval job.input m).1
    rcases jobAlertRows_cases o job m with ⟨hm, hnone, -⟩ | ⟨_, _, _, _, -, -, -, hm, hrows⟩
    · rwa [hm, hnone, List.append_nil]
    · rw [hm, hrows]
      exact inv_emitted Inv (next _ _) _ h
  · intro log m job _ h hlog
    rcases jobAlertRows_cases o job m with
      ⟨-, hnone, hstops⟩ | ⟨tokens, prev, hour, signals, hf, hl, hd, -, hrows⟩
    · rw [hnone, List.append_nil]
      refine ⟨fun _ => ?_, fun _ => hlog⟩
      intro tokens prev hour signals hf hl s hd
      rcases hstops tokens prev hour hf hl with hnil | hraises
      · subst hnil
        rw [turns_nil]
        trivial
      · exact absurd hd (hraises signals)
    · rw [hrows, throughout_emitted_iff Inv (next _ signals) (fun log m turn hturn =>
        hok _ _ hd log m turn (mem_turns hturn)) h hlog]
      constructor
      · intro hmeets tokens' prev' hour' signals' hf' hl' s hd'
        cases hf.symm.trans hf'
        cases hl.symm.trans hl'
        cases hd.symm.trans hd'
        exact hmeets
      · intro hjob
        exact hjob _ _ _ _ hf hl hd

/-- A cycle that lists one token, which has a signal, and comes to it at the given time. -/
def repeatedCycle (now : ℚ) : CycleInput :=
  let input : ScanInput :=
    { sampleInput [sampleToken "A" 200000 5 50] [sampleToken "A" 200000 10 1] with
      times := fun _ => ⟨now, now, now, .returned ()⟩ }
  ⟨fun _ => input, 60, fun _ => input⟩

end ChainMonitor.Orchestrator
