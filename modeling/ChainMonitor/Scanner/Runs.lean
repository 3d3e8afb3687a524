import ChainMonitor.Scanner.Orchestrator

/-! `ScannerOrchestrator.run_cycle` of `scanner/orchestrator.py`, cycle after cycle: how far apart
the alerts of an address are, and what the chains have to do with each other. -/

namespace ChainMonitor.Orchestrator

open ProofKit Detector Cooldown

structure State where
  last1hRun : ℚ
  cooldown : CooldownManager

/-- What one cycle reads: the inputs of the scans by the place of their chain in `chains`, and the
clock between the two rounds. -/
structure CycleInput where
  oneMinute : ℕ → ScanInput
  now : ℚ
  oneHour : ℕ → ScanInput

/-- One call of `_run_chain`. -/
structure Job where
  chain : String
  interval : Interval
  input : ScanInput

/-- A round over the chains. -/
def jobs (o : ScannerOrchestrator) (interval : Interval) (inputs : ℕ → ScanInput) : List Job :=
  o.chains.mapIdx fun i chain => ⟨chain, interval, inputs i⟩

def runJobs (o : ScannerOrchestrator) :
    CooldownManager → List Job → CooldownManager × List Output
  | m, [] => (m, [])
  | m, job :: rest =>
    let first := runChain o job.chain job.interval job.input m
    let later := runJobs o first.1 rest
    (later.1, first.2 ++ later.2)

def hourDue (o : ScannerOrchestrator) (last1hRun now : ℚ) : Bool :=
  now - last1hRun ≥ o.interval1hSeconds

def runCycle (o : ScannerOrchestrator) (s : State) (c : CycleInput) : State × List Output :=
  let minute := runJobs o s.cooldown (jobs o .oneMinute c.oneMinute)
  if hourDue o s.last1hRun c.now then
    let hour := runJobs o minute.1 (jobs o .oneHour c.oneHour)
    (⟨c.now, hour.1⟩, minute.2 ++ hour.2)
  else (⟨s.last1hRun, minute.1⟩, minute.2)

def runCycles (o : ScannerOrchestrator) : State → List CycleInput → State × List Output
  | s, [] => (s, [])
  | s, c :: rest =>
    let first := runCycle o s c
    let later := runCycles o first.1 rest
    (later.1, first.2 ++ later.2)

/-! ### The scans of a run, and its readings of the clock -/

/-- The scans that the cycles make. They do not depend on the cooldown. -/
def schedule (o : ScannerOrchestrator) : ℚ → List CycleInput → List Job
  | _, [] => []
  | last, c :: rest =>
    if hourDue o last c.now then
      jobs o .oneMinute c.oneMinute ++ (jobs o .oneHour c.oneHour ++ schedule o c.now rest)
    else jobs o .oneMinute c.oneMinute ++ schedule o last rest

theorem runJobs_append (o : ScannerOrchestrator) (m : CooldownManager) (js ks : List Job) :
    runJobs o m (js ++ ks) =
      ((runJobs o (runJobs o m js).1 ks).1,
        (runJobs o m js).2 ++ (runJobs o (runJobs o m js).1 ks).2) := by
  induction js generalizing m with
  | nil => rfl
  | cons j js ih =>
    rw [List.cons_append, runJobs, runJobs, ih]
    simp only [List.append_assoc]

/-- The cycles are their scans, one after the other. -/
theorem runCycles_eq_runJobs (o : ScannerOrchestrator) (s : State) (cs : List CycleInput) :
    (runCycles o s cs).1.cooldown = (runJobs o s.cooldown (schedule o s.last1hRun cs)).1 ∧
      (runCycles o s cs).2 = (runJobs o s.cooldown (schedule o s.last1hRun cs)).2 := by
  induction cs generalizing s with
  | nil => exact ⟨rfl, rfl⟩
  | cons c cs ih =>
    obtain ⟨hm, hout⟩ := ih (runCycle o s c).1
    rw [runCycles, schedule]
    simp only [hm, hout]
    unfold runCycle
    cases hourDue o s.last1hRun c.now
    · simp [runJobs_append]
    · simp [runJobs_append]

def TokenTimes.readings (t : TokenTimes) : List ℚ := [t.checked, t.sent, t.marked]

def loopReadings (times : ℕ → TokenTimes) (tokens : List TrendingToken) : List ℚ :=
  (tokens.mapIdx fun i _ => (times i).readings).flatten

/-- The readings of a scan, in order. -/
def Job.readings (job : Job) : List ℚ :=
  match job.input.fetched with
  | .raised => [job.input.startedAt]
  | .returned none => [job.input.startedAt, job.input.fetchedAt]
  | .returned (some tokens) =>
    job.input.startedAt :: job.input.fetchedAt :: job.input.takenAt ::
      ((securityTasks [] tokens).flatMap fun task =>
        [(job.input.security task.1).startedAt, (job.input.security task.1).finishedAt]) ++
      loopReadings job.input.times tokens ++ [job.input.finishedAt]

/-- The readings of the cycles, in order. -/
def readings (o : ScannerOrchestrator) : ℚ → List CycleInput → List ℚ
  | _, [] => []
  | last, c :: rest =>
    (jobs o .oneMinute c.oneMinute).flatMap Job.readings ++ c.now ::
      if hourDue o last c.now then
        (jobs o .oneHour c.oneHour).flatMap Job.readings ++ readings o c.now rest
      else readings o last rest

theorem readings_schedule (o : ScannerOrchestrator) (last : ℚ) (cs : List CycleInput) :
    ((schedule o last cs).flatMap Job.readings).Sublist (readings o last cs) := by
  induction cs generalizing last with
  | nil => exact List.Sublist.refl []
  | cons c cs ih =>
    rw [schedule, readings]
    split
    · simp only [List.flatMap_append]
      exact (List.Sublist.refl _).append (((List.Sublist.refl _).append (ih c.now)).cons c.now)
    · simp only [List.flatMap_append]
      exact (List.Sublist.refl _).append ((ih last).cons c.now)

/-! ### What a scan does to the cooldown -/

variable {o : ScannerOrchestrator} {s : Scan} {signals : List AlphaSignal} {m : CooldownManager}
  {token : TrendingToken} {times : TokenTimes}

/-- The address of the token that a signal is about. -/
def address (sig : AlphaSignal) : String := sig.token.token.address

def Output.alert? : Output → Option (AlphaSignal × ℚ)
  | .alert sig sentAt => some (sig, sentAt)
  | _ => none

/-- The alerts of a log and when they were sent. -/
def alerts (log : List Output) : List (AlphaSignal × ℚ) := log.filterMap Output.alert?

@[simp] theorem alerts_nil : alerts [] = [] := rfl

@[simp] theorem alerts_append (log more : List Output) :
    alerts (log ++ more) = alerts log ++ alerts more :=
  List.filterMap_append

theorem alerts_outputs (turn : Turn) : alerts turn.outputs = turn.alert.toList := by
  obtain ⟨m, alert, row⟩ := turn
  cases alert <;> rfl

theorem signalMap_eq_some {a : String} {sig : AlphaSignal}
    (h : (signalMap signals).get? a = some sig) : sig ∈ signals ∧ address sig = a := by
  rw [signalMap, Dict.get?_ofPairs] at h
  obtain ⟨⟨b, sig'⟩, hf, rfl⟩ := Option.map_eq_some_iff.mp h
  obtain ⟨x, hx, heq⟩ := List.mem_map.mp (List.mem_reverse.mp (List.mem_of_find?_eq_some hf))
  cases heq
  exact ⟨hx, by simpa [address] using List.find?_some hf⟩

/-- What a turn of the loop is: without an alert it leaves the cooldown, and with one it marks the
address, which was not cooling. -/
theorem processToken_cases {turn : Turn} (h : processToken o s signals m token times = .ok turn) :
    turn.row.chain = s.chain ∧
      (turn.alert = none ∧ turn.cooldown = m ∨
        ∃ sig ∈ signals, address sig = token.address ∧
          isCooling times.checked m token.address = false ∧ turn.alert = some (sig, times.sent) ∧
          turn.cooldown = mark o.cooldown times.marked token.address sig.level m) := by
  obtain ⟨scored, hs, -⟩ := bind_eq_ok.mp h
  rw [processToken_eq o s signals m times hs] at h
  cases hsig : (signalMap signals).get? token.address with
  | none =>
    rw [hsig] at h
    cases h
    exact ⟨rfl, .inl ⟨rfl, rfl⟩⟩
  | some sig =>
    rw [hsig] at h
    obtain ⟨hmem, haddress⟩ := signalMap_eq_some hsig
    by_cases hcool : isCooling times.checked m token.address
    · simp only [hcool, if_true] at h
      cases h
      exact ⟨rfl, .inl ⟨rfl, rfl⟩⟩
    · simp only [if_neg hcool] at h
      obtain ⟨total, -, hsent⟩ := bind_eq_ok.mp h
      obtain ⟨-, -, hturn⟩ := bind_eq_ok.mp hsent
      cases hturn
      exact ⟨rfl, .inr ⟨sig, hmem, haddress, by simpa using hcool, rfl, rfl⟩⟩

theorem alerts_beforeLoop (chain : String) (interval : Interval) (input : ScanInput)
    (tokens : List TrendingToken) : alerts (beforeLoop chain interval input tokens) = [] := by
  rw [alerts, List.filterMap_eq_nil_iff]
  intro out hout
  rcases mem_beforeLoop hout with ⟨_, _, _, rfl⟩ | ⟨_, _, _, _, rfl⟩
  · rfl
  · rfl

theorem alerts_afterLoop (chain : String) (interval : Interval) (input : ScanInput) (s : Scan)
    (signals : List AlphaSignal) (count : ℕ) (completed : Bool) :
    alerts (afterLoop chain interval input s signals count completed) = [] := by
  rw [alerts, List.filterMap_eq_nil_iff]
  intro out hout
  obtain ⟨_, _, rfl⟩ := mem_afterLoop hout
  rfl

theorem Stops.alerts_eq {chain : String} {interval : Interval} {input : ScanInput}
    {outputs : List Output} (h : Stops o chain interval input outputs) : alerts outputs = [] := by
  obtain ⟨tokens, hsub⟩ := h.sublist
  have halerts := hsub.filterMap Output.alert?
  rwa [← alerts, ← alerts, alerts_beforeLoop, List.sublist_nil] at halerts

/-- A scan sends the alerts of its loop and leaves the cooldown of its loop, if it gets there. -/
theorem runChain_cases (o : ScannerOrchestrator) (chain : String) (interval : Interval)
    (input : ScanInput) (m : CooldownManager) :
    (runChain o chain interval input m).1 = m ∧ alerts (runChain o chain interval input m).2 = [] ∨
      ∃ tokens prev hour signals, input.fetched = .returned (some tokens) ∧
        let s := scan chain interval input tokens prev hour
        detect o.scorer s.prev s.curr s.risks = .ok signals ∧
        (runChain o chain interval input m).1 =
          (processTokens o s signals m (turns s input.times)).cooldown ∧
        alerts (runChain o chain interval input m).2 =
          alerts (processTokens o s signals m (turns s input.times)).outputs := by
  rcases runChain_inv o chain interval input with
    ⟨outputs, hstops, hrun⟩ | ⟨tokens, prev, hour, signals, hloops⟩
  · rw [hrun]
    exact .inl ⟨rfl, hstops.alerts_eq⟩
  · refine .inr ⟨tokens, prev, hour, signals, hloops.fetched, hloops.detected, ?_, ?_⟩
    · rw [hloops.runChain_eq]
    · rw [hloops.runChain_eq, alerts_append, alerts_append, alerts_beforeLoop, alerts_afterLoop,
        List.nil_append, List.append_nil]

/-! ### The spacing of the alerts -/

/-- Two alerts for one address are the cooldown of the earlier one's level apart. -/
def Spaced (cfg : Cooldown.Config) (log : List Output) : Prop :=
  (alerts log).Pairwise fun x y : AlphaSignal × ℚ =>
    address x.1 = address y.1 → x.2 + seconds cfg x.1.level ≤ y.2

/-- The cooldown of each alert of the log ends before its address expires, or before the clock is
read again. -/
def Covered (cfg : Cooldown.Config) (m : CooldownManager) (log : List Output) (future : List ℚ) :
    Prop :=
  ∀ x ∈ alerts log, ∀ t ∈ future,
    x.2 + seconds cfg x.1.level ≤ expires m (address x.1) ∨ x.2 + seconds cfg x.1.level ≤ t

variable {log : List Output} {future : List ℚ}

theorem turn_spaced {turn : Turn} (h : processToken o s signals m token times = .ok turn)
    (hle : (times.readings ++ future).Pairwise (· ≤ ·)) (hspaced : Spaced o.cooldown log)
    (hcovered : Covered o.cooldown m log (times.readings ++ future)) :
    Spaced o.cooldown (log ++ turn.outputs) ∧
      Covered o.cooldown turn.cooldown (log ++ turn.outputs) future := by
  simp only [TokenTimes.readings, List.cons_append, List.nil_append, List.pairwise_cons,
    List.mem_cons, forall_eq_or_imp] at hle
  obtain ⟨⟨hsent, hmarked, hlater⟩, ⟨hsm, -⟩, hml, -⟩ := hle
  unfold Spaced Covered
  simp only [alerts_append, alerts_outputs]
  rcases (processToken_cases h).2 with ⟨ha, hm⟩ | ⟨sig, -, haddress, hcool, ha, hm⟩
  · rw [ha, hm]
    simp only [Option.toList_none, List.append_nil]
    refine ⟨hspaced, ?_⟩
    intro x hx t ht
    exact hcovered x hx t (List.mem_append_right _ ht)
  · rw [ha, hm]
    simp only [Option.toList_some]
    -- The address was not cooling, so the cooldowns of its alerts have ended.
    have hended : ∀ x ∈ alerts log, address x.1 = address sig →
        x.2 + seconds o.cooldown x.1.level ≤ times.checked := by
      intro x hx hxa
      have hexpired : expires m token.address ≤ times.checked := by
        simpa [isCooling] using hcool
      rcases hcovered x hx times.checked (by simp [TokenTimes.readings]) with hc | hc
      · rw [hxa, haddress] at hc
        exact hc.trans hexpired
      · exact hc
    constructor
    · rw [List.pairwise_append]
      refine ⟨hspaced, List.pairwise_singleton _ _, ?_⟩
      intro x hx y hy hxy
      rw [List.mem_singleton.mp hy] at hxy ⊢
      exact (hended x hx hxy).trans hsent
    · intro x hx t ht
      rcases List.mem_append.mp hx with hx | hx
      · by_cases hxa : address x.1 = address sig
        · exact .inr ((hended x hx hxa).trans (hlater t ht))
        · rw [haddress] at hxa
          rw [expires_mark_of_ne hxa]
          exact hcovered x hx t (List.mem_append_right _ ht)
      · rw [List.mem_singleton.mp hx]
        refine .inl ?_
        rw [haddress, expires_mark_self]
        exact add_le_add_left hsm _

theorem processTokens_spaced {ts : List (TrendingToken × TokenTimes)}
    (hle : (ts.flatMap (fun t => t.2.readings) ++ future).Pairwise (· ≤ ·))
    (hspaced : Spaced o.cooldown log)
    (hcovered : Covered o.cooldown m log (ts.flatMap (fun t => t.2.readings) ++ future)) :
    let done := processTokens o s signals m ts
    Spaced o.cooldown (log ++ done.outputs) ∧
      Covered o.cooldown done.cooldown (log ++ done.outputs) future := by
  induction ts generalizing m log with
  | nil =>
    simp only [processTokens, List.append_nil]
    exact ⟨hspaced, hcovered⟩
  | cons t ts ih =>
    simp only [List.flatMap_cons, List.append_assoc] at hle hcovered
    obtain ⟨token, times⟩ := t
    simp only [processTokens]
    cases hturn : processToken o s signals m token times with
    | error e =>
      simp only [List.append_nil]
      refine ⟨hspaced, ?_⟩
      intro x hx t ht
      exact hcovered x hx t (List.mem_append_right _ (List.mem_append_right _ ht))
    | ok turn =>
      obtain ⟨hs, hc⟩ := turn_spaced hturn hle hspaced hcovered
      have hrest := ih (List.pairwise_append.mp hle).2.1 hs hc
      simp only [List.append_assoc] at hrest
      exact hrest

theorem Covered.mono {cfg : Cooldown.Config} {later : List ℚ} (h : Covered cfg m log future)
    (hsub : later ⊆ future) : Covered cfg m log later :=
  fun x hx t ht => h x hx t (hsub ht)

theorem readings_turns (chain : String) (interval : Interval) (input : ScanInput)
    (tokens : List TrendingToken) (prev hour : Option Snapshot) :
    (turns (scan chain interval input tokens prev hour) input.times).flatMap
      (fun t => t.2.readings) = loopReadings input.times tokens := by
  obtain ⟨f, hf, -⟩ := flagged_eq_map hour tokens
  rw [turns, loopReadings, List.flatMap_def]
  refine congrArg List.flatten (List.ext_getElem ?_ ?_)
  · simp [scan, hf]
  · intro i h₁ h₂
    simp

theorem runChain_spaced {job : Job} (hle : (job.readings ++ future).Pairwise (· ≤ ·))
    (hspaced : Spaced o.cooldown log)
    (hcovered : Covered o.cooldown m log (job.readings ++ future)) :
    let next := runChain o job.chain job.interval job.input m
    Spaced o.cooldown (log ++ next.2) ∧ Covered o.cooldown next.1 (log ++ next.2) future := by
  unfold Spaced Covered
  simp only [alerts_append]
  rcases runChain_cases o job.chain job.interval job.input m with
    ⟨hm, ha⟩ | ⟨tokens, prev, hour, signals, hf, -, hm, ha⟩
  · rw [hm, ha, List.append_nil]
    exact ⟨hspaced, hcovered.mono fun t ht => List.mem_append_right _ ht⟩
  · have hloop : (loopReadings job.input.times tokens).Sublist job.readings := by
      rw [Job.readings, hf]
      exact (List.sublist_append_right _ _).trans (List.sublist_append_left _ _)
    have hreadings := readings_turns job.chain job.interval job.input tokens prev hour
    rw [hm, ha, ← alerts_append]
    apply processTokens_spaced
    · rw [hreadings]
      exact hle.sublist (hloop.append (List.Sublist.refl future))
    · exact hspaced
    · rw [hreadings]
      exact hcovered.mono (hloop.append (List.Sublist.refl future)).subset

theorem runJobs_spaced {js : List Job}
    (hle : (js.flatMap Job.readings ++ future).Pairwise (· ≤ ·))
    (hspaced : Spaced o.cooldown log)
    (hcovered : Covered o.cooldown m log (js.flatMap Job.readings ++ future)) :
    Spaced o.cooldown (log ++ (runJobs o m js).2) ∧
      Covered o.cooldown (runJobs o m js).1 (log ++ (runJobs o m js).2) future := by
  induction js generalizing m log with
  | nil =>
    simp only [runJobs, List.append_nil]
    exact ⟨hspaced, hcovered⟩
  | cons job js ih =>
    simp only [List.flatMap_cons, List.append_assoc] at hle hcovered
    obtain ⟨hs, hc⟩ := runChain_spaced hle hspaced hcovered
    have hrest := ih (List.pairwise_append.mp hle).2.1 hs hc
    simp only [List.append_assoc] at hrest
    exact hrest

/-- On a clock that never goes back, the alerts of any run are spaced, whatever cooldown it starts
with. The pool is as large as the set of cooling addresses, for every manager and from the epoch
on. -/
theorem runCycles_spaced (o : ScannerOrchestrator) (s : State) (cs : List CycleInput)
    (hclock : (readings o s.last1hRun cs).Pairwise (· ≤ ·)) :
    Spaced o.cooldown (runCycles o s cs).2 ∧
      ∀ (m : CooldownManager) (now : ℚ), 0 ≤ now →
        poolSize now m = {a | isCooling now m a = true}.ncard := by
  refine ⟨?_, fun m now hnow => poolSize_eq_ncard hnow m⟩
  rw [(runCycles_eq_runJobs o s cs).2]
  have hjobs := hclock.sublist (readings_schedule o s.last1hRun cs)
  rw [← List.append_nil ((schedule o s.last1hRun cs).flatMap Job.readings)] at hjobs
  have hrun : Spaced o.cooldown ([] ++ (runJobs o s.cooldown (schedule o s.last1hRun cs)).2) ∧ _ :=
    runJobs_spaced hjobs .nil fun x hx => absurd hx List.not_mem_nil
  exact hrun.1

/-- A list names one address twice and sends one alert. -/
theorem runCycles_spaced_repeated_address :
    let input := sampleInput [sampleToken "A" 200000 5 50]
      [sampleToken "A" 200000 10 1, sampleToken "A" 200000 10 1]
    let run := runCycles sampleOrchestrator ⟨60, Cooldown.init⟩
      [⟨fun _ => input, 60, fun _ => input⟩]
    (alerts run.2).length = 1 ∧ Spaced .default run.2 ∧
      poolSize 60 run.1.cooldown = {a | isCooling 60 run.1.cooldown a = true}.ncard := by
  intro input run
  obtain ⟨hspaced, hpool⟩ := runCycles_spaced sampleOrchestrator ⟨60, Cooldown.init⟩
    [⟨fun _ => input, 60, fun _ => input⟩] (by decide +kernel)
  exact ⟨by decide +kernel, hspaced, hpool run.1.cooldown 60 (by decide +kernel)⟩

/-! ### The reports of one chain -/

def Output.chain : Output → String
  | .trendingFetched chain .. => chain
  | .tokenSecurityChecked chain .. => chain
  | .tokenProcessed row => row.chain
  | .chainScanCompleted chain .. => chain
  | .alert sig _ => sig.chain

def Output.isReport : Output → Bool
  | .tokenProcessed _ | .alert .. => true
  | _ => false

/-- The alerts and the `TokenProcessed` events of chain `c`, in order. -/
def reports (c : String) (log : List Output) : List Output :=
  log.filter fun out => out.isReport && out.chain = c

theorem chain_of_mem_signals (h : detect o.scorer s.prev s.curr s.risks = .ok signals)
    {sig : AlphaSignal} (hsig : sig ∈ signals) : sig.chain = s.curr.chain := by
  rw [signals_eq h] at hsig
  obtain ⟨token, -, hown⟩ := List.mem_filterMap.mp hsig
  exact (ownSignal_eq_some hown).2.2

theorem chain_of_mem_processTokens {chain : String} (hchain : s.chain = chain)
    (hsignals : ∀ sig ∈ signals, sig.chain = chain) {ts : List (TrendingToken × TokenTimes)} :
    ∀ out ∈ (processTokens o s signals m ts).outputs, out.chain = chain := by
  induction ts generalizing m with
  | nil =>
    intro out hout
    cases hout
  | cons t ts ih =>
    intro out hout
    simp only [processTokens] at hout
    cases hturn : processToken o s signals m t.1 t.2 with
    | error e =>
      rw [hturn] at hout
      cases hout
    | ok turn =>
      rw [hturn] at hout
      rcases List.mem_append.mp hout with hout | hout
      · obtain ⟨hrow, halert⟩ := processToken_cases hturn
        rcases List.mem_append.mp hout with hout | hout
        · rcases halert with ⟨ha, -⟩ | ⟨sig, hmem, -, -, ha, -⟩
          · rw [ha] at hout
            cases hout
          · rw [ha] at hout
            rw [List.mem_singleton.mp hout]
            exact hsignals sig hmem
        · rw [List.mem_singleton.mp hout]
          exact hrow.trans hchain
      · exact ih out hout

/-- What a scan of a chain publishes and sends is of that chain. -/
theorem chain_of_mem_runChain {chain : String} {interval : Interval} {input : ScanInput} :
    ∀ out ∈ (runChain o chain interval input m).2, out.chain = chain := by
  have hbefore : ∀ tokens, ∀ out ∈ beforeLoop chain interval input tokens, out.chain = chain := by
    intro tokens out hout
    rcases mem_beforeLoop hout with ⟨_, _, _, rfl⟩ | ⟨_, _, _, _, rfl⟩
    · rfl
    · rfl
  intro out hout
  rcases runChain_inv o chain interval input with
    ⟨outputs, hstops, hrun⟩ | ⟨tokens, prev, hour, signals, hloops⟩
  · rw [hrun] at hout
    obtain ⟨tokens, hsub⟩ := hstops.sublist
    exact hbefore tokens out (hsub.subset hout)
  · rw [hloops.runChain_eq] at hout
    rcases List.mem_append.mp hout with hout | hout
    · rcases List.mem_append.mp hout with hout | hout
      · exact hbefore tokens out hout
      · exact chain_of_mem_processTokens rfl
          (fun sig hsig => chain_of_mem_signals hloops.detected hsig) out hout
    · obtain ⟨_, _, rfl⟩ := mem_afterLoop hout
      rfl

/-! ### Scans on managers that agree -/

variable {m' : CooldownManager} {A : Set String}

/-- Turns that differ in nothing but in what their managers hold outside of `A`. -/
structure Turn.AgreeOn (A : Set String) (t t' : Turn) : Prop where
  cooldown : Cooldown.AgreeOn A t.cooldown t'.cooldown
  alert : t.alert = t'.alert
  row : t.row = t'.row

theorem processToken_agree (h : AgreeOn A m m') (ha : token.address ∈ A) :
    (∃ e, processToken o s signals m token times = .error e ∧
        processToken o s signals m' token times = .error e) ∨
      ∃ t t', processToken o s signals m token times = .ok t ∧
        processToken o s signals m' token times = .ok t' ∧ t.AgreeOn A t' := by
  cases hs : ownScore o s token with
  | error e =>
    refine .inl ⟨e, ?_, ?_⟩
    · rw [processToken, hs]
      rfl
    · rw [processToken, hs]
      rfl
  | ok scored =>
    rw [processToken_eq o s signals m times hs, processToken_eq o s signals m' times hs]
    rw [← h.isCooling ha, ← h.decayFactor ha]
    cases (signalMap signals).get? token.address with
    | none => exact .inr ⟨_, _, rfl, rfl, h, rfl, rfl⟩
    | some sig =>
      by_cases hcool : isCooling times.checked m token.address
      · simp only [hcool, if_true]
        exact .inr ⟨_, _, rfl, rfl, h, rfl, rfl⟩
      · simp only [if_neg hcool]
        cases decayed (quietRow o s token scored).scoreTotal (decayFactor m token.address) with
        | error e => exact .inl ⟨e, rfl, rfl⟩
        | ok total =>
          cases times.alerted with
          | raised => exact .inl ⟨_, rfl, rfl⟩
          | returned value => exact .inr ⟨_, _, rfl, rfl, h.mark ha, rfl, rfl⟩

theorem processTokens_agree (o : ScannerOrchestrator) (s : Scan) (signals : List AlphaSignal)
    (h : AgreeOn A m m') {ts : List (TrendingToken × TokenTimes)}
    (hts : ∀ t ∈ ts, t.1.address ∈ A) :
    (processTokens o s signals m ts).outputs = (processTokens o s signals m' ts).outputs ∧
      (processTokens o s signals m ts).completed = (processTokens o s signals m' ts).completed ∧
      AgreeOn A (processTokens o s signals m ts).cooldown
        (processTokens o s signals m' ts).cooldown := by
  induction ts generalizing m m' with
  | nil => exact ⟨rfl, rfl, h⟩
  | cons t ts ih =>
    obtain ⟨token, times⟩ := t
    rcases processToken_agree h (hts (token, times) List.mem_cons_self) with
      ⟨e, he, he'⟩ | ⟨turn, turn', ht, ht', hturn⟩
    · rw [processTokens_of_error he, processTokens_of_error he']
      exact ⟨rfl, rfl, h⟩
    · obtain ⟨hout, hdone, hm⟩ := ih hturn.cooldown fun u hu => hts u (List.mem_cons_of_mem _ hu)
      rw [processTokens_of_ok ht, processTokens_of_ok ht']
      simp only [Turn.outputs, hturn.alert, hturn.row, hout]
      exact ⟨trivial, hdone, hm⟩

/-- A scan that lists only addresses of `A` does the same on managers that agree on `A`. -/
theorem runChain_agree (h : AgreeOn A m m') {chain : String} {interval : Interval}
    {input : ScanInput} (hlisted : ∀ tokens, input.fetched = .returned (some tokens) →
      ∀ t ∈ tokens, t.address ∈ A) :
    (runChain o chain interval input m).2 = (runChain o chain interval input m').2 ∧
      AgreeOn A (runChain o chain interval input m).1 (runChain o chain interval input m').1 := by
  rcases runChain_inv o chain interval input with
    ⟨outputs, -, hrun⟩ | ⟨tokens, prev, hour, signals, hloops⟩
  · rw [hrun, hrun]
    exact ⟨rfl, h⟩
  · have hts : ∀ t ∈ turns (scan chain interval input tokens prev hour) input.times,
        t.1.address ∈ A := by
      intro t ht
      obtain ⟨f, hflag, hsame⟩ := flagged_eq_map hour tokens
      have hmem : t.1 ∈ (turns _ input.times).map Prod.fst := List.mem_map_of_mem ht
      rw [map_fst_turns] at hmem
      change t.1 ∈ flagged hour tokens at hmem
      rw [hflag] at hmem
      obtain ⟨token, htoken, heq⟩ := List.mem_map.mp hmem
      rw [← heq, (hsame token).1]
      exact hlisted tokens hloops.fetched token htoken
    obtain ⟨hout, hdone, hm⟩ := processTokens_agree o
      (scan chain interval input tokens prev hour) signals h hts
    rw [hloops.runChain_eq, hloops.runChain_eq]
    simp only [hout, hdone]
    exact ⟨trivial, hm⟩

theorem processTokens_foreign (h : AgreeOn A m m') {ts : List (TrendingToken × TokenTimes)}
    (hforeign : ∀ x ∈ alerts (processTokens o s signals m ts).outputs, address x.1 ∉ A) :
    AgreeOn A (processTokens o s signals m ts).cooldown m' := by
  induction ts generalizing m with
  | nil => exact h
  | cons t ts ih =>
    simp only [processTokens] at hforeign ⊢
    cases hturn : processToken o s signals m t.1 t.2 with
    | error e => exact h
    | ok turn =>
      simp only [hturn, alerts_append, alerts_outputs] at hforeign ⊢
      refine ih ?_ fun x hx => hforeign x (List.mem_append_right _ hx)
      rcases (processToken_cases hturn).2 with ⟨-, hm⟩ | ⟨sig, -, haddress, -, ha, hm⟩
      · rw [hm]
        exact h
      · rw [hm]
        refine h.mark_left ?_
        rw [← haddress]
        exact hforeign (sig, t.2.sent) (by simp [ha])

/-- A scan that sends no alert for an address of `A` changes nothing on `A`. -/
theorem runChain_foreign (h : AgreeOn A m m') {chain : String} {interval : Interval}
    {input : ScanInput}
    (hforeign : ∀ x ∈ alerts (runChain o chain interval input m).2, address x.1 ∉ A) :
    AgreeOn A (runChain o chain interval input m).1 m' := by
  rcases runChain_cases o chain interval input m with
    ⟨hm, -⟩ | ⟨tokens, prev, hour, signals, -, -, hm, ha⟩
  · rw [hm]
    exact h
  · rw [hm]
    rw [ha] at hforeign
    exact processTokens_foreign h hforeign

/-! ### Two runs that are the same for one chain -/

variable {c : String}

/-- The scans are of the same chain and interval and, for chain `c`, read the same. -/
structure Job.SameFor (c : String) (j k : Job) : Prop where
  chain : j.chain = k.chain
  interval : j.interval = k.interval
  input : j.chain = c → j.input = k.input

/-- The cycles read the same clock between the rounds, and the scans of chain `c` read the same. -/
structure CycleInput.SameFor (o : ScannerOrchestrator) (c : String) (x y : CycleInput) : Prop where
  now : x.now = y.now
  oneMinute : ∀ i, o.chains[i]? = some c → x.oneMinute i = y.oneMinute i
  oneHour : ∀ i, o.chains[i]? = some c → x.oneHour i = y.oneHour i

/-- The addresses that the scans of chain `c` list. -/
def listed (c : String) (js : List Job) : Set String :=
  {a | ∃ job ∈ js, job.chain = c ∧
    ∃ tokens, job.input.fetched = .returned (some tokens) ∧ a ∈ tokens.map (·.address)}

/-- No other chain than `c` sends an alert for an address of `A`. -/
def NoForeignAlert (c : String) (A : Set String) (log : List Output) : Prop :=
  ∀ x ∈ alerts log, x.1.chain ≠ c → address x.1 ∉ A

theorem mem_alerts {x : AlphaSignal × ℚ} {log : List Output} (h : x ∈ alerts log) :
    .alert x.1 x.2 ∈ log := by
  obtain ⟨out, hout, hx⟩ := List.mem_filterMap.mp h
  cases out with
  | alert sig sentAt =>
    cases hx
    exact hout
  | _ => cases hx

theorem reports_append (c : String) (log more : List Output) :
    reports c (log ++ more) = reports c log ++ reports c more :=
  List.filter_append log more

/-- A scan of another chain reports nothing of chain `c`. -/
theorem reports_runChain_of_ne {chain : String} {interval : Interval} {input : ScanInput}
    (h : chain ≠ c) : reports c (runChain o chain interval input m).2 = [] := by
  rw [reports, List.filter_eq_nil_iff]
  intro out hout
  have hchain := chain_of_mem_runChain out hout
  simp [hchain, h]

theorem jobs_sameFor {interval : Interval} {inputs inputs' : ℕ → ScanInput}
    (h : ∀ i, o.chains[i]? = some c → inputs i = inputs' i) :
    List.Forall₂ (Job.SameFor c) (jobs o interval inputs) (jobs o interval inputs') := by
  rw [List.forall₂_iff_get]
  refine ⟨by simp [jobs], ?_⟩
  intro i hi hi'
  simp only [jobs, List.get_eq_getElem, List.getElem_mapIdx]
  refine ⟨rfl, rfl, ?_⟩
  intro hc
  have hlt : i < o.chains.length := by simpa [jobs] using hi
  apply h
  rw [List.getElem?_eq_getElem hlt]
  exact congrArg some hc

theorem schedule_sameFor {last : ℚ} {cs cs' : List CycleInput}
    (h : List.Forall₂ (CycleInput.SameFor o c) cs cs') :
    List.Forall₂ (Job.SameFor c) (schedule o last cs) (schedule o last cs') := by
  induction h generalizing last with
  | nil => exact .nil
  | cons hx _ ih =>
    rw [schedule, schedule, hx.now]
    split
    · exact List.rel_append (jobs_sameFor hx.oneMinute)
        (List.rel_append (jobs_sameFor hx.oneHour) ih)
    · exact List.rel_append (jobs_sameFor hx.oneMinute) ih

theorem runJobs_isolated {js ks : List Job} (hsame : List.Forall₂ (Job.SameFor c) js ks)
    (hA : listed c js ⊆ A) (h : AgreeOn A m m') (hjs : NoForeignAlert c A (runJobs o m js).2)
    (hks : NoForeignAlert c A (runJobs o m' ks).2) :
    reports c (runJobs o m js).2 = reports c (runJobs o m' ks).2 := by
  induction hsame generalizing m m' with
  | nil => rfl
  | @cons j k js ks hjk _ ih =>
    have hrest : listed c js ⊆ A := by
      rintro a ⟨job, hjob, hlisted⟩
      exact hA ⟨job, List.mem_cons_of_mem j hjob, hlisted⟩
    simp only [runJobs, NoForeignAlert, alerts_append, List.mem_append] at hjs hks
    simp only [runJobs, reports_append]
    have hjs' : NoForeignAlert c A (runJobs o (runChain o j.chain j.interval j.input m).1 js).2 :=
      fun x hx => hjs x (.inr hx)
    have hks' : NoForeignAlert c A (runJobs o (runChain o k.chain k.interval k.input m').1 ks).2 :=
      fun x hx => hks x (.inr hx)
    by_cases hc : j.chain = c
    · -- A scan of chain `c` reads the same and finds the same cooldowns.
      have hlisted : ∀ tokens, j.input.fetched = .returned (some tokens) →
          ∀ t ∈ tokens, t.address ∈ A := by
        intro tokens hf t ht
        exact hA ⟨j, List.mem_cons_self, hc, tokens, hf, List.mem_map_of_mem ht⟩
      obtain ⟨hout, hm⟩ : (runChain o j.chain j.interval j.input m).2 = _ ∧ _ :=
        runChain_agree h hlisted
      rw [← hjk.chain, ← hjk.interval, ← hjk.input hc] at hks' ⊢
      rw [hout, ih hrest hm hjs' hks']
    · -- A scan of another chain reports nothing of `c` and leaves its cooldowns alone.
      have hne : ∀ {n : CooldownManager} {job : Job}, job.chain ≠ c →
          ∀ x ∈ alerts (runChain o job.chain job.interval job.input n).2, x.1.chain ≠ c := by
        intro n job hjob x hx
        have hchain : x.1.chain = job.chain := chain_of_mem_runChain _ (mem_alerts hx)
        rwa [hchain]
      have hc' : k.chain ≠ c := hjk.chain ▸ hc
      have hm : AgreeOn A (runChain o j.chain j.interval j.input m).1 m' :=
        runChain_foreign h fun x hx => hjs x (.inl hx) (hne hc x hx)
      have hm' := runChain_foreign hm.symm fun x hx => hks x (.inl hx) (hne hc' x hx)
      rw [reports_runChain_of_ne hc, reports_runChain_of_ne hc', ih hrest hm'.symm hjs' hks']

/-- Runs that read the same for chain `c` report the same for it, when in neither of them another
chain sends an alert for an address that `c` lists. -/
theorem runCycles_isolated (o : ScannerOrchestrator) (c : String) (s : State)
    {cs cs' : List CycleInput} (hsame : List.Forall₂ (CycleInput.SameFor o c) cs cs')
    (hcs : NoForeignAlert c (listed c (schedule o s.last1hRun cs)) (runCycles o s cs).2)
    (hcs' : NoForeignAlert c (listed c (schedule o s.last1hRun cs)) (runCycles o s cs').2) :
    reports c (runCycles o s cs).2 = reports c (runCycles o s cs').2 := by
  rw [(runCycles_eq_runJobs o s cs).2] at hcs ⊢
  rw [(runCycles_eq_runJobs o s cs').2] at hcs' ⊢
  exact runJobs_isolated (schedule_sameFor hsame) subset_rfl (AgreeOn.refl _ _) hcs hcs'

/-- Two chains scan in turn. The second lists "A", which has a signal there. -/
def sampleTwoChains : ScannerOrchestrator := ⟨["eth", "bsc"], .default, .default, 300⟩

/-- A cycle in which the first chain lists `tokens`. -/
def sampleCycle (tokens : List TrendingToken) : CycleInput :=
  let before := [sampleToken "A" 200000 5 50, sampleToken "B" 200000 5 50]
  let inputs : ℕ → ScanInput := fun i =>
    sampleInput before (if i = 0 then tokens else [sampleToken "A" 200000 10 1])
  ⟨inputs, 60, inputs⟩

theorem sampleCycle_sameFor (tokens tokens' : List TrendingToken) :
    List.Forall₂ (CycleInput.SameFor sampleTwoChains "bsc") [sampleCycle tokens]
      [sampleCycle tokens'] := by
  have hinputs : ∀ i, sampleTwoChains.chains[i]? = some "bsc" → i ≠ 0 := by
    rintro i hi rfl
    exact absurd hi (by decide)
  refine .cons ⟨rfl, ?_, ?_⟩ .nil
  · intro i hi
    simp [sampleCycle, hinputs i hi]
  · intro i hi
    simp [sampleCycle, hinputs i hi]

/-- The first chain lists nothing in one run and sends an alert for "B" in the other. -/
theorem runCycles_isolated_other_address :
    reports "bsc" (runCycles sampleTwoChains ⟨60, Cooldown.init⟩ [sampleCycle []]).2 =
      reports "bsc" (runCycles sampleTwoChains ⟨60, Cooldown.init⟩
        [sampleCycle [sampleToken "B" 200000 10 1]]).2 := by
  have hlisted : ∀ a ∈ listed "bsc" (schedule sampleTwoChains 60 [sampleCycle []]), a = "A" := by
    rintro a ⟨job, hjob, hc, tokens, hf, ha⟩
    have hfetched : ∀ job ∈ schedule sampleTwoChains 60 [sampleCycle []], job.chain = "bsc" →
        job.input.fetched = .returned (some [sampleToken "A" 200000 10 1]) := by
      decide +kernel
    rw [hfetched job hjob hc] at hf
    cases hf
    exact List.mem_singleton.mp ha
  apply runCycles_isolated sampleTwoChains "bsc" ⟨60, Cooldown.init⟩ (sampleCycle_sameFor _ _)
  · intro x hx hne hmem
    have hother : ∀ x ∈ alerts (runCycles sampleTwoChains ⟨60, Cooldown.init⟩ [sampleCycle []]).2,
        x.1.chain ≠ "bsc" → address x.1 ≠ "A" := by
      decide +kernel
    exact hother x hx hne (hlisted _ hmem)
  · intro x hx hne hmem
    have hother : ∀ x ∈ alerts (runCycles sampleTwoChains ⟨60, Cooldown.init⟩
        [sampleCycle [sampleToken "B" 200000 10 1]]).2,
        x.1.chain ≠ "bsc" → address x.1 ≠ "A" := by
      decide +kernel
    exact hother x hx hne (hlisted _ hmem)

/-- The first chain lists nothing in one run and sends an alert for "A" in the other, which takes
the alert from the second chain. -/
theorem shared_address_interferes :
    List.Forall₂ (CycleInput.SameFor sampleTwoChains "bsc") [sampleCycle []]
        [sampleCycle [sampleToken "A" 200000 10 1]] ∧
      reports "bsc" (runCycles sampleTwoChains ⟨60, Cooldown.init⟩ [sampleCycle []]).2 ≠
        reports "bsc" (runCycles sampleTwoChains ⟨60, Cooldown.init⟩
          [sampleCycle [sampleToken "A" 200000 10 1]]).2 :=
  ⟨sampleCycle_sameFor _ _, by decide +kernel⟩

end ChainMonitor.Orchestrator
