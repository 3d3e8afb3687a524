import ChainMonitor.ProofKit.Run
import ChainMonitor.Scanner.Cooldown

/-! `ScannerOrchestrator._run_chain` of `scanner/orchestrator.py`: one scan of one chain, from the
trending list to the events and alerts, and what it leaves of the cooldown. -/

namespace ChainMonitor.Orchestrator

open ProofKit Detector Cooldown

/-- How a call to a collaborator ends. -/
inductive Reply (α : Type*)
  | returned (value : α)
  | raised
  deriving DecidableEq

/-- When the task of an address is awaited, when it answers, and what. -/
structure SecurityReply where
  startedAt : ℚ
  finishedAt : ℚ
  result : Reply (Option TokenRisk)

/-- When the loop checks the cooldown of a token, sends its alert, and marks it, and how the call
of `send_alpha` ends: of what it may raise it catches only an `httpx.HTTPError`. -/
structure TokenTimes where
  checked : ℚ
  sent : ℚ
  marked : ℚ
  alerted : Reply Unit

/-- What one call of `_run_chain` reads of its collaborators and of the clock. The times are those
of the points at which the code may read the clock or send an alert, also where it does not. A fetch
that has failed may also return `None`. -/
structure ScanInput where
  startedAt : ℚ
  fetched : Reply (Option (List TrendingToken))
  fetchedAt : ℚ
  takenAt : ℚ
  previous : Reply (Option Snapshot)
  previousHour : Reply (Option Snapshot)
  security : String → SecurityReply
  times : ℕ → TokenTimes
  saved : Bool
  finishedAt : ℚ

structure TokenProcessed where
  chain : String
  interval : Interval
  scannedAt : ℚ
  address : String
  symbol : String
  filterPassed : Bool
  filterReason : FilterReason
  scoreTotal : Option ℤ
  scoreBreakdown : Option Breakdown
  signalEmitted : Bool
  signalLevel : Option Level
  cooldownSkipped : Bool
  deriving DecidableEq

/-- The events that are published and the alerts that are sent, as far as `send_alpha` returns. -/
inductive Output
  | trendingFetched (chain : String) (interval : Interval) (tokenCount : ℕ) (durationMs : ℚ)
    (success : Bool)
  | tokenSecurityChecked (chain address symbol : String) (durationMs : ℚ) (success : Bool)
  | tokenProcessed (row : TokenProcessed)
  | chainScanCompleted (chain : String) (interval : Interval) (totalDurationMs : ℚ)
    (tokenCount signalCount : ℕ)
  | alert (signal : AlphaSignal) (sentAt : ℚ)
  deriving DecidableEq

/-- The settings of a `ScannerOrchestrator`. -/
structure ScannerOrchestrator where
  chains : List String
  scorer : AlphaScorer
  cooldown : Cooldown.Config
  interval1hSeconds : ℤ

/-- The two loads of the snapshot store. Only a one minute scan loads the snapshot of the hour. -/
def load (interval : Interval) (input : ScanInput) :
    Option (Option Snapshot × Option Snapshot) :=
  match input.previous, interval, input.previousHour with
  | .raised, _, _ => none
  | .returned prev, .oneHour, _ => some (prev, none)
  | .returned _, .oneMinute, .raised => none
  | .returned prev, .oneMinute, .returned hour => some (prev, hour)

/-- The tokens after `also_in_1h` has been set on those that the snapshot of the hour lists. -/
def flagged (hour : Option Snapshot) (tokens : List TrendingToken) : List TrendingToken :=
  match hour with
  | none => tokens
  | some snapshot =>
    tokens.map fun t =>
      if t.address ∈ snapshot.tokens.map (·.address) then { t with alsoIn1h := true } else t

/-- The addresses whose risk is fetched, with their symbols. The first token of an address
decides. -/
def securityTasks : List String → List TrendingToken → List (String × String)
  | _, [] => []
  | seen, t :: ts =>
    if t.address ∈ seen then securityTasks seen ts
    else if t.liquidity.any fun l => l < 100000 then
      (t.address, t.symbol) :: securityTasks (t.address :: seen) ts
    else securityTasks (t.address :: seen) ts

def securityChecked (chain : String) (security : String → SecurityReply) (task : String × String) :
    Option Output :=
  let reply := security task.1
  match reply.result with
  | .raised => none
  | .returned risk => some (.tokenSecurityChecked chain task.1 task.2
      ((reply.finishedAt - reply.startedAt) * 1000) risk.isSome)

def collectRisks (security : String → SecurityReply) (tasks : List (String × String)) :
    Dict String TokenRisk :=
  Dict.ofPairs (tasks.filterMap fun task =>
    match (security task.1).result with
    | .returned (some risk) => some (task.1, risk)
    | _ => none)

/-- What the loop over the tokens reads. -/
structure Scan where
  chain : String
  interval : Interval
  scannedAt : ℚ
  prev : Option Snapshot
  curr : Snapshot
  risks : Dict String TokenRisk

/-- The scan of the listed tokens. `t0` is set again for each security task. -/
def scan (chain : String) (interval : Interval) (input : ScanInput) (tokens : List TrendingToken)
    (prev hour : Option Snapshot) : Scan :=
  let tasks := securityTasks [] tokens
  { chain := chain
    interval := interval
    scannedAt := (tasks.getLast?.map fun task => (input.security task.1).startedAt).getD
      input.startedAt
    prev := prev
    curr := ⟨chain, interval, flagged hour tokens, input.takenAt⟩
    risks := collectRisks input.security tasks }

/-- `prev_map`. -/
def Scan.prevMap (s : Scan) : Dict String TrendingToken :=
  match s.prev with
  | none => Dict.empty
  | some snapshot => byAddress snapshot.tokens

/-- `signal_map`. -/
def signalMap (signals : List AlphaSignal) : Dict String AlphaSignal :=
  Dict.ofPairs (signals.map fun sig => (sig.token.token.address, sig))

/-- What the loop does with one token: the alert, if it sends one, and the row. -/
structure Turn where
  cooldown : CooldownManager
  alert : Option (AlphaSignal × ℚ)
  row : TokenProcessed

def Turn.outputs (t : Turn) : List Output :=
  (t.alert.map fun a => .alert a.1 a.2).toList ++ [.tokenProcessed t.row]

/-- The score of a signal after the decay. -/
def decayed (scoreTotal : Option ℤ) (decay : Float) : Except PyError (Option ℤ) :=
  if decay < 1.0 then do
    let total ← PyFloat.ofInt (scoreTotal.getD 0)
    return some (← PyFloat.toInt (total * decay))
  else .ok scoreTotal

/-- The score of a token that passes the filter. -/
def ownScore (o : ScannerOrchestrator) (s : Scan) (token : TrendingToken) :
    Except PyError (Option ScoredToken) :=
  let risk := s.risks.get? token.address
  if (hardFilter o.scorer token risk).passed then
    some <$> score token (s.prevMap.get? token.address) risk
  else .ok none

/-- The row of a token that has no signal. -/
def quietRow (o : ScannerOrchestrator) (s : Scan) (token : TrendingToken)
    (scored : Option ScoredToken) : TokenProcessed :=
  let fr := hardFilter o.scorer token (s.risks.get? token.address)
  { chain := s.chain
    interval := s.interval
    scannedAt := s.scannedAt
    address := token.address
    symbol := token.symbol
    filterPassed := fr.passed
    filterReason := fr.reason
    scoreTotal := scored.map (·.score)
    scoreBreakdown := scored.map (·.breakdown)
    signalEmitted := false
    signalLevel := none
    cooldownSkipped := false }

/-- What a call gives the caller, or that its exception leaves the caller. -/
def Reply.get {α : Type} : Reply α → Except PyError α
  | .returned value => .ok value
  | .raised => .error .exception

/-- The body of the loop. -/
def processToken (o : ScannerOrchestrator) (s : Scan) (signals : List AlphaSignal)
    (m : CooldownManager) (token : TrendingToken) (times : TokenTimes) : Except PyError Turn := do
  let scored ← ownScore o s token
  let row := quietRow o s token scored
  match (signalMap signals).get? token.address with
  | none => return ⟨m, none, row⟩
  | some sig =>
    if isCooling times.checked m token.address then
      return ⟨m, none, { row with cooldownSkipped := true }⟩
    else
      let scoreTotal ← decayed row.scoreTotal (decayFactor m token.address)
      times.alerted.get
      return ⟨mark o.cooldown times.marked token.address sig.level m, some (sig, times.sent),
        { row with signalEmitted := true, signalLevel := some sig.level, scoreTotal := scoreTotal }⟩

/-- What the loop has done when it ends, and whether it came to the end of the list. -/
structure Done where
  cooldown : CooldownManager
  outputs : List Output
  completed : Bool

def processTokens (o : ScannerOrchestrator) (s : Scan) (signals : List AlphaSignal) :
    CooldownManager → List (TrendingToken × TokenTimes) → Done
  | m, [] => ⟨m, [], true⟩
  | m, (token, times) :: rest =>
    match processToken o s signals m token times with
    | .error _ => ⟨m, [], false⟩
    | .ok turn =>
      let later := processTokens o s signals turn.cooldown rest
      ⟨later.cooldown, turn.outputs ++ later.outputs, later.completed⟩

theorem processTokens_of_error {o : ScannerOrchestrator} {s : Scan} {signals : List AlphaSignal}
    {m : CooldownManager} {token : TrendingToken} {times : TokenTimes} {e : PyError}
    (h : processToken o s signals m token times = .error e)
    (rest : List (TrendingToken × TokenTimes)) :
    processTokens o s signals m ((token, times) :: rest) = ⟨m, [], false⟩ := by
  rw [processTokens, h]

theorem processTokens_of_ok {o : ScannerOrchestrator} {s : Scan} {signals : List AlphaSignal}
    {m : CooldownManager} {token : TrendingToken} {times : TokenTimes} {turn : Turn}
    (h : processToken o s signals m token times = .ok turn)
    (rest : List (TrendingToken × TokenTimes)) :
    processTokens o s signals m ((token, times) :: rest) =
      let later := processTokens o s signals turn.cooldown rest
      ⟨later.cooldown, turn.outputs ++ later.outputs, later.completed⟩ := by
  rw [processTokens, h]

/-- The tokens of the loop and the times at which it comes to them. -/
def turns (s : Scan) (times : ℕ → TokenTimes) : List (TrendingToken × TokenTimes) :=
  s.curr.tokens.mapIdx fun i token => (token, times i)

/-- `_run_chain`: the cooldown that it leaves, and what it publishes and sends. -/
def runChain (o : ScannerOrchestrator) (chain : String) (interval : Interval) (input : ScanInput)
    (m : CooldownManager) : CooldownManager × List Output :=
  match input.fetched with
  | .raised => (m, [])
  -- `len(tokens)` raises before the event is published
  | .returned none => (m, [])
  | .returned (some tokens) =>
    let fetched := Output.trendingFetched chain interval tokens.length
      ((input.fetchedAt - input.startedAt) * 1000) (tokens ≠ [])
    if tokens = [] then (m, [fetched])
    else
      match load interval input with
      | none => (m, [fetched])
      | some (prev, hour) =>
        let s := scan chain interval input tokens prev hour
        let checked := (securityTasks [] tokens).filterMap (securityChecked chain input.security)
        match detect o.scorer s.prev s.curr s.risks with
        | .error _ => (m, fetched :: checked)
        | .ok signals =>
          let done := processTokens o s signals m (turns s input.times)
          let completed := Output.chainScanCompleted chain interval
            ((input.finishedAt - s.scannedAt) * 1000) tokens.length signals.length
          (done.cooldown, fetched :: checked ++ done.outputs ++
            if done.completed && input.saved then [completed] else [])

/-! ### What one scan does -/

/-- What a scan has published when it comes to its loop. -/
def beforeLoop (chain : String) (interval : Interval) (input : ScanInput)
    (tokens : List TrendingToken) : List Output :=
  .trendingFetched chain interval tokens.length ((input.fetchedAt - input.startedAt) * 1000)
      (tokens ≠ []) ::
    (securityTasks [] tokens).filterMap (securityChecked chain input.security)

/-- What a scan publishes after its loop. -/
def afterLoop (chain : String) (interval : Interval) (input : ScanInput) (s : Scan)
    (signals : List AlphaSignal) (count : ℕ) (completed : Bool) : List Output :=
  if completed && input.saved then
    [.chainScanCompleted chain interval ((input.finishedAt - s.scannedAt) * 1000) count
      signals.length]
  else []

/-- The scan comes to its loop with these tokens, snapshots and signals. -/
structure Loops (o : ScannerOrchestrator) (chain : String) (interval : Interval)
    (input : ScanInput) (tokens : List TrendingToken) (prev hour : Option Snapshot)
    (signals : List AlphaSignal) : Prop where
  fetched : input.fetched = .returned (some tokens)
  listed : tokens ≠ []
  loaded : load interval input = some (prev, hour)
  detected : detect o.scorer (scan chain interval input tokens prev hour).prev
    (scan chain interval input tokens prev hour).curr
    (scan chain interval input tokens prev hour).risks = .ok signals

/-- The scan stops before its loop: at the fetch, for want of a list, at an empty list, at a
snapshot that does not load, or at a score that overflows. -/
inductive Stops (o : ScannerOrchestrator) (chain : String) (interval : Interval)
    (input : ScanInput) : List Output → Prop
  | raised (h : input.fetched = .raised) : Stops o chain interval input []
  | missing (h : input.fetched = .returned none) : Stops o chain interval input []
  | empty (h : input.fetched = .returned (some [])) :
    Stops o chain interval input ((beforeLoop chain interval input []).take 1)
  | unloaded {tokens : List TrendingToken} (hf : input.fetched = .returned (some tokens))
    (hl : load interval input = none) :
    Stops o chain interval input ((beforeLoop chain interval input tokens).take 1)
  | overflowed {tokens : List TrendingToken} {prev hour : Option Snapshot} {e : PyError}
    (hf : input.fetched = .returned (some tokens)) (hl : load interval input = some (prev, hour))
    (hd : detect o.scorer (scan chain interval input tokens prev hour).prev
      (scan chain interval input tokens prev hour).curr
      (scan chain interval input tokens prev hour).risks = .error e) :
    Stops o chain interval input (beforeLoop chain interval input tokens)

section Scans

variable {o : ScannerOrchestrator} {chain : String} {interval : Interval} {input : ScanInput}
  {tokens : List TrendingToken} {prev hour : Option Snapshot} {signals : List AlphaSignal}
  {outputs : List Output}

theorem Loops.runChain_eq (h : Loops o chain interval input tokens prev hour signals)
    (m : CooldownManager) :
    let s := scan chain interval input tokens prev hour
    let done := processTokens o s signals m (turns s input.times)
    runChain o chain interval input m =
      (done.cooldown, beforeLoop chain interval input tokens ++ done.outputs ++
        afterLoop chain interval input s signals tokens.length done.completed) := by
  intro s done
  simp only [runChain, h.fetched, if_neg h.listed, h.loaded, h.detected]
  rfl

/-- A scan stops before its loop, with the cooldown that it found, or comes to it. -/
theorem runChain_inv (o : ScannerOrchestrator) (chain : String) (interval : Interval)
    (input : ScanInput) :
    (∃ outputs, Stops o chain interval input outputs ∧
        ∀ m, runChain o chain interval input m = (m, outputs)) ∨
      ∃ tokens prev hour signals, Loops o chain interval input tokens prev hour signals := by
  cases hf : input.fetched with
  | raised => exact .inl ⟨_, .raised hf, fun m => by simp only [runChain, hf]⟩
  | returned fetched =>
    cases fetched with
    | none => exact .inl ⟨_, .missing hf, fun m => by simp only [runChain, hf]⟩
    | some tokens =>
      by_cases hne : tokens = []
      · subst hne
        exact .inl ⟨_, .empty hf, fun m => by
          simp only [runChain, hf]
          rfl⟩
      · cases hl : load interval input with
        | none =>
          exact .inl ⟨_, .unloaded hf hl, fun m => by
            simp only [runChain, hf, if_neg hne, hl]
            rfl⟩
        | some loaded =>
          obtain ⟨prev, hour⟩ := loaded
          cases hd : detect o.scorer (scan chain interval input tokens prev hour).prev
              (scan chain interval input tokens prev hour).curr
              (scan chain interval input tokens prev hour).risks with
          | error e =>
            exact .inl ⟨_, .overflowed hf hl hd, fun m => by
              simp only [runChain, hf, if_neg hne, hl, hd]
              rfl⟩
          | ok signals => exact .inr ⟨tokens, prev, hour, signals, hf, hne, hl, hd⟩

/-- A scan that stops has published a part of what it would have before its loop. -/
theorem Stops.sublist (h : Stops o chain interval input outputs) :
    ∃ tokens, outputs.Sublist (beforeLoop chain interval input tokens) := by
  cases h with
  | raised | missing => exact ⟨[], List.nil_sublist _⟩
  | empty => exact ⟨[], List.take_sublist _ _⟩
  | @unloaded tokens => exact ⟨tokens, List.take_sublist _ _⟩
  | @overflowed tokens => exact ⟨tokens, List.Sublist.refl _⟩

/-- A scan that stops does not come to its loop. -/
theorem Stops.not_loops (h : Stops o chain interval input outputs) :
    ¬Loops o chain interval input tokens prev hour signals := by
  intro hloops
  cases h with
  | raised hf | missing hf => cases hf.symm.trans hloops.fetched
  | empty hf =>
    cases hf.symm.trans hloops.fetched
    exact hloops.listed rfl
  | unloaded hf hl => cases hl.symm.trans hloops.loaded
  | overflowed hf hl hd =>
    cases hf.symm.trans hloops.fetched
    cases hl.symm.trans hloops.loaded
    cases hd.symm.trans hloops.detected

theorem eq_of_mem_securityChecked {security : String → SecurityReply}
    {tasks : List (String × String)} {out : Output}
    (h : out ∈ tasks.filterMap (securityChecked chain security)) :
    ∃ address symbol ms success, out = .tokenSecurityChecked chain address symbol ms success := by
  obtain ⟨task, -, htask⟩ := List.mem_filterMap.mp h
  unfold securityChecked at htask
  cases hr : (security task.1).result with
  | raised =>
    simp only [hr] at htask
    cases htask
  | returned risk =>
    simp only [hr] at htask
    cases htask
    exact ⟨_, _, _, _, rfl⟩

/-- What is published before the loop: the fetch, and the security checks. -/
theorem mem_beforeLoop {out : Output} (h : out ∈ beforeLoop chain interval input tokens) :
    (∃ count ms success, out = .trendingFetched chain interval count ms success) ∨
      ∃ address symbol ms success,
        out = .tokenSecurityChecked chain address symbol ms success := by
  rcases List.mem_cons.mp h with rfl | h
  · exact .inl ⟨_, _, _, rfl⟩
  · exact .inr (eq_of_mem_securityChecked h)

/-- What is published after the loop: the completed scan. -/
theorem mem_afterLoop {s : Scan} {count : ℕ} {completed : Bool} {out : Output}
    (h : out ∈ afterLoop chain interval input s signals count completed) :
    ∃ ms signalCount, out = .chainScanCompleted chain interval ms count signalCount := by
  unfold afterLoop at h
  split at h
  · exact ⟨_, _, List.mem_singleton.mp h⟩
  · cases h

end Scans

/-! ### The rows of a scan -/

/-- The signal that a listed token has by itself. -/
def ownSignal (o : ScannerOrchestrator) (s : Scan) (token : TrendingToken) : Option AlphaSignal :=
  match s.prev with
  | none => none
  | some _ => (signal o.scorer s.prevMap s.risks s.curr token).toOption.join

/-- The last of the listed tokens' own signals for an address. -/
def lastSignal (o : ScannerOrchestrator) (s : Scan) (address : String) : Option AlphaSignal :=
  (s.curr.tokens.filterMap (ownSignal o s)).reverse.find? fun sig =>
    sig.token.token.address = address

variable {o : ScannerOrchestrator} {s : Scan} {signals : List AlphaSignal} {m : CooldownManager}
  {token : TrendingToken} {times : TokenTimes}

theorem signals_eq (h : detect o.scorer s.prev s.curr s.risks = .ok signals) :
    signals = s.curr.tokens.filterMap (ownSignal o s) := by
  unfold ownSignal Scan.prevMap
  cases hp : s.prev with
  | none =>
    rw [hp] at h
    cases h
    simp
  | some p =>
    rw [hp] at h
    obtain ⟨found, hf, rfl⟩ := detect_eq_ok.mp h
    simp only
    clear h
    generalize s.curr.tokens = tokens at hf
    induction hf with
    | nil => rfl
    | @cons t sig ts sigs ht _ ih =>
      rw [List.filterMap_cons, ht]
      cases sig with
      | none => exact ih
      | some sig => exact congrArg (sig :: ·) ih

theorem signalMap_get? (h : detect o.scorer s.prev s.curr s.risks = .ok signals)
    (address : String) : (signalMap signals).get? address = lastSignal o s address := by
  rw [signalMap, Dict.get?_ofPairs, lastSignal, ← signals_eq h, ← List.map_reverse,
    List.find?_map, Option.map_map]
  show Option.map id _ = _
  rw [Option.map_id]
  rfl

theorem ownScore_of_passed
    (h : (hardFilter o.scorer token (s.risks.get? token.address)).passed = true) :
    ownScore o s token =
      some <$> score token (s.prevMap.get? token.address) (s.risks.get? token.address) := if_pos h

theorem ownScore_of_not_passed
    (h : ¬(hardFilter o.scorer token (s.risks.get? token.address)).passed = true) :
    ownScore o s token = .ok none := if_neg h

/-- No score overflows in the loop when none does in `detect`. -/
theorem ownScore_eq_ok (h : detect o.scorer s.prev s.curr s.risks = .ok signals)
    (ht : token ∈ s.curr.tokens) : ∃ scored, ownScore o s token = .ok scored := by
  by_cases hpassed : (hardFilter o.scorer token (s.risks.get? token.address)).passed = true
  · rw [ownScore_of_passed hpassed]
    cases hp : s.prev with
    | none =>
      obtain ⟨scored, hs⟩ := score_of_no_prev token (s.risks.get? token.address)
      have hprev : s.prevMap.get? token.address = none := by
        simp [Scan.prevMap, hp]
      rw [hprev]
      exact ⟨some scored, map_eq_ok.mpr ⟨scored, hs, rfl⟩⟩
    | some p =>
      rw [hp] at h
      obtain ⟨found, hf, -⟩ := detect_eq_ok.mp h
      obtain ⟨i, hi, hget⟩ := List.mem_iff_getElem.mp ht
      have hsig := hf.get hi (hf.length_eq ▸ hi)
      simp only [List.get_eq_getElem, hget, signal, hpassed, if_true] at hsig
      obtain ⟨scored, hs, -⟩ := bind_eq_ok.mp hsig
      have hmap : s.prevMap = byAddress p.tokens := by simp [Scan.prevMap, hp]
      rw [hmap]
      exact ⟨some scored, map_eq_ok.mpr ⟨scored, hs, rfl⟩⟩
  · exact ⟨none, ownScore_of_not_passed hpassed⟩

/-- A token has an own score when it passes the filter. -/
theorem ownScore_isSome {scored : Option ScoredToken} (h : ownScore o s token = .ok scored) :
    scored.isSome = (hardFilter o.scorer token (s.risks.get? token.address)).passed := by
  by_cases hpassed : (hardFilter o.scorer token (s.risks.get? token.address)).passed = true
  · rw [ownScore_of_passed hpassed] at h
    obtain ⟨x, -, rfl⟩ := map_eq_ok.mp h
    exact hpassed.symm
  · rw [ownScore_of_not_passed hpassed] at h
    cases h
    simpa using hpassed

theorem ownScore_total {scored : ScoredToken} (h : ownScore o s token = .ok (some scored)) :
    scored.score = scored.breakdown.total := by
  have hpassed := (ownScore_isSome h).symm
  rw [ownScore_of_passed hpassed] at h
  obtain ⟨x, hx, hs⟩ := map_eq_ok.mp h
  cases hs
  exact score_total hx

/-- The level of a token's own signal is the level of its own score. -/
theorem ownSignal_level (hp : s.prev.isSome) {scored : Option ScoredToken}
    (h : ownScore o s token = .ok scored) :
    (ownSignal o s token).map (·.level) = scored.bind fun x => level o.scorer x.score := by
  obtain ⟨p, hp⟩ := Option.isSome_iff_exists.mp hp
  by_cases hpassed : (hardFilter o.scorer token (s.risks.get? token.address)).passed = true
  · rw [ownScore_of_passed hpassed] at h
    obtain ⟨x, hx, rfl⟩ := map_eq_ok.mp h
    simp only [ownSignal, hp, signal, hpassed, if_true, hx]
    show Option.map _ (Option.map _ (level o.scorer x.score)) = level o.scorer x.score
    rw [Option.map_map]
    exact Option.map_id'
  · rw [ownScore_of_not_passed hpassed] at h
    cases h
    simp only [ownSignal, hp, signal, if_neg hpassed]
    rfl

/-- A score of an address that has been marked `hits` times, after the decay. -/
def lowered (hits : ℕ) (score : ℤ) : ℤ :=
  if 3 ≤ hits then 3 * score / 10 else if hits = 2 then 3 * score / 5 else score

/-- The product with a factor is rounded, but not across an integer. -/
theorem scaled_eq {score : ℤ} (hlow : 0 ≤ score) (hhigh : score ≤ 100) :
    (PyFloat.ofInt score >>= fun x => PyFloat.toInt (x * 0.6)) = .ok (3 * score / 5) ∧
    (PyFloat.ofInt score >>= fun x => PyFloat.toInt (x * 0.3)) = .ok (3 * score / 10) := by
  have htable : ∀ k : Fin 101,
      (PyFloat.ofInt (k : ℕ) >>= fun x => PyFloat.toInt (x * 0.6)).toOption =
        some (3 * (k : ℤ) / 5) ∧
      (PyFloat.ofInt (k : ℕ) >>= fun x => PyFloat.toInt (x * 0.3)).toOption =
        some (3 * (k : ℤ) / 10) := by
    decide +kernel
  obtain ⟨k, rfl⟩ : ∃ k : Fin 101, score = (k : ℕ) :=
    ⟨⟨score.toNat, by omega⟩, by simp only; omega⟩
  obtain ⟨hsix, hthree⟩ := htable k
  exact ⟨toOption_eq_some.mp hsix, toOption_eq_some.mp hthree⟩

theorem decayed_eq {total : Option ℤ} (htotal : ∀ n, total = some n → 0 ≤ n ∧ n ≤ 100)
    (m : CooldownManager) (a : String) :
    decayed total (decayFactor m a) =
      .ok (if hits m a < 2 then total else some (lowered (hits m a) (total.getD 0))) := by
  have hrange : 0 ≤ total.getD 0 ∧ total.getD 0 ≤ 100 := by
    cases total with
    | none => simp
    | some n => exact htotal n rfl
  obtain ⟨hsix, hthree⟩ := scaled_eq hrange.1 hrange.2
  have hbelow : ∀ {f : Float} {n : ℤ}, f < 1.0 →
      (PyFloat.ofInt (total.getD 0) >>= fun x => PyFloat.toInt (x * f)) = .ok n →
      decayed total f = .ok (some n) := by
    intro f n hf hn
    obtain ⟨x, hx, hxn⟩ := bind_eq_ok.mp hn
    rw [decayed, if_pos hf, hx]
    show (PyFloat.toInt (x * f) >>= _) = _
    rw [hxn]
    rfl
  unfold decayFactor lowered
  by_cases hmany : 3 ≤ hits m a
  · rw [if_pos hmany, if_neg (by omega), if_pos hmany]
    exact hbelow (by decide +kernel) hthree
  · rw [if_neg hmany, if_neg hmany]
    by_cases htwo : hits m a = 2
    · rw [if_pos htwo, if_neg (by omega), if_pos htwo]
      exact hbelow (by decide +kernel) hsix
    · rw [if_neg htwo, if_pos (by omega), decayed, if_neg (by decide +kernel)]

/-- A score between 0 and 100 has a decayed score. -/
theorem decayed_eq_ok {total : Option ℤ} (htotal : ∀ n, total = some n → 0 ≤ n ∧ n ≤ 100)
    (m : CooldownManager) (address : String) :
    ∃ t, decayed total (decayFactor m address) = .ok t ∧ (total.isSome → t.isSome) := by
  refine ⟨_, decayed_eq htotal m address, ?_⟩
  split
  · exact id
  · exact fun _ => rfl

/-! ### When the rows of a scan are consistent -/

/-- What a row says agrees with itself: with its own filter, and with the level of its own score,
which is the sum of its breakdown. -/
structure TokenProcessed.Consistent (cfg : AlphaScorer) (row : TokenProcessed) : Prop where
  scored : row.signalEmitted ∨ row.cooldownSkipped → row.filterPassed ∧ row.scoreTotal.isSome
  exclusive : ¬(row.signalEmitted ∧ row.cooldownSkipped)
  levelled : row.signalLevel.isSome ↔ row.signalEmitted
  own : ∀ l, row.signalLevel = some l →
    ∃ b, row.scoreBreakdown = some b ∧ level cfg b.total = some l

def Output.row? : Output → Option TokenProcessed
  | .tokenProcessed row => some row
  | _ => none

/-- The `TokenProcessed` events of a log. -/
def rows (outputs : List Output) : List TokenProcessed := outputs.filterMap Output.row?

theorem rows_append (outputs later : List Output) :
    rows (outputs ++ later) = rows outputs ++ rows later :=
  List.filterMap_append

/-- The rows are those of the listed tokens, one each and in order, and they are consistent. -/
def RowsMatch (cfg : AlphaScorer) : List TrendingToken → List TokenProcessed → Prop :=
  List.Forall₂ fun token row =>
    row.address = token.address ∧ row.symbol = token.symbol ∧ row.Consistent cfg

/-- The signal that the address of a token has, from the last token of that address, suits the token
itself: it passes the filter and, unless it is cooling, it has a signal of the same level, and the
alert goes out. -/
def Agreed (o : ScannerOrchestrator) (s : Scan) (m : CooldownManager)
    (turn : TrendingToken × TokenTimes) : Prop :=
  ∀ sig, lastSignal o s turn.1.address = some sig →
    (hardFilter o.scorer turn.1 (s.risks.get? turn.1.address)).passed ∧
      (isCooling turn.2.checked m turn.1.address ∨
        (ownSignal o s turn.1).map (·.level) = some sig.level ∧ turn.2.alerted = .returned ())

theorem processToken_eq (o : ScannerOrchestrator) (s : Scan) (signals : List AlphaSignal)
    (m : CooldownManager) (times : TokenTimes) {scored : Option ScoredToken}
    (h : ownScore o s token = .ok scored) :
    processToken o s signals m token times =
      match (signalMap signals).get? token.address with
      | none => .ok ⟨m, none, quietRow o s token scored⟩
      | some sig =>
        if isCooling times.checked m token.address then
          .ok ⟨m, none, { quietRow o s token scored with cooldownSkipped := true }⟩
        else (do
          let total ← decayed (quietRow o s token scored).scoreTotal (decayFactor m token.address)
          times.alerted.get
          return ⟨mark o.cooldown times.marked token.address sig.level m, some (sig, times.sent),
            { quietRow o s token scored with
              signalEmitted := true, signalLevel := some sig.level, scoreTotal := total }⟩) := by
  unfold processToken
  rw [h]
  rfl

theorem lastSignal_eq_none (h : s.prev = none) (address : String) :
    lastSignal o s address = none := by
  simp [lastSignal, ownSignal, h]

theorem quietRow_consistent (scored : Option ScoredToken) :
    (quietRow o s token scored).Consistent o.scorer :=
  ⟨by simp [quietRow], by simp [quietRow], by simp [quietRow], by simp [quietRow]⟩

/-- The row of a token that is cooling says that the token passed the filter, and has its score. -/
theorem skipped_consistent_iff {scored : Option ScoredToken}
    (hs : ownScore o s token = .ok scored) :
    TokenProcessed.Consistent o.scorer
        { quietRow o s token scored with cooldownSkipped := true } ↔
      (hardFilter o.scorer token (s.risks.get? token.address)).passed := by
  constructor
  · intro hc
    exact (hc.scored (.inr rfl)).1
  · intro hp
    refine ⟨fun _ => ⟨hp, ?_⟩, by simp [quietRow], by simp [quietRow], by simp [quietRow]⟩
    simp only [quietRow, Option.isSome_map]
    rwa [ownScore_isSome hs]

/-- The row of a token with an alert says that the token passed the filter, and has a score of the
alert's level. -/
theorem alerted_consistent_iff {scored : Option ScoredToken} {l : Level} {total : Option ℤ}
    (hs : ownScore o s token = .ok scored)
    (hsome : (quietRow o s token scored).scoreTotal.isSome → total.isSome) :
    TokenProcessed.Consistent o.scorer { quietRow o s token scored with
        signalEmitted := true, signalLevel := some l, scoreTotal := total } ↔
      (hardFilter o.scorer token (s.risks.get? token.address)).passed ∧
        (scored.bind fun x => level o.scorer x.score) = some l := by
  constructor
  · intro hc
    obtain ⟨hp, -⟩ := hc.scored (.inl rfl)
    obtain ⟨b, hb, hl⟩ := hc.own l rfl
    obtain ⟨x, rfl, rfl⟩ := Option.map_eq_some_iff.mp hb
    refine ⟨hp, ?_⟩
    rw [Option.bind_some, ownScore_total hs]
    exact hl
  · rintro ⟨hp, hl⟩
    obtain ⟨x, rfl, hx⟩ := Option.bind_eq_some_iff.mp hl
    refine ⟨fun _ => ⟨hp, hsome rfl⟩, by simp [quietRow], by simp, ?_⟩
    intro l' hl'
    cases hl'
    rw [ownScore_total hs] at hx
    exact ⟨x.breakdown, rfl, hx⟩

/-- The loop comes to an end with every token whose alert goes out, and the row is consistent when
the token suits the signal of its address. -/
theorem processToken_spec (h : detect o.scorer s.prev s.curr s.risks = .ok signals)
    (ht : token ∈ s.curr.tokens) (m : CooldownManager) (times : TokenTimes) :
    (∃ turn, processToken o s signals m token times = .ok turn ∧
        turn.row.address = token.address ∧ turn.row.symbol = token.symbol ∧
        (turn.row.Consistent o.scorer ↔ Agreed o s m (token, times))) ∨
      (∃ e, processToken o s signals m token times = .error e) ∧ ¬Agreed o s m (token, times) := by
  obtain ⟨scored, hs⟩ := ownScore_eq_ok h ht
  have hlast := signalMap_get? h token.address
  rw [processToken_eq o s signals m times hs]
  unfold Agreed
  rw [← hlast]
  cases hsig : (signalMap signals).get? token.address with
  | none =>
    refine .inl ⟨_, rfl, rfl, rfl, ?_⟩
    exact iff_of_true (quietRow_consistent scored) fun sig hsig => nomatch hsig
  | some sig =>
    have hprev : s.prev.isSome := by
      cases hp : s.prev with
      | none =>
        rw [lastSignal_eq_none hp, hsig] at hlast
        cases hlast
      | some p => rfl
    simp only [Option.some.injEq, forall_eq']
    by_cases hcool : isCooling times.checked m token.address
    · rw [if_pos hcool]
      refine .inl ⟨_, rfl, rfl, rfl, ?_⟩
      rw [skipped_consistent_iff hs]
      simp [hcool]
    · rw [if_neg hcool]
      have hrange : ∀ n, (quietRow o s token scored).scoreTotal = some n → 0 ≤ n ∧ n ≤ 100 := by
        intro n hn
        obtain ⟨x, rfl, rfl⟩ := Option.map_eq_some_iff.mp hn
        rw [ownScore_total hs]
        exact ⟨x.breakdown.total_nonneg, x.breakdown.total_le⟩
      obtain ⟨total, htotal, hsome⟩ := decayed_eq_ok hrange m token.address
      rw [htotal]
      cases halerted : times.alerted with
      | raised =>
        refine .inr ⟨⟨_, rfl⟩, ?_⟩
        simp [hcool]
      | returned value =>
        refine .inl ⟨_, rfl, rfl, rfl, ?_⟩
        rw [alerted_consistent_iff hs hsome, ownSignal_level hprev hs]
        simp [hcool]

/-- One turn of the loop, for what it leaves of the cooldown. -/
def turnStep (o : ScannerOrchestrator) (s : Scan) (signals : List AlphaSignal)
    (m : CooldownManager) (turn : TrendingToken × TokenTimes) : Option CooldownManager :=
  (processToken o s signals m turn.1 turn.2).toOption.map (·.cooldown)

theorem rows_outputs (turn : Turn) (outputs : List Output) :
    rows (turn.outputs ++ outputs) = turn.row :: rows outputs := by
  obtain ⟨m, alert, row⟩ := turn
  cases alert <;> rfl

theorem processTokens_rows (h : detect o.scorer s.prev s.curr s.risks = .ok signals)
    (m : CooldownManager) {ts : List (TrendingToken × TokenTimes)}
    (hts : ∀ t ∈ ts, t.1 ∈ s.curr.tokens) :
    RowsMatch o.scorer (ts.map Prod.fst) (rows (processTokens o s signals m ts).outputs) ↔
      Meets (turnStep o s signals) (Agreed o s) m ts := by
  induction ts generalizing m with
  | nil => exact ⟨fun _ => trivial, fun _ => .nil⟩
  | cons t ts ih =>
    rcases processToken_spec h (hts t List.mem_cons_self) m t.2 with
      ⟨turn, hturn, haddress, hsymbol, hrow⟩ | ⟨⟨e, herror⟩, hnot⟩
    swap
    · -- The alert does not go out: there is no row, and there are no later turns.
      rw [processTokens_of_error herror]
      exact iff_of_false (fun hall => nomatch hall) fun hmeets => hnot hmeets.1
    have hstep : turnStep o s signals m t = some turn.cooldown := by
      simp [turnStep, hturn, Except.toOption]
    have hrest := ih turn.cooldown fun u hu => hts u (List.mem_cons_of_mem t hu)
    simp only [processTokens, hturn, rows_outputs, List.map_cons, RowsMatch,
      List.forall₂_cons, meets_cons_of_step hstep]
    rw [← hrest, hrow]
    constructor
    · rintro ⟨⟨-, -, hagreed⟩, hmatch⟩
      exact ⟨hagreed, hmatch⟩
    · rintro ⟨hagreed, hmatch⟩
      exact ⟨⟨haddress, hsymbol, hagreed⟩, hmatch⟩

theorem ownSignal_eq_some {sig : AlphaSignal} (h : ownSignal o s token = some sig) :
    (hardFilter o.scorer token (s.risks.get? token.address)).passed ∧
      sig.token.token = token ∧ sig.chain = s.curr.chain := by
  unfold ownSignal at h
  split at h
  · cases h
  · by_cases hpassed : (hardFilter o.scorer token (s.risks.get? token.address)).passed = true
    · refine ⟨hpassed, ?_⟩
      simp only [signal, hpassed, if_true] at h
      cases hs : score token (s.prevMap.get? token.address) (s.risks.get? token.address) with
      | error e =>
        rw [hs] at h
        cases h
      | ok scored =>
        rw [hs] at h
        obtain ⟨l, -, rfl⟩ := Option.map_eq_some_iff.mp h
        exact ⟨score_token hs, rfl⟩
    · simp only [signal, if_neg hpassed] at h
      cases h

/-- A token's own signal has its own score. -/
theorem ownScore_of_ownSignal {sig : AlphaSignal} (h : ownSignal o s token = some sig) :
    ownScore o s token = .ok (some sig.token) := by
  have hpassed := (ownSignal_eq_some h).1
  rw [ownScore_of_passed hpassed]
  unfold ownSignal at h
  split at h
  · cases h
  · simp only [signal, hpassed, if_true] at h
    cases hs : score token (s.prevMap.get? token.address) (s.risks.get? token.address) with
    | error e =>
      rw [hs] at h
      cases h
    | ok scored =>
      rw [hs] at h
      obtain ⟨l, -, rfl⟩ := Option.map_eq_some_iff.mp h
      rfl

/-- The signal of an address that is listed once is the own signal of its token. -/
theorem ownSignal_of_nodup (hnodup : (s.curr.tokens.map (·.address)).Nodup)
    (ht : token ∈ s.curr.tokens) {sig : AlphaSignal}
    (h : lastSignal o s token.address = some sig) : ownSignal o s token = some sig := by
  have hmem := List.mem_reverse.mp (List.mem_of_find?_eq_some h)
  obtain ⟨other, hother, hown⟩ := List.mem_filterMap.mp hmem
  have haddress : other.address = token.address := by
    have := List.find?_some h
    rw [← (ownSignal_eq_some hown).2.1]
    simpa using this
  rwa [List.inj_on_of_nodup_map hnodup hother ht haddress] at hown

/-- A token whose address is listed once suits the signal of its address, which is its own, if the
alert goes out. -/
theorem agreed_of_nodup (hnodup : (s.curr.tokens.map (·.address)).Nodup)
    {turn : TrendingToken × TokenTimes} (ht : turn.1 ∈ s.curr.tokens)
    (halerted : turn.2.alerted = .returned ()) (m : CooldownManager) : Agreed o s m turn := by
  intro sig hsig
  have hown := ownSignal_of_nodup hnodup ht hsig
  exact ⟨(ownSignal_eq_some hown).1, .inr ⟨by rw [hown]; rfl, halerted⟩⟩

theorem flagged_eq_map (hour : Option Snapshot) (tokens : List TrendingToken) :
    ∃ f : TrendingToken → TrendingToken, flagged hour tokens = tokens.map f ∧
      ∀ t, (f t).address = t.address ∧ (f t).symbol = t.symbol := by
  cases hour with
  | none => exact ⟨id, (List.map_id tokens).symm, fun t => ⟨rfl, rfl⟩⟩
  | some snapshot =>
    refine ⟨_, rfl, ?_⟩
    intro t
    split
    · exact ⟨rfl, rfl⟩
    · exact ⟨rfl, rfl⟩

theorem RowsMatch.consistent {cfg : AlphaScorer} {tokens : List TrendingToken}
    {rs : List TokenProcessed} (h : RowsMatch cfg tokens rs) : ∀ row ∈ rs, row.Consistent cfg := by
  induction h with
  | nil =>
    intro row hrow
    cases hrow
  | cons h _ ih =>
    intro row hrow
    rcases List.mem_cons.mp hrow with rfl | hrow
    · exact h.2.2
    · exact ih row hrow

theorem rowsMatch_flagged (cfg : AlphaScorer) (hour : Option Snapshot)
    (tokens : List TrendingToken) (rs : List TokenProcessed) :
    RowsMatch cfg (flagged hour tokens) rs ↔ RowsMatch cfg tokens rs := by
  obtain ⟨f, hf, hsame⟩ := flagged_eq_map hour tokens
  rw [hf, RowsMatch, List.forall₂_map_left_iff]
  simp only [(hsame _).1, (hsame _).2]

theorem map_fst_turns (s : Scan) (times : ℕ → TokenTimes) :
    (turns s times).map Prod.fst = s.curr.tokens := by
  apply List.ext_getElem
  · simp [turns]
  · intro i h₁ h₂
    simp [turns]

theorem rows_securityChecked (chain : String) (security : String → SecurityReply)
    (tasks : List (String × String)) :
    rows (tasks.filterMap (securityChecked chain security)) = [] := by
  rw [rows, List.filterMap_eq_nil_iff]
  intro out hout
  obtain ⟨_, _, _, _, rfl⟩ := eq_of_mem_securityChecked hout
  rfl

theorem rows_beforeLoop (chain : String) (interval : Interval) (input : ScanInput)
    (tokens : List TrendingToken) : rows (beforeLoop chain interval input tokens) = [] :=
  rows_securityChecked chain input.security (securityTasks [] tokens)

/-- The rows of a scan that comes to its loop are the rows of its loop. -/
theorem Loops.rows_runChain {chain : String} {interval : Interval} {input : ScanInput}
    {tokens : List TrendingToken} {prev hour : Option Snapshot}
    (h : Loops o chain interval input tokens prev hour signals) (m : CooldownManager) :
    let s := scan chain interval input tokens prev hour
    rows (runChain o chain interval input m).2 =
      rows (processTokens o s signals m (turns s input.times)).outputs := by
  intro s
  have hafter : ∀ count completed,
      rows (afterLoop chain interval input s signals count completed) = [] := by
    intro count completed
    rw [rows, List.filterMap_eq_nil_iff]
    intro out hout
    obtain ⟨_, _, rfl⟩ := mem_afterLoop hout
    rfl
  rw [h.runChain_eq, rows_append, rows_append, rows_beforeLoop, hafter, List.nil_append,
    List.append_nil]

theorem Stops.rows_eq {chain : String} {interval : Interval} {input : ScanInput}
    {outputs : List Output} (h : Stops o chain interval input outputs) : rows outputs = [] := by
  obtain ⟨tokens, hsub⟩ := h.sublist
  have hrows := hsub.filterMap Output.row?
  rwa [← rows, ← rows, rows_beforeLoop, List.sublist_nil] at hrows

/-- The rows of a loop are those of the listed tokens and consistent exactly when, turn after turn,
each token suits the signal that its address has. -/
theorem rowsMatch_processTokens (o : ScannerOrchestrator) (chain : String) (interval : Interval)
    (input : ScanInput) (tokens : List TrendingToken) (prev hour : Option Snapshot)
    (m : CooldownManager) {signals : List AlphaSignal} :
    let s := scan chain interval input tokens prev hour
    detect o.scorer s.prev s.curr s.risks = .ok signals →
      (RowsMatch o.scorer tokens
        (rows (processTokens o s signals m (turns s input.times)).outputs) ↔
        Meets (turnStep o s signals) (Agreed o s) m (turns s input.times)) := by
  intro s h
  have hts : ∀ t ∈ turns s input.times, t.1 ∈ s.curr.tokens := by
    intro t ht
    rw [← map_fst_turns s input.times]
    exact List.mem_map_of_mem ht
  rw [← processTokens_rows h m hts, map_fst_turns]
  exact (rowsMatch_flagged o.scorer hour tokens _).symm

/-- Without tokens there are no rows and no turns. -/
theorem runChain_rows_iff_nil (o : ScannerOrchestrator) (chain : String) {interval : Interval}
    {input : ScanInput} {prev hour : Option Snapshot} (m : CooldownManager)
    (hf : input.fetched = .returned (some [])) :
    let s := scan chain interval input [] prev hour
    RowsMatch o.scorer [] (rows (runChain o chain interval input m).2) ↔
      ∃ signals, detect o.scorer s.prev s.curr s.risks = .ok signals ∧
        Meets (turnStep o s signals) (Agreed o s) m (turns s input.times) := by
  intro s
  have hcurr : s.curr.tokens = [] := by
    obtain ⟨f, hmap, -⟩ := flagged_eq_map hour []
    exact hmap
  have hrun : rows (runChain o chain interval input m).2 = [] := by
    simp [runChain, hf, rows, Output.row?]
  have hdetect : detect o.scorer s.prev s.curr s.risks = .ok [] := by
    cases hp : s.prev with
    | none => rfl
    | some p => exact detect_eq_ok.mpr ⟨[], by rw [hcurr]; exact .nil, rfl⟩
  rw [hrun]
  constructor
  · intro _
    refine ⟨[], hdetect, ?_⟩
    rw [turns, hcurr]
    trivial
  · intro _
    exact .nil

/-- The rows of a scan are those of the listed tokens and consistent exactly when no score overflows
and, turn after turn, each token suits the signal that its address has. -/
theorem runChain_rows_iff (o : ScannerOrchestrator) (chain : String) {interval : Interval}
    {input : ScanInput} {tokens : List TrendingToken} {prev hour : Option Snapshot}
    (m : CooldownManager) (hf : input.fetched = .returned (some tokens))
    (hl : load interval input = some (prev, hour)) :
    let s := scan chain interval input tokens prev hour
    RowsMatch o.scorer tokens (rows (runChain o chain interval input m).2) ↔
      ∃ signals, detect o.scorer s.prev s.curr s.risks = .ok signals ∧
        Meets (turnStep o s signals) (Agreed o s) m (turns s input.times) := by
  intro s
  have hmatch := @rowsMatch_processTokens o chain interval input tokens prev hour m
  by_cases hne : tokens = []
  · subst hne
    exact runChain_rows_iff_nil o chain m hf
  · rcases runChain_inv o chain interval input with
      ⟨outputs, hstops, hrun⟩ | ⟨_, _, _, signals, hloops⟩
    · rw [hrun, hstops.rows_eq]
      constructor
      · intro h
        exact absurd (List.forall₂_nil_right_iff.mp h) hne
      · rintro ⟨signals, hd, -⟩
        exact absurd ⟨hf, hne, hl, hd⟩ hstops.not_loops
    · cases hf.symm.trans hloops.fetched
      cases hl.symm.trans hloops.loaded
      rw [hloops.rows_runChain]
      constructor
      · intro h
        exact ⟨signals, hloops.detected, (hmatch hloops.detected).mp h⟩
      · rintro ⟨signals', hd, hm⟩
        cases hloops.detected.symm.trans hd
        exact (hmatch hd).mpr hm

theorem meets_of_nodup (hnodup : (s.curr.tokens.map (·.address)).Nodup) (m : CooldownManager)
    {ts : List (TrendingToken × TokenTimes)}
    (hts : ∀ t ∈ ts, t.1 ∈ s.curr.tokens ∧ t.2.alerted = .returned ()) :
    Meets (turnStep o s signals) (Agreed o s) m ts := by
  induction ts generalizing m with
  | nil => trivial
  | cons t ts ih =>
    obtain ⟨ht, halerted⟩ := hts t List.mem_cons_self
    exact ⟨agreed_of_nodup hnodup ht halerted m,
      fun m' _ => ih m' fun u hu => hts u (List.mem_cons_of_mem t hu)⟩

/-- A listed token that scores by its `smart_degen_count` and its rank. -/
def sampleToken (address : String) (liquidity : Float) (smartDegenCount rank : ℤ) :
    TrendingToken where
  address := address
  symbol := address
  name := address
  priceUsd := 1
  volume1m := none
  volume1h := none
  marketCap := none
  liquidity := some liquidity
  smartDegenCount := some smartDegenCount
  rank := rank
  chain := "sol"
  alsoIn1h := false

/-- A one minute scan of `tokens` after `before`, in which no time passes. -/
def sampleInput (before tokens : List TrendingToken) : ScanInput where
  startedAt := 60
  fetched := .returned (some tokens)
  fetchedAt := 60
  takenAt := 60
  previous := .returned (some ⟨"sol", .oneMinute, before, 0⟩)
  previousHour := .returned none
  security := fun _ => ⟨60, 60, .returned none⟩
  times := fun _ => ⟨60, 60, 60, .returned ()⟩
  saved := true
  finishedAt := 60

def sampleOrchestrator : ScannerOrchestrator := ⟨["sol"], .default, .default, 300⟩

/-- Two tokens of different addresses, of which the first has a signal. -/
theorem runChain_rows_iff_two_tokens :
    let tokens := [sampleToken "A" 200000 10 1, sampleToken "B" 200000 0 60]
    RowsMatch .default tokens (rows (runChain sampleOrchestrator "sol" .oneMinute
      (sampleInput [sampleToken "A" 200000 5 50] tokens) Cooldown.init).2) := by
  intro tokens
  let s := scan "sol" .oneMinute (sampleInput [sampleToken "A" 200000 5 50] tokens) tokens
    (some ⟨"sol", .oneMinute, [sampleToken "A" 200000 5 50], 0⟩) none
  have hd : (detect .default s.prev s.curr s.risks).toOption.isSome := by decide +kernel
  have hts : ∀ t ∈ turns s (fun _ => ⟨60, 60, 60, .returned ()⟩),
      t.1 ∈ s.curr.tokens ∧ t.2.alerted = .returned () := by
    intro t ht
    obtain ⟨i, hi, rfl⟩ := List.mem_mapIdx.mp ht
    exact ⟨List.getElem_mem hi, rfl⟩
  cases hsignals : detect .default s.prev s.curr s.risks with
  | error e =>
    rw [hsignals] at hd
    cases hd
  | ok signals =>
    exact (runChain_rows_iff sampleOrchestrator "sol" Cooldown.init rfl rfl).mpr
      ⟨signals, hsignals, meets_of_nodup (by decide +kernel) Cooldown.init hts⟩

/-- The list names one address twice. Its first token does not pass the filter, and has the alert of
the second. -/
theorem repeated_address_mismatch :
    let tokens := [sampleToken "A" 40000 10 1, sampleToken "A" 200000 10 1]
    ¬RowsMatch .default tokens (rows (runChain sampleOrchestrator "sol" .oneMinute
      (sampleInput [sampleToken "A" 200000 5 50] tokens) Cooldown.init).2) := by
  intro tokens h
  have hrow : ∃ row ∈ rows (runChain sampleOrchestrator "sol" .oneMinute
      (sampleInput [sampleToken "A" 200000 5 50] tokens) Cooldown.init).2,
      row.signalEmitted = true ∧ row.filterPassed = false := by
    decide +kernel
  obtain ⟨row, hmem, hemitted, hfailed⟩ := hrow
  have hpassed := ((h.consistent row hmem).scored (.inl hemitted)).1
  rw [hfailed] at hpassed
  cases hpassed

end ChainMonitor.Orchestrator
