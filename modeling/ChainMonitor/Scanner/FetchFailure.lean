import ChainMonitor.Resilience.Executor
import ChainMonitor.Scanner.Runs

/-! `ScannerOrchestrator._run_chain` of `scanner/orchestrator.py` on what
`GmgnClient.fetch_trending` gives it, which is what `ResilientExecutor.execute` gives its caller: a
list, or `None`. -/

namespace ChainMonitor.Orchestrator

open ProofKit Detector Cooldown

/-- One call of `_run_chain`: the cooldown that it leaves, the snapshot that it stores, what it
publishes and sends, and how it ends. -/
structure ChainRun where
  cooldown : CooldownManager
  stored : Option Snapshot
  outputs : List Output
  ends : Reply Unit

/-- The snapshot with which a scan of listed tokens comes to `save`. -/
def toSave (o : ScannerOrchestrator) (chain : String) (interval : Interval) (input : ScanInput)
    (tokens : List TrendingToken) (m : CooldownManager) : Option Snapshot :=
  match load interval input with
  | none => none
  | some (prev, hour) =>
    let s := scan chain interval input tokens prev hour
    match detect o.scorer s.prev s.curr s.risks with
    | .error _ => none
    | .ok signals =>
      if (processTokens o s signals m (turns s input.times)).completed then some s.curr else none

/-- `_run_chain` on what `fetch_trending` gives it. -/
def runFetched (o : ScannerOrchestrator) (chain : String) (interval : Interval) (input : ScanInput)
    (m : CooldownManager) : Option (List TrendingToken) → ChainRun
  -- `len(tokens)` raises before the event is published
  | none => ⟨m, none, [], .raised⟩
  | some tokens =>
    let input := { input with fetched := .returned (some tokens) }
    let run := runChain o chain interval input m
    if tokens = [] then ⟨run.1, none, run.2, .returned ()⟩
    else
      match toSave o chain interval input tokens m with
      | none => ⟨run.1, none, run.2, .raised⟩
      | some snapshot =>
        if input.saved then ⟨run.1, some snapshot, run.2, .returned ()⟩
        else ⟨run.1, none, run.2, .raised⟩

/-- Tokens were obtained. -/
def obtained (fetched : Option (List TrendingToken)) : Bool := fetched.any (· ≠ [])

def Output.isFetched : Output → Bool
  | .trendingFetched .. => true
  | _ => false

/-- The call publishes one `TrendingFetched`, which says whether tokens were obtained; and where
none were, it returns and changes nothing. -/
structure Reported (chain : String) (interval : Interval) (m : CooldownManager)
    (fetched : Option (List TrendingToken)) (run : ChainRun) : Prop where
  event : ∃ count ms, run.outputs.filter Output.isFetched =
    [.trendingFetched chain interval count ms (obtained fetched)]
  quiet : obtained fetched = false →
    run.ends = .returned () ∧ run.cooldown = m ∧ run.stored = none ∧ alerts run.outputs = []

variable {o : ScannerOrchestrator} {s : Scan} {signals : List AlphaSignal} {m : CooldownManager}

theorem fetched_outputs (turn : Turn) : turn.outputs.filter Output.isFetched = [] := by
  obtain ⟨m, alert, row⟩ := turn
  cases alert <;> rfl

theorem fetched_processTokens {ts : List (TrendingToken × TokenTimes)} :
    (processTokens o s signals m ts).outputs.filter Output.isFetched = [] := by
  induction ts generalizing m with
  | nil => rfl
  | cons t ts ih =>
    obtain ⟨token, times⟩ := t
    cases hturn : processToken o s signals m token times with
    | error e => rw [processTokens_of_error hturn]; rfl
    | ok turn =>
      rw [processTokens_of_ok hturn]
      show (turn.outputs ++ _).filter _ = _
      rw [List.filter_append, fetched_outputs, ih]
      rfl

theorem fetched_securityChecked (chain : String) (security : String → SecurityReply)
    (tasks : List (String × String)) :
    (tasks.filterMap (securityChecked chain security)).filter Output.isFetched = [] := by
  rw [List.filter_eq_nil_iff]
  intro out hout
  obtain ⟨_, _, _, _, rfl⟩ := eq_of_mem_securityChecked hout
  simp [Output.isFetched]

/-- A scan that gets a list publishes one `TrendingFetched`. -/
theorem fetched_runChain {chain : String} {interval : Interval} {input : ScanInput}
    {tokens : List TrendingToken} (hf : input.fetched = .returned (some tokens)) :
    (runChain o chain interval input m).2.filter Output.isFetched =
      [.trendingFetched chain interval tokens.length
        ((input.fetchedAt - input.startedAt) * 1000) (tokens ≠ [])] := by
  have hbefore : (beforeLoop chain interval input tokens).filter Output.isFetched =
      [.trendingFetched chain interval tokens.length
        ((input.fetchedAt - input.startedAt) * 1000) (tokens ≠ [])] := by
    rw [beforeLoop, List.filter_cons_of_pos rfl, fetched_securityChecked]
  rcases runChain_inv o chain interval input with
    ⟨outputs, hstops, hrun⟩ | ⟨_, prev, hour, signals, hloops⟩
  · rw [hrun]
    cases hstops with
    | raised h | missing h => cases hf.symm.trans h
    | empty h =>
      cases hf.symm.trans h
      rfl
    | unloaded h hl =>
      cases hf.symm.trans h
      rfl
    | overflowed h hl hd =>
      cases hf.symm.trans h
      exact hbefore
  · cases hf.symm.trans hloops.fetched
    have hafter : ∀ s count completed,
        (afterLoop chain interval input s signals count completed).filter Output.isFetched =
          [] := by
      intro s count completed
      rw [List.filter_eq_nil_iff]
      intro out hout
      obtain ⟨_, _, rfl⟩ := mem_afterLoop hout
      simp [Output.isFetched]
    rw [hloops.runChain_eq, List.filter_append, List.filter_append, hbefore, fetched_processTokens,
      hafter]
    rfl

theorem runFetched_outputs {chain : String} {interval : Interval} {input : ScanInput}
    (tokens : List TrendingToken) :
    (runFetched o chain interval input m (some tokens)).outputs =
      (runChain o chain interval { input with fetched := .returned (some tokens) } m).2 := by
  unfold runFetched
  simp only
  split
  · rfl
  · split
    · rfl
    · split <;> rfl

/-- A fetch is reported when it gives a list. -/
theorem reported_iff {chain : String} {interval : Interval} {input : ScanInput}
    (fetched : Option (List TrendingToken)) :
    Reported chain interval m fetched (runFetched o chain interval input m fetched) ↔
      fetched ≠ none := by
  cases fetched with
  | none =>
    constructor
    · rintro ⟨⟨count, ms, hevent⟩, -⟩
      cases hevent
    · intro h
      exact absurd rfl h
  | some tokens =>
    refine ⟨fun _ => by simp, fun _ => ⟨?_, ?_⟩⟩
    · rw [runFetched_outputs, fetched_runChain rfl]
      exact ⟨_, _, rfl⟩
    · intro hnone
      obtain rfl : tokens = [] := by simpa [obtained] using hnone
      exact ⟨rfl, rfl, rfl, rfl⟩

/-- A call of `_run_chain` reports any result of `fetch_trending` but `None`. In every state of the
executor these are the results of the calls that both gates let in and that an attempt ends with a
list. -/
theorem fetch_reported_iff (o : ScannerOrchestrator) (chain : String) (interval : Interval)
    (input : ScanInput) (m : CooldownManager) :
    (∀ fetched, Reported chain interval m fetched (runFetched o chain interval input m fetched) ↔
      fetched ≠ none) ∧
    ∀ {ε : Type} (cfg : Executor.Config ε) (s : Executor.System (List TrendingToken) ε) e fetched,
      Executor.delivers cfg s e = some (.ok fetched) →
      (Reported chain interval m fetched (runFetched o chain interval input m fetched) ↔
        ∃ i tokens, e.act = .finish i (.value tokens)) := by
  refine ⟨reported_iff, ?_⟩
  intro ε cfg s e fetched hd
  rw [reported_iff, Executor.delivers_value_iff hd]

/-- A call is let in, and its attempt waits for `gmgn-cli`. -/
def attempting : List (Executor.Event (List TrendingToken) Executor.GmgnError) :=
  [⟨0, 0, .execute⟩, ⟨0, 0, .pass 0⟩]

def attemptingState : Executor.System (List TrendingToken) Executor.GmgnError where
  clock := 0
  backoff := Backoff.init
  bucket := ⟨4, 0⟩
  admissions := ⟨CircuitBreaker.init, [⟨.calling 1, false, 0⟩], 0, []⟩

theorem exec_attempting : exec (Executor.step Executor.gmgn) (Executor.created Executor.gmgn 0)
    attempting = some attemptingState := by
  decide +kernel

/-- `gmgn-cli` answers with an empty list. -/
theorem fetch_reported_iff_empty :
    Reported "sol" .oneMinute Cooldown.init (some [])
      (runFetched sampleOrchestrator "sol" .oneMinute (sampleInput [] []) Cooldown.init
        (some [])) :=
  ((fetch_reported_iff sampleOrchestrator "sol" .oneMinute (sampleInput [] []) Cooldown.init).2
    Executor.gmgn attemptingState ⟨1, 1, .finish 0 (.value [])⟩ (some []) (by decide +kernel)).mpr
    ⟨0, [], rfl⟩

/-- `gmgn-cli` times out in the only attempt, and `_run_chain` raises. -/
theorem exhausted_fetch_raises : ¬ ∀ (o : ScannerOrchestrator) (chain : String)
    (interval : Interval) (input : ScanInput) (m : CooldownManager)
    (cfg : Executor.Config Executor.GmgnError) (t₀ : ℚ)
    (es : List (Executor.Event (List TrendingToken) Executor.GmgnError)) s e fetched,
    exec (Executor.step cfg) (Executor.created cfg t₀) es = some s →
    Executor.delivers cfg s e = some (.ok fetched) →
    Reported chain interval m fetched (runFetched o chain interval input m fetched) := by
  intro h
  have hnone : Executor.delivers Executor.gmgn attemptingState
      ⟨30, 30, .finish 0 (.exception .timeoutError)⟩ = some (.ok none) := by
    decide +kernel
  have hreported := h sampleOrchestrator "sol" .oneMinute (sampleInput [] []) Cooldown.init
    Executor.gmgn 0 attempting attemptingState _ none exec_attempting hnone
  exact (reported_iff none).mp hreported rfl

end ChainMonitor.Orchestrator
