import ChainMonitor.ProofKit.Clock
import ChainMonitor.Scanner.FetchFailure

/-! The times that a scan of `scanner/orchestrator.py` reports: when it started, and how long it
took. -/

namespace ChainMonitor.Orchestrator

open ProofKit Detector Cooldown

/-- When each security task is awaited and when it answers. -/
def awaits (input : ScanInput) (tokens : List TrendingToken) : List (ℚ × ℚ) :=
  (securityTasks [] tokens).map fun task =>
    ((input.security task.1).startedAt, (input.security task.1).finishedAt)

/-- The time that the scan spends awaiting security tasks. -/
def awaited (input : ScanInput) (tokens : List TrendingToken) : ℚ :=
  ((awaits input tokens).map fun s => s.2 - s.1).sum

/-- The times that a scan reports are those of the whole scan. -/
structure CoversScan (input : ScanInput) (tokens : List TrendingToken) (outputs : List Output) :
    Prop where
  scannedAt : ∀ row ∈ rows outputs, row.scannedAt = input.startedAt
  total : ∀ chain interval ms count signalCount,
    .chainScanCompleted chain interval ms count signalCount ∈ outputs →
    ms = (input.finishedAt - input.startedAt) * 1000
  parts : ∀ chain interval ms count signalCount chain' interval' fetchMs count' success,
    .chainScanCompleted chain interval ms count signalCount ∈ outputs →
    .trendingFetched chain' interval' count' fetchMs success ∈ outputs →
    fetchMs + awaited input tokens * 1000 ≤ ms

variable {o : ScannerOrchestrator} {s : Scan} {signals : List AlphaSignal} {m : CooldownManager}
  {token : TrendingToken} {times : TokenTimes}

/-! ### What a completed scan publishes -/

theorem row_scannedAt {turn : Turn} (h : processToken o s signals m token times = .ok turn) :
    turn.row.scannedAt = s.scannedAt := by
  obtain ⟨scored, hs, -⟩ := bind_eq_ok.mp h
  rw [processToken_eq o s signals m times hs] at h
  cases hsig : (signalMap signals).get? token.address with
  | none =>
    rw [hsig] at h
    cases h
    rfl
  | some sig =>
    rw [hsig] at h
    by_cases hcool : isCooling times.checked m token.address
    · simp only [hcool, if_true] at h
      cases h
      rfl
    · simp only [if_neg hcool] at h
      obtain ⟨total, -, hsent⟩ := bind_eq_ok.mp h
      obtain ⟨-, -, hturn⟩ := bind_eq_ok.mp hsent
      cases hturn
      rfl

theorem scannedAt_processTokens {ts : List (TrendingToken × TokenTimes)} :
    ∀ row ∈ rows (processTokens o s signals m ts).outputs, row.scannedAt = s.scannedAt := by
  induction ts generalizing m with
  | nil =>
    intro row hrow
    cases hrow
  | cons t ts ih =>
    obtain ⟨token, times⟩ := t
    intro row hrow
    cases hturn : processToken o s signals m token times with
    | error e =>
      rw [processTokens_of_error hturn] at hrow
      cases hrow
    | ok turn =>
      rw [processTokens_of_ok hturn] at hrow
      simp only [rows_outputs, List.mem_cons] at hrow
      rcases hrow with rfl | hrow
      · exact row_scannedAt hturn
      · exact ih row hrow

theorem not_completed_outputs {turn : Turn} {chain : String} {interval : Interval} {ms : ℚ}
    {count signalCount : ℕ} :
    .chainScanCompleted chain interval ms count signalCount ∉ turn.outputs := by
  obtain ⟨m, alert, row⟩ := turn
  cases alert <;> simp [Turn.outputs]

theorem not_completed_processTokens {ts : List (TrendingToken × TokenTimes)} {chain : String}
    {interval : Interval} {ms : ℚ} {count signalCount : ℕ} :
    .chainScanCompleted chain interval ms count signalCount ∉
      (processTokens o s signals m ts).outputs := by
  induction ts generalizing m with
  | nil => exact List.not_mem_nil
  | cons t ts ih =>
    obtain ⟨token, times⟩ := t
    cases hturn : processToken o s signals m token times with
    | error e =>
      rw [processTokens_of_error hturn]
      exact List.not_mem_nil
    | ok turn =>
      rw [processTokens_of_ok hturn]
      intro hmem
      rcases List.mem_append.mp hmem with hmem | hmem
      · exact not_completed_outputs hmem
      · exact ih hmem

variable {chain : String} {interval : Interval} {input : ScanInput} {tokens : List TrendingToken}

/-- A scan of listed tokens that returns has loaded its snapshots, has scored its tokens, and has
come through its loop. -/
theorem runFetched_returned (hne : tokens ≠ [])
    (h : (runFetched o chain interval input m (some tokens)).ends = .returned ()) :
    ∃ prev hour signals, load interval input = some (prev, hour) ∧
      let s := scan chain interval input tokens prev hour
      detect o.scorer s.prev s.curr s.risks = .ok signals ∧
      (processTokens o s signals m (turns s input.times)).completed = true ∧
      input.saved = true := by
  unfold runFetched at h
  simp only [if_neg hne] at h
  cases hsave : toSave o chain interval { input with fetched := .returned (some tokens) } tokens
      m with
  | none =>
    rw [hsave] at h
    cases h
  | some snapshot =>
    rw [hsave] at h
    have hsaved : input.saved = true := by
      cases hs : input.saved with
      | true => rfl
      | false =>
        simp only [hs] at h
        cases h
    unfold toSave at hsave
    have hload : load interval { input with fetched := .returned (some tokens) } =
        load interval input := rfl
    rw [hload] at hsave
    cases hl : load interval input with
    | none =>
      rw [hl] at hsave
      cases hsave
    | some loaded =>
      obtain ⟨prev, hour⟩ := loaded
      rw [hl] at hsave
      dsimp only at hsave
      have hscan : scan chain interval { input with fetched := .returned (some tokens) } tokens
          prev hour = scan chain interval input tokens prev hour := rfl
      rw [hscan] at hsave
      cases hd : detect o.scorer (scan chain interval input tokens prev hour).prev
          (scan chain interval input tokens prev hour).curr
          (scan chain interval input tokens prev hour).risks with
      | error e =>
        rw [hd] at hsave
        cases hsave
      | ok signals =>
        rw [hd] at hsave
        refine ⟨prev, hour, signals, rfl, hd, ?_, hsaved⟩
        by_contra hnot
        simp only [if_neg hnot] at hsave
        cases hsave

/-- What a completed scan publishes and sends. -/
theorem runFetched_outputs_completed (hne : tokens ≠ []) {prev hour : Option Snapshot}
    {signals : List AlphaSignal} (hl : load interval input = some (prev, hour))
    (hd : let s := scan chain interval input tokens prev hour
      detect o.scorer s.prev s.curr s.risks = .ok signals)
    (hcompleted : (processTokens o (scan chain interval input tokens prev hour) signals m
      (turns (scan chain interval input tokens prev hour) input.times)).completed = true)
    (hsaved : input.saved = true) :
    let s := scan chain interval input tokens prev hour
    (runFetched o chain interval input m (some tokens)).outputs =
      .trendingFetched chain interval tokens.length
          ((input.fetchedAt - input.startedAt) * 1000) (tokens ≠ []) ::
        (securityTasks [] tokens).filterMap (securityChecked chain input.security) ++
        (processTokens o s signals m (turns s input.times)).outputs ++
        [.chainScanCompleted chain interval ((input.finishedAt - s.scannedAt) * 1000) tokens.length
          signals.length] := by
  intro s
  have hloops : Loops o chain interval { input with fetched := .returned (some tokens) } tokens
      prev hour signals := ⟨rfl, hne, hl, hd⟩
  have hafter : afterLoop chain interval { input with fetched := .returned (some tokens) } s signals
      tokens.length (processTokens o s signals m (turns s input.times)).completed =
      [.chainScanCompleted chain interval ((input.finishedAt - s.scannedAt) * 1000) tokens.length
        signals.length] := by
    rw [afterLoop, if_pos (by rw [hcompleted, hsaved]; rfl)]
  rw [runFetched_outputs, hloops.runChain_eq]
  exact congrArg (beforeLoop chain interval input tokens ++
    (processTokens o s signals m (turns s input.times)).outputs ++ ·) hafter

/-- A completed scan reports the time that its clock variable holds, in its rows and in the one
`ChainScanCompleted`. -/
structure ReportsFrom (start : ℚ) (input : ScanInput) (outputs : List Output) : Prop where
  scannedAt : ∀ row ∈ rows outputs, row.scannedAt = start
  completed : ∃ chain interval ms count signalCount,
    .chainScanCompleted chain interval ms count signalCount ∈ outputs
  total : ∀ chain interval ms count signalCount,
    .chainScanCompleted chain interval ms count signalCount ∈ outputs →
    ms = (input.finishedAt - start) * 1000

theorem reportsFrom_outputs {start ms : ℚ} {count count' signalCount : ℕ} {success : Bool}
    {loop : List Output} (hrows : ∀ row ∈ rows loop, row.scannedAt = start)
    (hloop : ∀ chain interval ms count signalCount,
      .chainScanCompleted chain interval ms count signalCount ∉ loop) :
    ReportsFrom start input (.trendingFetched chain interval count ms success ::
      (securityTasks [] tokens).filterMap (securityChecked chain input.security) ++ loop ++
      [.chainScanCompleted chain interval ((input.finishedAt - start) * 1000) count'
        signalCount]) := by
  have hchecked := rows_securityChecked chain input.security (securityTasks [] tokens)
  refine ⟨?_, ⟨_, _, _, _, _, List.mem_append_right _ List.mem_cons_self⟩, ?_⟩
  · intro row hrow
    unfold rows at hchecked hrow
    rw [List.filterMap_append, List.filterMap_append, List.filterMap_cons, hchecked] at hrow
    rcases List.mem_append.mp hrow with hrow | hrow
    · exact hrows row hrow
    · cases hrow
  · intro c i ms' count signalCount hmem
    rcases List.mem_append.mp hmem with hmem | hmem
    · rcases List.mem_append.mp hmem with hmem | hmem
      · rcases List.mem_cons.mp hmem with hmem | hmem
        · cases hmem
        · obtain ⟨_, _, _, _, heq⟩ := eq_of_mem_securityChecked hmem
          cases heq
      · exact absurd hmem (hloop _ _ _ _ _)
    · cases List.mem_singleton.mp hmem
      rfl

/-! ### When they are the times of the whole scan -/

/-- When the last security task is awaited, if there is one. -/
def lastAwait (input : ScanInput) (tokens : List TrendingToken) : Option ℚ :=
  (securityTasks [] tokens).getLast?.map fun task => (input.security task.1).startedAt

/-- The clock that is read last before the loop gives the time of the scan. -/
theorem scannedAt_eq_iff {prev hour : Option Snapshot} :
    (scan chain interval input tokens prev hour).scannedAt = input.startedAt ↔
      ∀ t, lastAwait input tokens = some t → t = input.startedAt := by
  show (lastAwait input tokens).getD input.startedAt = input.startedAt ↔ _
  cases lastAwait input tokens with
  | none => simp
  | some t => simp

theorem fetchMs_of_mem {chain' : String} {interval' : Interval} {count : ℕ} {ms : ℚ}
    {success : Bool} (h : .trendingFetched chain' interval' count ms success ∈
      (runFetched o chain interval input m (some tokens)).outputs) :
    ms = (input.fetchedAt - input.startedAt) * 1000 := by
  rw [runFetched_outputs] at h
  have hmem := List.mem_filter.mpr ⟨h, show Output.isFetched _ = true from rfl⟩
  rw [fetched_runChain rfl] at hmem
  cases List.mem_singleton.mp hmem
  rfl

/-- The fetch and the awaited tasks are no longer than the scan. -/
theorem parts_le
    (hclock : (Job.readings ⟨chain, interval,
      { input with fetched := .returned (some tokens) }⟩).Pairwise (· ≤ ·)) :
    (input.fetchedAt - input.startedAt) * 1000 + awaited input tokens * 1000 ≤
      (input.finishedAt - input.startedAt) * 1000 := by
  have hspans : (input.fetchedAt :: (awaits input tokens).flatMap (fun s => [s.1, s.2]) ++
      [input.finishedAt]).Pairwise (· ≤ ·) := by
    refine hclock.sublist ?_
    show List.Sublist _ (input.startedAt :: input.fetchedAt :: input.takenAt :: _ ++ _ ++ _)
    rw [awaits, List.flatMap_map]
    refine List.Sublist.cons _ (List.Sublist.append ?_ (List.Sublist.refl _))
    exact List.Sublist.cons_cons _ (List.Sublist.cons _ (List.sublist_append_left _ _))
  have hsum := sum_spans_le hspans
  show _ + ((awaits input tokens).map fun s => s.2 - s.1).sum * 1000 ≤ _
  linarith

/-- The times that a completed scan reports are those of the whole scan exactly when no security
task was awaited, or the last one from the very start. -/
theorem coversScan_iff
    (hclock : (Job.readings ⟨chain, interval,
      { input with fetched := .returned (some tokens) }⟩).Pairwise (· ≤ ·))
    (hends : (runFetched o chain interval input m (some tokens)).ends = .returned ()) :
    CoversScan input tokens (runFetched o chain interval input m (some tokens)).outputs ↔
      ∀ t, lastAwait input tokens = some t → t = input.startedAt := by
  by_cases hne : tokens = []
  · subst hne
    have houtputs : (runFetched o chain interval input m (some [])).outputs =
        [.trendingFetched chain interval 0 ((input.fetchedAt - input.startedAt) * 1000) false] := by
      rw [runFetched_outputs]
      simp [runChain]
    rw [houtputs]
    refine ⟨fun _ t ht => ?_, fun _ => ⟨by simp [rows, Output.row?], by simp, by simp⟩⟩
    cases ht
  · obtain ⟨prev, hour, signals, hl, hd, hcompleted, hsaved⟩ := runFetched_returned hne hends
    have houtputs := runFetched_outputs_completed hne hl hd hcompleted hsaved
    have hreports : ReportsFrom (scan chain interval input tokens prev hour).scannedAt input
        (runFetched o chain interval input m (some tokens)).outputs := by
      rw [houtputs]
      exact reportsFrom_outputs scannedAt_processTokens fun _ _ _ _ _ => not_completed_processTokens
    have hstart : (scan chain interval input tokens prev hour).scannedAt = input.startedAt ↔ _ :=
      scannedAt_eq_iff
    rw [← hstart]
    constructor
    · intro hcovers
      obtain ⟨_, _, ms, _, _, hmem⟩ := hreports.completed
      have hall := hcovers.total _ _ _ _ _ hmem
      rw [hreports.total _ _ _ _ _ hmem] at hall
      linarith
    · intro hstart
      rw [hstart] at hreports
      refine ⟨hreports.scannedAt, hreports.total, ?_⟩
      intro _ _ ms _ _ _ _ fetchMs _ _ hmem hfetched
      rw [hreports.total _ _ _ _ _ hmem, fetchMs_of_mem hfetched]
      exact parts_le hclock

/-- A scan of one token. The fetch takes a second, and where the risk of the token is fetched, that
takes another one. -/
def timedInput : ScanInput :=
  { sampleInput [sampleToken "A" 200000 5 50] [] with
    fetchedAt := 61
    takenAt := 61
    security := fun _ => ⟨61, 62, .returned none⟩
    times := fun _ => ⟨62, 62, 62, .returned ()⟩
    finishedAt := 63 }

/-- The risk of a token of enough liquidity is not fetched. -/
theorem coversScan_iff_liquid :
    CoversScan timedInput [sampleToken "A" 200000 10 1]
      (runFetched sampleOrchestrator "sol" .oneMinute timedInput Cooldown.init
        (some [sampleToken "A" 200000 10 1])).outputs := by
  refine (coversScan_iff (by decide +kernel) (by decide +kernel)).mpr ?_
  intro t ht
  have hnone : lastAwait timedInput [sampleToken "A" 200000 10 1] = none := by decide +kernel
  rw [hnone] at ht
  cases ht

/-- The scan of a token of little liquidity reports the time at which its risk was awaited. -/
theorem late_start_reported :
    (Job.readings ⟨"sol", .oneMinute,
        { timedInput with
          fetched := .returned (some [sampleToken "A" 60000 10 1]) }⟩).Pairwise (· ≤ ·) ∧
      (runFetched sampleOrchestrator "sol" .oneMinute timedInput Cooldown.init
        (some [sampleToken "A" 60000 10 1])).ends = .returned () ∧
      ¬CoversScan timedInput [sampleToken "A" 60000 10 1]
        (runFetched sampleOrchestrator "sol" .oneMinute timedInput Cooldown.init
          (some [sampleToken "A" 60000 10 1])).outputs := by
  refine ⟨by decide +kernel, by decide +kernel, fun hcovers => ?_⟩
  have hlate : ∃ row ∈ rows (runFetched sampleOrchestrator "sol" .oneMinute timedInput Cooldown.init
      (some [sampleToken "A" 60000 10 1])).outputs, row.scannedAt = 61 := by
    decide +kernel
  obtain ⟨row, hrow, hat⟩ := hlate
  rw [hcovers.scannedAt row hrow] at hat
  exact absurd hat (by decide +kernel)

end ChainMonitor.Orchestrator
