import ChainMonitor.Scanner.FetchFailure
import ChainMonitor.Scanner.Notifier
import ChainMonitor.Scanner.SnapshotRuns

/-! One call of `_run_chain`, seen from the snapshot table and from the loop over the tokens. The
call only copies and compares texts, so the loop may read the table's texts under any function that
keeps them apart. What the loop then compares and stores is what the scan of the table compares and
saves. -/

namespace ChainMonitor.Orchestrator

open ProofKit Detector Cooldown
open SnapshotStore (Comparison Pydantic ScanJob ScannerSnapshots doFetchTrending lastSaved ofString)

/-! ### Views -/

/-- Some functions keep all texts apart. -/
theorem exists_text : ∃ text : PyStr → String, Function.Injective text := by
  obtain ⟨code, hcode⟩ := exists_injective_nat (List ℕ)
  have hpoints : Function.Injective (List.map CodePoint.val) :=
    List.map_injective_iff.mpr fun _ _ => CodePoint.ext
  refine ⟨fun s => .ofList (List.replicate (code (s.map CodePoint.val)) ' '), fun s t h => ?_⟩
  exact hpoints (hcode (by simpa using congrArg String.length h))

section Views

variable (text : PyStr → String)

def tokenView (t : SnapshotStore.TrendingToken) : TrendingToken where
  address := text t.address
  symbol := text t.symbol
  name := text t.name
  priceUsd := t.priceUsd
  volume1m := t.volume1m
  volume1h := t.volume1h
  marketCap := t.marketCap
  liquidity := t.liquidity
  smartDegenCount := t.smartDegenCount
  rank := t.rank
  chain := text t.chain
  alsoIn1h := t.alsoIn1h

def snapshotView (interval : Interval) (s : SnapshotStore.Snapshot) : Snapshot where
  chain := text s.chain
  interval := interval
  tokens := s.tokens.map (tokenView text)
  takenAt := s.takenAt

/-- The list that is fetched. The executor gives `None` for a call that fails. -/
def fetchView (fetched : Except PyError (List SnapshotStore.TrendingToken)) :
    Option (List TrendingToken) :=
  fetched.toOption.map (List.map (tokenView text))

def loadView (interval : Interval) :
    Except PyError (Option SnapshotStore.Snapshot) → Reply (Option Snapshot)
  | .ok snapshot => .returned (snapshot.map (snapshotView text interval))
  | .error _ => .raised

/-- The snapshots that are compared, and whether the current one is saved. -/
def comparisonView (interval : Interval) (c : Comparison) : Option Snapshot × Snapshot :=
  (c.prev.map (snapshotView text interval), snapshotView text interval c.curr)

/-- The scan reads the snapshots of the table, at the time of the job. -/
structure Reads (lax : Pydantic) (job : ScanJob) (table : ScannerSnapshots) (interval : Interval)
    (input : ScanInput) : Prop where
  named : job.interval = ofString (intervalText interval)
  previous : input.previous =
    loadView text interval (SnapshotStore.load lax job.chain job.interval table)
  previousHour : input.previousHour =
    loadView text .oneHour (SnapshotStore.load lax job.chain (ofString "1h") table)
  takenAt : input.takenAt = job.takenAt

end Views

/-- What a scan of the fetched tokens compares: the previous snapshot, and the current one. -/
def compared (chain : String) (interval : Interval) (input : ScanInput) :
    Option (List TrendingToken) → Option (Option Snapshot × Snapshot)
  | none => none
  | some tokens =>
    if tokens = [] then none
    else (load interval input).map fun loaded =>
      let s := scan chain interval input tokens loaded.1 loaded.2
      (s.prev, s.curr)

/-- What has been compared in a scan of the table. -/
def comparison? (result : Except PyError (Option Comparison)) : Option Comparison :=
  result.toOption.join

/-! ### The two scans agree -/

variable {text : PyStr → String} {T : Text} {lax : Pydantic} {job : ScanJob}
  {table : ScannerSnapshots} {interval : Interval} {input : ScanInput}

/-- The tokens are flagged by their addresses, which the view keeps apart. -/
theorem flagged_view (htext : Function.Injective text) (hour : Option SnapshotStore.Snapshot)
    (tokens : List SnapshotStore.TrendingToken) :
    flagged (hour.map (snapshotView text .oneHour)) (tokens.map (tokenView text)) =
      (SnapshotStore.flagged hour tokens).map (tokenView text) := by
  cases hour with
  | none => rfl
  | some hour =>
    have hmem : ∀ t : SnapshotStore.TrendingToken,
        (tokenView text t).address ∈ (snapshotView text .oneHour hour).tokens.map (·.address) ↔
          t.address ∈ hour.tokens.map SnapshotStore.TrendingToken.address := by
      intro t
      have hviews : (snapshotView text .oneHour hour).tokens.map (·.address) =
          (hour.tokens.map SnapshotStore.TrendingToken.address).map text := by
        simp only [snapshotView, List.map_map]
        rfl
      rw [hviews]
      exact List.mem_map_of_injective htext
    show (tokens.map (tokenView text)).map _ = (tokens.map _).map (tokenView text)
    rw [List.map_map, List.map_map]
    refine List.map_congr_left fun t _ => ?_
    show (if (tokenView text t).address ∈ _ then _ else _) = tokenView text (if _ then _ else _)
    by_cases ht : t.address ∈ hour.tokens.map SnapshotStore.TrendingToken.address
    · rw [if_pos ((hmem t).mpr ht), if_pos ht]
      rfl
    · rw [if_neg (mt (hmem t).mp ht), if_neg ht]

theorem load_view (h : Reads text lax job table interval input) :
    load interval input = (SnapshotStore.loads lax job.chain job.interval table).toOption.map
      fun l => (l.1.map (snapshotView text interval), l.2.map (snapshotView text .oneHour)) := by
  have hname : job.interval = ofString "1m" ↔ interval = .oneMinute := by
    rw [h.named, SnapshotStore.ofString_inj]
    cases interval <;> decide
  unfold load SnapshotStore.loads
  rw [h.previous, h.previousHour]
  cases SnapshotStore.load lax job.chain job.interval table with
  | error e => rfl
  | ok prev =>
    cases interval with
    | oneHour =>
      simp only [if_neg (mt hname.mp (by decide))]
      rfl
    | oneMinute =>
      simp only [if_pos (hname.mpr rfl)]
      cases SnapshotStore.load lax job.chain (ofString "1h") table with
      | error e => rfl
      | ok hour => rfl

/-- The scan of listed tokens, with what it loads. -/
theorem scan_view (htext : Function.Injective text) (h : Reads text lax job table interval input)
    (tokens : List SnapshotStore.TrendingToken) (prev hour : Option SnapshotStore.Snapshot) :
    let s := scan (text job.chain) interval input (tokens.map (tokenView text))
      (prev.map (snapshotView text interval)) (hour.map (snapshotView text .oneHour))
    s.prev = prev.map (snapshotView text interval) ∧
      s.curr = snapshotView text interval
        ⟨job.chain, job.interval, SnapshotStore.flagged hour tokens, job.takenAt⟩ := by
  refine ⟨rfl, ?_⟩
  simp only [scan, snapshotView, flagged_view htext, h.takenAt]

/-- The two scans compare the same snapshots. -/
theorem compared_view (htext : Function.Injective text)
    (h : Reads text lax job table interval input) :
    compared (text job.chain) interval input
        (fetchView text (doFetchTrending T lax job.chain job.output)) =
      (comparison? (SnapshotStore.runChain T lax job table).1).map
        (comparisonView text interval) := by
  cases hfetch : doFetchTrending T lax job.chain job.output with
  | error e =>
    simp only [SnapshotStore.runChain, hfetch]
    rfl
  | ok tokens =>
    by_cases hne : tokens = []
    · subst hne
      simp only [SnapshotStore.runChain, hfetch]
      rfl
    have hcompared : compared (text job.chain) interval input (fetchView text (.ok tokens)) =
        (SnapshotStore.loads lax job.chain job.interval table).toOption.map fun l =>
          (l.1.map (snapshotView text interval), snapshotView text interval
            ⟨job.chain, job.interval, SnapshotStore.flagged l.2 tokens, job.takenAt⟩) := by
      show (if tokens.map (tokenView text) = [] then none else _) = _
      rw [if_neg (mt List.map_eq_nil_iff.mp hne), load_view h, Option.map_map]
      simp only [Function.comp_def, scan_view htext h]
    rw [hcompared]
    cases hloads : SnapshotStore.loads lax job.chain job.interval table with
    | error e =>
      rw [SnapshotStore.runChain_of_unloaded hfetch hne hloads]
      rfl
    | ok loaded =>
      rcases SnapshotStore.runChain_of_loads hfetch hne hloads with ⟨table', -, hrun⟩ | ⟨-, hrun⟩
      · rw [hrun]
        rfl
      · rw [hrun]
        rfl

theorem runFetched_stored {o : ScannerOrchestrator} {m : CooldownManager} {chain : String}
    {tokens : List TrendingToken} (hne : tokens ≠ []) :
    (runFetched o chain interval input m (some tokens)).stored =
      if input.saved then toSave o chain interval input tokens m else none := by
  unfold runFetched
  simp only [if_neg hne]
  have hinput : toSave o chain interval { input with fetched := .returned (some tokens) } tokens m =
      toSave o chain interval input tokens m := rfl
  rw [hinput]
  cases toSave o chain interval input tokens m with
  | none => simp
  | some snapshot =>
    cases input.saved with
    | true => rfl
    | false => rfl

/-- The snapshot with which a scan comes to `save` is the one that it has compared. -/
theorem toSave_eq_some {o : ScannerOrchestrator} {m : CooldownManager} {chain : String}
    {tokens : List TrendingToken} {snapshot : Snapshot}
    (h : toSave o chain interval input tokens m = some snapshot) :
    ∃ loaded, load interval input = some loaded ∧
      snapshot = (scan chain interval input tokens loaded.1 loaded.2).curr := by
  unfold toSave at h
  cases hl : load interval input with
  | none =>
    rw [hl] at h
    cases h
  | some loaded =>
    rw [hl] at h
    dsimp only at h
    split at h
    · cases h
    · split at h
      · exact ⟨loaded, rfl, (Option.some.inj h).symm⟩
      · cases h

/-- What the loop's scan stores is what the scan of the table saves, when the one comes through its
loop if the other completes, and the database answers both alike. -/
theorem stored_view (htext : Function.Injective text)
    (h : Reads text lax job table interval input) (o : ScannerOrchestrator) (m : CooldownManager)
    (hcompletes : job.completes ↔
      ∃ tokens ∈ fetchView text (doFetchTrending T lax job.chain job.output),
        (toSave o (text job.chain) interval input tokens m).isSome)
    (hsaved : ∀ c ∈ comparison? (SnapshotStore.runChain T lax job table).1,
      (input.saved ↔
        ∃ table', SnapshotStore.save job.chain job.interval c.curr table = .ok table')) :
    (runFetched o (text job.chain) interval input m
        (fetchView text (doFetchTrending T lax job.chain job.output))).stored =
      ((comparison? (SnapshotStore.runChain T lax job table).1).filter (·.saved)).map
        fun c => snapshotView text interval c.curr := by
  cases hfetch : doFetchTrending T lax job.chain job.output with
  | error e =>
    simp only [SnapshotStore.runChain, hfetch]
    rfl
  | ok tokens =>
    by_cases hne : tokens = []
    · subst hne
      simp only [SnapshotStore.runChain, hfetch]
      rfl
    have hviews : tokens.map (tokenView text) ≠ [] := mt List.map_eq_nil_iff.mp hne
    show (runFetched o (text job.chain) interval input m (some (tokens.map _))).stored = _
    rw [runFetched_stored hviews]
    cases hloads : SnapshotStore.loads lax job.chain job.interval table with
    | error e =>
      rw [SnapshotStore.runChain_of_unloaded hfetch hne hloads]
      cases hsave : toSave o (text job.chain) interval input (tokens.map (tokenView text)) m with
      | none => exact ite_self none
      | some snapshot =>
        obtain ⟨loaded, hl, -⟩ := toSave_eq_some hsave
        rw [load_view h, hloads] at hl
        cases hl
    | ok loaded =>
      have hcomes : job.completes ↔
          (toSave o (text job.chain) interval input (tokens.map (tokenView text)) m).isSome := by
        rw [hcompletes, hfetch]
        constructor
        · rintro ⟨_, hmem, hsave⟩
          rwa [Option.some.inj hmem]
        · exact fun hsave => ⟨_, rfl, hsave⟩
      rcases SnapshotStore.runChain_of_loads hfetch hne hloads with
        ⟨table', ⟨hdone, hsave⟩, hrun⟩ | ⟨hnot, hrun⟩
      · obtain ⟨snapshot, hsnapshot⟩ := Option.isSome_iff_exists.mp (hcomes.mp hdone)
        obtain ⟨loaded', hl, hcurr⟩ := toSave_eq_some hsnapshot
        rw [load_view h, hloads] at hl
        cases hl
        rw [hrun] at hsaved
        rw [hrun, if_pos ((hsaved _ rfl).mpr ⟨table', hsave⟩), hsnapshot, hcurr,
          (scan_view htext h tokens loaded.1 loaded.2).2]
        rfl
      · rw [hrun] at hsaved
        rw [hrun]
        by_cases hs : input.saved
        · obtain ⟨table', hsave⟩ := (hsaved _ rfl).mp hs
          have hnone := mt hcomes.mpr fun hdone => hnot ⟨table', hdone, hsave⟩
          rw [if_pos hs, Option.not_isSome_iff_eq_none.mp hnone]
          rfl
        · rw [if_neg hs]
          rfl

/-- After any history of scans and clears, a scan of listed tokens compares the snapshot that was
saved last with its own. -/
theorem compared_lastSaved (htext : Function.Injective text) (acts : List SnapshotStore.Act)
    (h : Reads text lax job (SnapshotStore.run T lax acts).table interval input)
    {tokens : List SnapshotStore.TrendingToken}
    (hfetch : doFetchTrending T lax job.chain job.output = .ok tokens) (hne : tokens ≠ []) :
    let log := (SnapshotStore.run T lax acts).log
    compared (text job.chain) interval input (some (tokens.map (tokenView text))) =
      some ((lastSaved log job.chain job.interval).map (snapshotView text interval),
        snapshotView text interval (SnapshotStore.current log job tokens)) := by
  intro log
  have hview := compared_view (T := T) htext h
  rw [hfetch] at hview
  refine hview.trans ?_
  rcases SnapshotStore.runChain_cases (T := T) (SnapshotStore.remembers_run acts) job with
    ⟨hnone, -⟩ | ⟨tokens', ⟨hfetch', -⟩, hrun⟩
  · exact absurd (hnone tokens hfetch) hne
  cases hfetch.symm.trans hfetch'
  rcases hrun with ⟨table', -, hrun⟩ | ⟨-, hrun⟩
  · rw [hrun]
    rfl
  · rw [hrun]
    rfl

end ChainMonitor.Orchestrator
